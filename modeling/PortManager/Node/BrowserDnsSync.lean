import PortManager.Base.Run
import PortManager.Node.BrowserDnsServer
import PortManager.Node.MessageBuffer

/-!
# Syncs of the browser DNS table

Embeds `syncBrowserDns`, `persistBrowserDnsState` and `restoreBrowserDnsState` of `src/agent/port-manager-agent.ts`: a
table is replaced only under the authority of the shared document, and the sidecar is written before the table changes.

In every run of syncs, document changes, failed writes and restarts the daemon holds what a restart would restore
(`RestoredFromSidecar`), and from that the rules for what is applied follow (`syncs_follow_shared_document`).
-/

namespace PortManager.Node
open JsonText Utf8 Bool

/-! ## The shared document -/

/-- TS `sharedStateRevisionMatches`; the file is its octets, `none` when there is no path or it cannot be read. The decoded text
has no more units than the file has octets, so the reader does not run out of fuel. -/
def revisionMatchesFile (file : Option (List Nat)) (revision : List Nat) : Bool :=
  match file with
  | none => false
  | some octets => revision.length ≠ 0 && documentMatches revision (document none (octets.length + 2) (decode octets))

/-- The revision a document has: that of an envelope, or `legacy` for a raw registry. -/
def documentRevision : Option Json → Option (List Nat)
  | some (.object members) =>
    if isVersionedEnvelope members then
      match property members (codes "revision") with
      | some (.string raw) => some (stringValue raw)
      | _ => none
    else if isSharedNetworkRegistryState (some (.object members)) then some (codes "legacy")
    else none
  | _ => none

def fileRevision (file : Option (List Nat)) : Option (List Nat) :=
  file.bind fun octets => documentRevision (document none (octets.length + 2) (decode octets))

lemma documentRevision_of_matches {revision : List Nat} {json : Option Json} (h : documentMatches revision json = true) :
    documentRevision json = some revision := by
  match json with
  | some (.object members) =>
    simp only [documentMatches, or_eq_true, and_eq_true, decide_eq_true_eq, not_eq_true'] at h
    rcases h with ⟨⟨⟨-, -⟩, hrevision⟩, -⟩ | ⟨⟨rfl, hraw⟩, hstate⟩
    · cases hproperty : property members (codes "revision") with
      | none =>
        rw [hproperty] at hrevision
        cases hrevision
      | some value =>
        have henvelope : isVersionedEnvelope members = true := by simp [isVersionedEnvelope, hproperty]
        rw [hproperty] at hrevision
        cases value with
        | string raw =>
          rw [documentRevision, if_pos henvelope, hproperty]
          exact congrArg some (of_decide_eq_true hrevision)
        | _ => cases hrevision
    · rw [documentRevision, if_neg (by rw [hraw]; exact false_ne_true), if_pos hstate]

lemma fileRevision_of_matches {file : Option (List Nat)} {revision : List Nat}
    (h : revisionMatchesFile file revision = true) : fileRevision file = some revision := by
  cases file with
  | none => cases h
  | some octets =>
    rw [revisionMatchesFile, and_eq_true] at h
    exact documentRevision_of_matches h.2

/-! ## The daemon -/

/-- TS `SyncBrowserDnsPayload`. Its strings have code units. -/
structure SyncBrowserDnsPayload where
  records : List Nat
  revision : Option (List Nat)
  sharedStatePath : Option (List Nat)
  records_units : ∀ unit ∈ records, unit < 0x10000
  revision_units : ∀ text ∈ revision, ∀ unit ∈ text, unit < 0x10000

/-- What TS `persistBrowserDnsState` prints. -/
def SyncBrowserDnsPayload.sidecar (payload : SyncBrowserDnsPayload) : Json :=
  .object ((payload.revision.map fun revision => (codes "revision", Json.string revision)).toList ++
    [(codes "records", .string payload.records)])

/-- The octets that TS `persistBrowserDnsState` writes. -/
def SyncBrowserDnsPayload.sidecarOctets (payload : SyncBrowserDnsPayload) : List Nat :=
  encode (payload.sidecar.stringify ++ [10])

/-- The daemon and the files it reads and writes. There is no server when browser DNS is disabled. -/
structure DnsSystem where
  browserDnsServer : Option BrowserDnsServer
  browserDnsRevision : Option (List Nat)
  sidecar : Option (List Nat)
  documents : List Nat → Option (List Nat)

section Daemon

variable (lower : List Nat → List Nat)

/-- TS `restoreBrowserDnsState` on a new server: the revision and the table. -/
def restoreBrowserDnsState (sidecar : Option (List Nat)) : Option (List Nat) × BrowserDnsServer :=
  match sidecar.bind fun octets => document none (octets.length + 2) (decode octets) with
  | some (.object members) =>
    match property members (codes "records") with
    | some (.string records) =>
      (match property members (codes "revision") with
        | some (.string revision) => some (stringValue revision)
        | _ => none,
        .sync lower (parseBrowserDnsRecordPairs (stringValue records)))
    | _ => (none, .empty)
  | _ => (none, .empty)

/-- The constructor of TS `PortManagerAgent`. -/
def DnsSystem.start (enabled : Bool) (sidecar : Option (List Nat)) (documents : List Nat → Option (List Nat)) : DnsSystem :=
  if enabled then
    ⟨some (restoreBrowserDnsState lower sidecar).2, (restoreBrowserDnsState lower sidecar).1, sidecar, documents⟩
  else ⟨none, none, sidecar, documents⟩

variable (system : DnsSystem) (payload : SyncBrowserDnsPayload)

/-- Whether TS `syncBrowserDns` refuses a sync before it writes. -/
def DnsSystem.refuses : Bool :=
  match payload.revision with
  | some revision => !revisionMatchesFile (payload.sharedStatePath.bind system.documents) revision
  | none => system.browserDnsRevision.isSome

/-- TS `syncBrowserDns`: the daemon and its files after the call, and the field `applied` of the result. The sidecar is
replaced by a rename, so a write that fails leaves it as it was. -/
def DnsSystem.syncBrowserDns (written : Bool) : DnsSystem × Option Bool :=
  if system.browserDnsServer.isNone then (system, none)
  else if system.refuses payload then (system, some false)
  else if payload.revision.isSome ∧ payload.revision = system.browserDnsRevision then (system, some true)
  else if written then
    ({ system with
        sidecar := some payload.sidecarOctets
        browserDnsServer := some (.sync lower (parseBrowserDnsRecordPairs payload.records))
        browserDnsRevision := payload.revision }, some true)
  else (system, some false)

/-- What can happen next: a sync, whose write may fail, a change of a shared document, or a restart. -/
inductive DnsEvent where
  | syncBrowserDns (payload : SyncBrowserDnsPayload) (written : Bool)
  | shareDocument (path : List Nat) (content : Option (List Nat))
  | restart (enabled : Bool)

def DnsSystem.step : DnsEvent → DnsSystem
  | .syncBrowserDns payload written => (system.syncBrowserDns lower payload written).1
  | .shareDocument path content => { system with documents := Function.update system.documents path content }
  | .restart enabled => .start lower enabled system.sidecar system.documents

def DnsSystem.Applies (written : Bool) : Prop :=
  (system.syncBrowserDns lower payload written).2 = some true

/-! ## The sidecar -/

variable (payload : SyncBrowserDnsPayload)

lemma SyncBrowserDnsPayload.printable : payload.sidecar.Printable := by
  obtain ⟨records, revision, path, hrecords, hrevision⟩ := payload
  have hname : (∀ unit ∈ codes "records", unit < 0x10000) ∧ ∀ unit ∈ codes "revision", unit < 0x10000 := by decide
  cases revision with
  | none => exact ⟨⟨hname.1, hrecords⟩, trivial⟩
  | some revision => exact ⟨⟨hname.2, hrevision revision rfl⟩, ⟨hname.1, hrecords⟩, trivial⟩

lemma restore_sidecarOctets :
    restoreBrowserDnsState lower (some payload.sidecarOctets) =
      (payload.revision, .sync lower (parseBrowserDnsRecordPairs payload.records)) := by
  have hwhole : Whole (payload.sidecar.stringify ++ [10]) :=
    (plain_stringify _ payload.printable).whole.append (.cons (character_ascii (by decide)) .nil)
  have hlength := length_le_encode hwhole
  rw [List.length_append, List.length_singleton] at hlength
  have hread : document none (payload.sidecarOctets.length + 2) (decode payload.sidecarOctets) =
      some (payload.sidecar.mapStrings quote) := by
    rw [SyncBrowserDnsPayload.sidecarOctets, decode_encode hwhole]
    exact document_stringify_append payload.printable (by omega) (.cons rfl []) rfl
  have hrecords := stringValue_quote payload.records_units
  rw [restoreBrowserDnsState, Option.bind_some, hread]
  obtain ⟨records, revision, path, hunits, hrevision⟩ := payload
  cases revision with
  | none =>
    change (none, BrowserDnsServer.sync lower (parseBrowserDnsRecordPairs (stringValue (quote records)))) = _
    rw [hrecords]
  | some revision =>
    change (some (stringValue (quote revision)),
      BrowserDnsServer.sync lower (parseBrowserDnsRecordPairs (stringValue (quote records)))) = _
    rw [hrecords, stringValue_quote (hrevision revision rfl)]

/-! ## What one event does -/

/-- What a sync does: nothing, or nothing with `applied: true` for a replay, or a new table with its sidecar. -/
inductive Synced (system : DnsSystem) (payload : SyncBrowserDnsPayload) : DnsSystem × Option Bool → Prop where
  | ignored {applied : Option Bool} : applied ≠ some true → Synced system payload (system, applied)
  | replayed : system.browserDnsServer ≠ none → system.refuses payload = false → payload.revision.isSome →
    payload.revision = system.browserDnsRevision → Synced system payload (system, some true)
  | replaced : system.browserDnsServer ≠ none → system.refuses payload = false →
    Synced system payload ({ system with
        sidecar := some payload.sidecarOctets
        browserDnsServer := some (.sync lower (parseBrowserDnsRecordPairs payload.records))
        browserDnsRevision := payload.revision }, some true)

open DnsSystem

lemma synced (written : Bool) : Synced lower system payload (system.syncBrowserDns lower payload written) := by
  unfold syncBrowserDns
  split_ifs with hserver hrefuses hreplay hwritten
  · exact .ignored nofun
  · exact .ignored nofun
  · exact .replayed (by simpa using hserver) (by simpa using hrefuses) hreplay.1 hreplay.2
  · exact .replaced (by simpa using hserver) (by simpa using hrefuses)
  · exact .ignored nofun

variable {lower} {system : DnsSystem} {payload : SyncBrowserDnsPayload} {written : Bool}

lemma DnsSystem.unchanged_of_not_applies (h : ¬ system.Applies lower payload written) :
    (system.syncBrowserDns lower payload written).1 = system := by
  have hsynced := synced lower system payload written
  unfold Applies at h
  generalize system.syncBrowserDns lower payload written = result at hsynced h
  cases hsynced with
  | ignored => rfl
  | replayed => rfl
  | replaced => exact absurd rfl h

lemma DnsSystem.not_refuses_of_applies (h : system.Applies lower payload written) :
    system.browserDnsServer ≠ none ∧ system.refuses payload = false := by
  have hsynced := synced lower system payload written
  unfold Applies at h
  generalize system.syncBrowserDns lower payload written = result at hsynced h
  cases hsynced with
  | ignored hnot => exact absurd h hnot
  | replayed hserver hrefuses => exact ⟨hserver, hrefuses⟩
  | replaced hserver hrefuses => exact ⟨hserver, hrefuses⟩

variable (lower)

/-- A daemon with browser DNS holds what a restart would restore, and one without holds no revision. -/
def RestoredFromSidecar (system : DnsSystem) : Prop :=
  match system.browserDnsServer with
  | some server => (system.browserDnsRevision, server) = restoreBrowserDnsState lower system.sidecar
  | none => system.browserDnsRevision = none

lemma restoredFromSidecar_start (enabled : Bool) (sidecar : Option (List Nat))
    (documents : List Nat → Option (List Nat)) : RestoredFromSidecar lower (.start lower enabled sidecar documents) := by
  cases enabled with
  | true => exact rfl
  | false => exact rfl

variable {lower}

lemma RestoredFromSidecar.step (h : RestoredFromSidecar lower system) (event : DnsEvent) :
    RestoredFromSidecar lower (system.step lower event) := by
  cases event with
  | syncBrowserDns payload written =>
    have hsynced := synced lower system payload written
    rw [DnsSystem.step]
    generalize system.syncBrowserDns lower payload written = result at hsynced
    cases hsynced with
    | ignored => exact h
    | replayed => exact h
    | replaced => exact (restore_sidecarOctets lower payload).symm
  | shareDocument path content => exact h
  | restart enabled => exact restoredFromSidecar_start lower enabled _ _

def RevisionKept (lower : List Nat → List Nat) (system : DnsSystem) : Prop :=
  RestoredFromSidecar lower system ∧ (restoreBrowserDnsState lower system.sidecar).1.isSome

lemma RevisionKept.revision (h : RevisionKept lower system)
    (hserver : system.browserDnsServer ≠ none) : system.browserDnsRevision.isSome := by
  obtain ⟨hrestored, hsome⟩ := h
  obtain ⟨server, hserver⟩ := Option.ne_none_iff_exists'.mp hserver
  rw [RestoredFromSidecar, hserver] at hrestored
  rwa [← hrestored] at hsome

lemma revisionKept_of_applies (h : RestoredFromSidecar lower system)
    (hrevision : payload.revision.isSome) (happlies : system.Applies lower payload written) :
    RevisionKept lower (system.step lower (.syncBrowserDns payload written)) := by
  refine ⟨h.step _, ?_⟩
  have hsynced := synced lower system payload written
  unfold Applies at happlies
  rw [DnsSystem.step]
  generalize system.syncBrowserDns lower payload written = result at hsynced happlies
  cases hsynced with
  | ignored hnot => exact absurd happlies hnot
  | replayed hserver _ hsome hsame =>
    obtain ⟨server, hserver⟩ := Option.ne_none_iff_exists'.mp hserver
    rw [RestoredFromSidecar, hserver] at h
    rw [← h, ← hsame]
    exact hsome
  | replaced =>
    rw [restore_sidecarOctets]
    exact hrevision

lemma RevisionKept.step (h : RevisionKept lower system) (event : DnsEvent) :
    RevisionKept lower (system.step lower event) := by
  cases event with
  | syncBrowserDns payload written =>
    by_cases happlies : system.Applies lower payload written
    · obtain ⟨hserver, hrefuses⟩ := not_refuses_of_applies happlies
      refine revisionKept_of_applies h.1 ?_ happlies
      -- without a revision the sync would have been refused
      cases hrevision : payload.revision with
      | some revision => rfl
      | none =>
        rw [refuses, hrevision] at hrefuses
        exact absurd ((h.revision hserver).symm.trans hrefuses) false_ne_true.symm
    · rw [DnsSystem.step, unchanged_of_not_applies happlies]
      exact h
  | shareDocument path content => exact h
  | restart enabled => exact ⟨h.1.step _, by cases enabled <;> exact h.2⟩

/-! ## Runs -/

variable (lower)

def DnsSystem.after (enabled : Bool) (sidecar : Option (List Nat)) (documents : List Nat → Option (List Nat))
    (events : List DnsEvent) : DnsSystem :=
  Run.run (DnsSystem.step lower) (.start lower enabled sidecar documents) events

variable {enabled : Bool} {sidecar : Option (List Nat)} {documents : List Nat → Option (List Nat)}

lemma restoredFromSidecar_after (events : List DnsEvent) :
    RestoredFromSidecar lower (.after lower enabled sidecar documents events) :=
  Run.run_keeps (fun _ event h => h.step event) (restoredFromSidecar_start lower enabled sidecar documents) events

variable {lower}

lemma not_applies_unrevisioned {first second : List DnsEvent} {accepted : SyncBrowserDnsPayload}
    {acceptedWrite : Bool} (hrevision : accepted.revision.isSome)
    (happlied : (after lower enabled sidecar documents first).Applies lower accepted acceptedWrite)
    (hnone : payload.revision = none) (written : Bool) :
    ¬ (after lower enabled sidecar documents
      (first ++ .syncBrowserDns accepted acceptedWrite :: second)).Applies lower payload written := by
  have hkept : RevisionKept lower (.after lower enabled sidecar documents
      (first ++ .syncBrowserDns accepted acceptedWrite :: second)) := by
    rw [after, Run.run_append, Run.run_cons]
    refine Run.run_keeps (fun _ event h => h.step event) ?_ second
    exact revisionKept_of_applies (restoredFromSidecar_after lower first) hrevision happlied
  intro happlies
  obtain ⟨hserver, hrefuses⟩ := not_refuses_of_applies happlies
  rw [refuses, hnone] at hrefuses
  exact absurd ((hkept.revision hserver).symm.trans hrefuses) false_ne_true.symm

variable (lower) (enabled) (sidecar) (documents)

/-- In every run: a sync whose revision is not the shared document's is not applied; after a revisioned sync has been
applied, no unrevisioned one is; a sync that is not applied changes neither table nor revision; and the daemon
holds the revision and the table that a restart would restore from the sidecar. -/
theorem syncs_follow_shared_document (events : List DnsEvent) :
    (∀ payload written revision, payload.revision = some revision →
      fileRevision (payload.sharedStatePath.bind (after lower enabled sidecar documents events).documents) ≠
        some revision →
      ¬ (after lower enabled sidecar documents events).Applies lower payload written) ∧
    (∀ first accepted acceptedWrite second, events = first ++ .syncBrowserDns accepted acceptedWrite :: second →
      accepted.revision.isSome →
      (after lower enabled sidecar documents first).Applies lower accepted acceptedWrite →
      ∀ payload written, payload.revision = none →
        ¬ (after lower enabled sidecar documents events).Applies lower payload written) ∧
    (∀ payload written,
      ¬ (after lower enabled sidecar documents events).Applies lower payload written →
      ((after lower enabled sidecar documents events).syncBrowserDns lower payload written).1.browserDnsServer =
        (after lower enabled sidecar documents events).browserDnsServer ∧
      ((after lower enabled sidecar documents events).syncBrowserDns lower payload written).1.browserDnsRevision =
        (after lower enabled sidecar documents events).browserDnsRevision) ∧
    RestoredFromSidecar lower (after lower enabled sidecar documents events) := by
  refine ⟨?_, ?_, ?_, restoredFromSidecar_after lower events⟩
  · intro payload written revision hrevision hother happlies
    have hrefuses := (not_refuses_of_applies happlies).2
    rw [refuses, hrevision, not_eq_false'] at hrefuses
    exact hother (fileRevision_of_matches hrefuses)
  · rintro first accepted acceptedWrite second rfl hrevision happlied payload written hnone
    exact not_applies_unrevisioned hrevision happlied hnone written
  · intro payload written hnot
    rw [unchanged_of_not_applies hnot]
    exact ⟨rfl, rfl⟩

end Daemon

end PortManager.Node
