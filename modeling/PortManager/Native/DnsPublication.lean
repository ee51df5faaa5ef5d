import PortManager.Native.DnsDocument
import PortManager.Native.DnsRecords
import PortManager.Native.Publication

/-!
# Browser DNS publications

Embeds the publication of browser DNS tables (`native/agent/portmanager_agent_dns.c`): `syncBrowserDns`
submits a replacement table to a publication lane, the lane's worker validates it against the shared
document and renames it over the sidecar file, and the poll that finishes the job installs it in memory.

The rename is the commit. A job that is canceled after it, because its deadline passes before the worker
or the finishing poll looks at the clock, is reported as failed and leaves the memory as it was, with
the new table in the sidecar. As long as no deadline passes between a rename and its finishing
poll, memory and sidecar hold the same table each time a job has finished.
-/

namespace PortManager.Native
open CText Cursor Run List PublicationLane PublicationJob Option

/-- `job->applied`: 0, 1 and 2. -/
inductive DnsApplied where
  | no | installed | unchanged
deriving DecidableEq

structure DnsPublication where
  replacement : DnsTable
  sharedStatePath : Text
  previousRevision : Text
  applied : DnsApplied

/-- Where the worker stands in C `pm_dns_publication_run`. -/
inductive DnsRunPlace where
  /-- before the first validation -/
  | validating
  /-- at the start of C `pm_dns_persist_records` -/
  | persisting
  /-- before the temporary file is written -/
  | writing
  /-- before the first of the two tests for cancellation around the validation -/
  | rechecking
  /-- before the validation of C `pm_write_atomic_guarded` -/
  | revalidating
  /-- before the last test for cancellation -/
  | guarding
  /-- before the rename -/
  | committing
deriving DecidableEq

/-- The files: the sidecar, and what reading a shared document puts into memory (its bytes, the terminator,
and what lies behind it). -/
structure DnsFiles where
  sidecar : Option Text
  documents : Text → Option Text

/-- The sidecar's path and `sizeof(pm_dns_publication)`. -/
structure DnsConfig where
  statePath : Text
  sizeofPublication : Nat

variable (config : DnsConfig) (files : DnsFiles)

/-- The table that C `pm_dns_load_persisted_records` would load. -/
def DnsFiles.durable : DnsTable :=
  if config.statePath = [] then .empty else loadPersistedRecords files.sidecar

/-! ## The job -/

/-- C `pm_dns_revision_matches_document`. -/
def revisionMatchesDocument (path revision : Text) : Bool :=
  path ≠ [] && revision ≠ [] &&
    (files.documents path).any fun memory => dnsDocumentAuthorizes memory revision = some true

variable (publication : DnsPublication)

def dnsPublicationValidate : Bool :=
  publication.replacement.revision = [] ||
    revisionMatchesDocument files publication.sharedStatePath publication.replacement.revision

def dnsPublicationPrepare (table : DnsTable) (publication : DnsPublication) : DnsPublication :=
  { publication with previousRevision := table.revision }

/-- The test of C `pm_dns_publication_run` for a stale or unreadable revision. -/
def dnsPublicationRejected : Bool :=
  !dnsPublicationValidate files publication ||
    (publication.replacement.revision = [] && publication.previousRevision ≠ [])

/-- One step of C `pm_dns_publication_run` with C `pm_dns_persist_records` and
C `pm_write_atomic_guarded`. `io` is whether what the step asks of the system succeeds: the index or the
text buffer, the temporary file, the rename. The run returns 0 whatever happens. -/
def dnsPublicationRunStep (now : Nat) (io : Bool) (job : PublicationJob DnsPublication)
    (files : DnsFiles) (place : DnsRunPlace) : DnsFiles × DnsPublication × (DnsRunPlace ⊕ Bool) :=
  let publication := job.context
  let go (ok : Bool) (next : DnsRunPlace) :=
    (files, publication, if ok then Sum.inl next else Sum.inr true)
  match place with
  | .validating =>
    if dnsPublicationRejected files publication then (files, publication, .inr true)
    else if publication.replacement.revision ≠ [] ∧
        publication.replacement.revision = publication.previousRevision then
      (files, { publication with applied := .unchanged }, .inr true)
    else go (io || publication.replacement.records.isEmpty) .persisting
  | .persisting => go (config.statePath ≠ [] && io && !job.isCanceled now) .writing
  | .writing => go io .rechecking
  | .rechecking => go (!job.isCanceled now) .revalidating
  | .revalidating => go (dnsPublicationValidate files publication) .guarding
  | .guarding => go (!job.isCanceled now) .committing
  | .committing =>
    if io then
      ({ files with sidecar := some (persistText publication.replacement) },
        { publication with applied := .installed }, .inr true)
    else (files, publication, .inr true)

/-- C `pm_dns_publication_finish`: the table in memory afterwards, and whether it returned 0. -/
def dnsPublicationFinish (table : DnsTable) (publication : DnsPublication) (ok : Bool) : DnsTable × Bool :=
  (if ok ∧ publication.applied = .installed then publication.replacement else table, ok)

def dnsPublicationOperations : PublicationOperations DnsTable DnsPublication :=
  ⟨dnsPublicationPrepare, dnsPublicationFinish⟩

/-! ## The daemon -/

/-- What the control thread, the worker and the file system hold of browser DNS. -/
structure DnsDaemon where
  clock : Nat
  table : DnsTable
  files : DnsFiles
  lane : PublicationLane DnsPublication DnsRunPlace
  receipts : List PublicationStatus

/-- C `pm_dns_init` on the files it finds. -/
def DnsDaemon.start (clock : Nat) (files : DnsFiles) : DnsDaemon :=
  ⟨clock, files.durable config, files, .create (32 * 1024 * 1024), []⟩

/-- `browser_dns_capacity` after `count` appended records. -/
def recordCapacity (count : Nat) : Nat :=
  (List.range count).foldl
    (fun capacity index => if index = capacity then (if capacity = 0 then 16 else capacity * 2) else capacity) 0

/-- The replacement table of C `pm_dns_sync`: every nonempty pair between commas. -/
def syncTable (records revision : Text) : DnsTable :=
  ((records.splitOn 44).filter (· ≠ [])).foldl .addPair (DnsTable.empty.setRevision revision)

/-- The job of C `pm_dns_sync`, unless the payload has no records. -/
def syncPublication (payload : Text) : Option DnsPublication :=
  let records := jsonGetString payload (ascii "records") (payload.length + 2)
  if records.1 then
    some ⟨syncTable records.2 (jsonGetString payload (ascii "revision") PM_SMALL).2,
      (jsonGetString payload (ascii "sharedStatePath") PM_TEXT).2, [], .no⟩
  else none

/-- `sizeof(*job) + capacity * sizeof(pm_browser_dns_record) + count * sizeof(*index)` -/
def publicationBytes : Nat :=
  config.sizeofPublication + recordCapacity publication.replacement.records.length * 258 +
    publication.replacement.records.length * 8

variable (daemon : DnsDaemon)

/-- C `pm_dns_sync`; a refused job leaves the lane as it was. -/
def dnsSync (payload : Text) : DnsDaemon :=
  match syncPublication payload with
  | none => daemon
  | some publication =>
    match daemon.lane.submit daemon.clock publication (publicationBytes config publication) false with
    | none => daemon
    | some lane => { daemon with lane := lane }

/-- What can happen next: time passes, a shared document changes, a window sends `syncBrowserDns`, the control
thread polls the lane (with a clock it has read `lag` milliseconds ago), or the worker takes a step. -/
inductive DnsEvent where
  | elapse (ms : Nat)
  | shareDocument (path : Text) (memory : Option Text)
  | syncBrowserDns (payload : Text)
  | poll (lag : Nat)
  | work (io : Bool)

def dnsPoll (lag : Nat) : DnsDaemon :=
  let (table, lane, settled) :=
    daemon.lane.poll dnsPublicationOperations (daemon.clock - lag) daemon.table
  { daemon with table := table, lane := lane, receipts := daemon.receipts ++ settled }

def dnsWork (io : Bool) : DnsDaemon :=
  let (files, lane) := daemon.lane.work .validating (dnsPublicationRunStep config daemon.clock io)
    daemon.clock daemon.files
  { daemon with files := files, lane := lane }

def dnsStep : DnsEvent → DnsDaemon
  | .elapse ms => { daemon with clock := daemon.clock + ms }
  | .shareDocument path memory =>
    { daemon with files := { daemon.files with
        documents := Function.update daemon.files.documents path memory } }
  | .syncBrowserDns payload => dnsSync config daemon payload
  | .poll lag => dnsPoll daemon lag
  | .work io => dnsWork config daemon io

/-! ## Authorized revisions -/

variable {guarded : Bool} {mem : Text} {fuel : Nat} {seen : DocumentSeen} {daemon : DnsDaemon}
    {job : PublicationJob DnsPublication}

lemma dnsJsonStringLoop_yields {place : JsonText.StringPlace} {out : Text} (hout : ∀ b ∈ out, b = 0 ∨ 0x20 ≤ b) :
    Yields (fun out => ∀ b ∈ out, b = 0 ∨ 0x20 ≤ b) (dnsJsonStringLoop guarded place mem out) := by
  -- a byte is copied after the test for control bytes, or as an escape letter
  have happend : ∀ {out : Text} {c : UInt8}, (∀ b ∈ out, b = 0 ∨ 0x20 ≤ b) → (c = 0 ∨ 0x20 ≤ c) →
      ∀ b ∈ out ++ [c], b = 0 ∨ 0x20 ≤ b := by
    intro out c hout hc b hb
    rcases mem_append.mp hb with hb | hb
    · exact hout b hb
    · rw [mem_singleton.mp hb]
      exact hc
  induction mem generalizing place out with
  | nil =>
    cases place <;> trivial
  | cons c rest ih =>
    cases place with
    | plain =>
      rw [dnsJsonStringLoop]
      split_ifs with h0 hquote hcontrol hescape
      · trivial
      · exact hout
      · trivial
      · exact ih hout
      · exact ih (happend hout (.inr (UInt8.not_lt.mp hcontrol)))
    | escape =>
      rw [dnsJsonStringLoop]
      split_ifs with hcut hsimple hu
      · trivial
      · refine ih (happend hout ?_)
        simp only [isSimpleEscape, Bool.or_eq_true, beq_iff_eq] at hsimple
        rcases hsimple with (((((((rfl | rfl) | rfl) | rfl) | rfl) | rfl) | rfl) | rfl) | rfl <;> decide
      · subst hu
        exact ih (happend hout (by decide))
      · trivial
    | hex left =>
      rw [dnsJsonStringLoop]
      split_ifs
      · exact ih hout
      · trivial

lemma dnsJsonString_yields (guarded : Bool) (size : Option Nat) (mem : Text) :
    Yields printable (dnsJsonString guarded size mem) := by
  refine .after fun _ mem => (dnsJsonStringLoop_yields fun _ h => absurd h not_mem_nil).bind ?_
  intro out rest hout
  split_ifs
  · trivial
  intro b hb
  have hne := mem_takeWhile_imp hb
  exact (hout b (takeWhile_subset _ hb)).resolve_left (by simpa using hne)

def DocumentSeen.Printable (seen : DocumentSeen) : Prop := ∀ revision ∈ seen.revision, printable revision

lemma dnsDocumentMember_yields (h : seen.Printable) (key mem : Text) :
    Yields DocumentSeen.Printable (dnsDocumentMember guarded fuel seen key mem) := by
  rw [dnsDocumentMember]
  split_ifs
  · trivial
  · refine .after fun _ rest => ?_
    split_ifs
    · exact h
    · trivial
  · trivial
  · refine (dnsJsonString_yields ..).bind fun revision rest hrevision => ?_
    intro r hr
    rw [← some.inj hr]
    exact hrevision
  · trivial
  · exact .after fun _ rest => h
  · split
    · exact .after fun _ rest => h
    · exact .after fun _ rest => h

lemma dnsJsonNext_yields {α : Type} {P : α → Prop} {close : UInt8} {finished : α} {again : Text → Scan α}
    (hfinished : P finished) (hagain : ∀ mem, Yields P (again mem)) (mem : Text) :
    Yields P (dnsJsonNext close finished again mem) := by
  refine .after fun _ mem => .after fun c mem => ?_
  split_ifs
  · exact hfinished
  · exact .after fun _ mem => .after fun _ mem => hagain mem

lemma dnsDocumentLoop_yields (h : seen.Printable) (mem : Text) :
    Yields DocumentSeen.Printable (dnsDocumentLoop guarded fuel seen mem) := by
  induction fuel generalizing seen mem with
  | zero => trivial
  | succ fuel ih =>
    rw [dnsDocumentLoop]
    refine .after fun key mem => (dnsDocumentMember_yields h key mem).bind fun seen mem hseen => ?_
    exact dnsJsonNext_yields hseen (ih hseen) mem

lemma dnsDocumentScan_yields (guarded : Bool) (fuel : Nat) (mem : Text) :
    Yields DocumentSeen.Printable (dnsDocumentScan guarded fuel mem) := by
  have hnone : DocumentSeen.none.Printable := fun revision h => nomatch h
  refine .after fun _ mem => .after fun _ mem => .after fun _ mem => .after fun c mem => ?_
  split_ifs
  · trivial
  refine (dnsDocumentLoop_yields hnone mem).bind fun seen mem hseen => ?_
  refine .after fun _ mem => .after fun c mem => ?_
  split_ifs
  · exact hseen
  · trivial

lemma printable_of_authorized {revision : Text} (h : dnsDocumentAuthorizes mem revision = some true) :
    printable revision := by
  have hscan := dnsDocumentScan_yields false (documentFuel mem) mem
  rw [dnsDocumentAuthorizes] at h
  cases hs : dnsDocumentScan false (documentFuel mem) mem with
  | ok seen rest =>
    rw [hs] at h hscan
    have hverdict : documentVerdict seen revision = true := some.inj h
    unfold documentVerdict at hverdict
    split at hverdict
    · exact hscan revision (by simpa using (of_decide_eq_true hverdict).2.2.2)
    · rw [(of_decide_eq_true hverdict).1]
      exact (by decide +kernel : ∀ b ∈ ascii "legacy", 0x20 ≤ b)
  | refuse =>
    rw [hs] at h
    cases h
  | overrun =>
    rw [hs] at h
    cases h
  | cut =>
    rw [hs] at h
    cases h
  | unfinished =>
    rw [hs] at h
    cases h

lemma printable_of_validate {files : DnsFiles} {publication : DnsPublication}
    (h : dnsPublicationValidate files publication = true) : printable publication.replacement.revision := by
  simp only [dnsPublicationValidate, Bool.or_eq_true, decide_eq_true_eq, revisionMatchesDocument,
    Bool.and_eq_true, Option.any_eq_true] at h
  rcases h with h | ⟨-, memory, -, h⟩
  · rw [h]
    exact fun b hb => absurd hb not_mem_nil
  · exact printable_of_authorized h

/-- A publication is refused, or its table is what a starting daemon reads back. -/
theorem refused_or_reloads (files : DnsFiles) (publication : DnsPublication) :
    dnsPublicationValidate files publication = false ∨
      loadPersistedRecords (some (persistText publication.replacement)) = publication.replacement := by
  refine or_iff_not_imp_left.mpr fun h => ?_
  exact loadPersistedRecords_persistText (printable_of_validate (by simpa using h))

/-! ## Memory and sidecar -/

/-- What is known once `run` has ended: an installed table is in the sidecar, and its job can still be
finished; otherwise the sidecar holds the table in memory. -/
structure RunEnded (config : DnsConfig) (clock : Nat) (files : DnsFiles) (table : DnsTable)
    (job : PublicationJob DnsPublication) (ok : Bool) : Prop where
  installed : job.context.applied = .installed →
    files.durable config = job.context.replacement ∧ ok = true ∧ clock < job.deadlineMs
  other : job.context.applied ≠ .installed → files.durable config = table

def PlaceHolds (clock : Nat) (files : DnsFiles) (table : DnsTable)
    (job : PublicationJob DnsPublication) : WorkerPlace DnsRunPlace → Prop
  | .handed => job.context.applied = .no ∧ files.durable config = table
  | .running place =>
    (job.context.applied = .no ∧ files.durable config = table) ∧
      (place ≠ .validating → printable job.context.replacement.revision) ∧
      (place ≠ .validating → place ≠ .persisting → config.statePath ≠ [])
  | .returned ok => RunEnded config clock files table job ok
  | .reporting ok => RunEnded config clock files table job ok
  | .done ok => RunEnded config clock files table job ok

/-- The invariant of the daemon: outside a publication the sidecar holds the table in memory. -/
structure DnsInvariant (config : DnsConfig) (clock : Nat) (files : DnsFiles) (table : DnsTable)
    (lane : PublicationLane DnsPublication DnsRunPlace) : Prop where
  queued : ∀ job ∈ lane.queue, job.context.applied = .no ∧ job.canceled = false
  canceled : ∀ job place, lane.active = some (job, place) → job.canceled = true → job.deadlineMs ≤ clock
  idle : lane.active = none → files.durable config = table
  active : ∀ job place, lane.active = some (job, place) → PlaceHolds config clock files table job place

/-- The deadline of the active job once its table has been renamed into place. -/
def commitPending (daemon : DnsDaemon) : Option Nat :=
  daemon.lane.active.bind fun active =>
    if active.1.context.applied = .installed then some active.1.deadlineMs else none

/-- The deadline of the active job when its rename is next. -/
def renamePending (daemon : DnsDaemon) : Option Nat :=
  daemon.lane.active.bind fun active =>
    if active.2 = .running .committing then some active.1.deadlineMs else none

/-- A rename that succeeds comes before its job's deadline, and that deadline does not pass until the
job is finished. -/
def InTime (daemon : DnsDaemon) : DnsEvent → Prop
  | .elapse ms => ∀ deadline ∈ commitPending daemon, daemon.clock + ms < deadline
  | .work true => ∀ deadline ∈ renamePending daemon, daemon.clock < deadline
  | _ => True

instance decidableInTime (daemon : DnsDaemon) : (event : DnsEvent) → Decidable (InTime daemon event)
  | .elapse ms => inferInstanceAs (Decidable (∀ deadline ∈ commitPending daemon, daemon.clock + ms < deadline))
  | .work true => inferInstanceAs (Decidable (∀ deadline ∈ renamePending daemon, daemon.clock < deadline))
  | .work false => .isTrue trivial
  | .shareDocument .. => .isTrue trivial
  | .syncBrowserDns _ => .isTrue trivial
  | .poll _ => .isTrue trivial

section Steps

variable {config : DnsConfig} {clock : Nat} {files : DnsFiles} {table : DnsTable}
  {lane : PublicationLane DnsPublication DnsRunPlace}

variable (h : DnsInvariant config clock files table lane)
include h

lemma DnsInvariant.elapse {ms : Nat}
    (hlate : ∀ job place, lane.active = some (job, place) → job.context.applied = .installed →
      clock + ms < job.deadlineMs) : DnsInvariant config (clock + ms) files table lane := by
  have ended : ∀ job place ok, lane.active = some (job, place) →
      RunEnded config clock files table job ok → RunEnded config (clock + ms) files table job ok := by
    intro job place ok hactive hended
    refine ⟨fun happlied => ?_, hended.other⟩
    obtain ⟨hdurable, hok, -⟩ := hended.installed happlied
    exact ⟨hdurable, hok, hlate job place hactive happlied⟩
  refine ⟨h.queued, fun job place hactive hcanceled => ?_, h.idle, fun job place hactive => ?_⟩
  · exact Nat.le_add_right_of_le (h.canceled job place hactive hcanceled)
  have hplace := h.active job place hactive
  cases place with
  | handed => exact hplace
  | running place => exact hplace
  | returned ok | reporting ok | done ok => exact ended job _ ok hactive hplace

lemma DnsInvariant.shareDocument (documents : Text → Option Text) :
    DnsInvariant config clock { files with documents := documents } table lane := by
  refine ⟨h.queued, h.canceled, h.idle, fun job place hactive => ?_⟩
  have hplace := h.active job place hactive
  cases place with
  | handed => exact hplace
  | running place => exact hplace
  | returned ok | reporting ok | done ok => exact ⟨hplace.installed, hplace.other⟩

lemma DnsInvariant.submit {publication : DnsPublication}
    (hno : publication.applied = .no) {bytes : Nat} {lane' : PublicationLane DnsPublication DnsRunPlace}
    (hsubmit : lane.submit clock publication bytes false = some lane') :
    DnsInvariant config clock files table lane' := by
  unfold PublicationLane.submit at hsubmit
  split at hsubmit
  · cases hsubmit
  cases hsubmit
  refine ⟨fun job hjob => ?_, h.canceled, h.idle, h.active⟩
  rcases mem_append.mp hjob with hjob | hjob
  · exact h.queued job hjob
  · rw [mem_singleton.mp hjob]
    exact ⟨hno, rfl⟩

omit h

/-- What one step of the run can do: it ends without a change, goes on, finds the revision installed
already, or renames. -/
inductive RunStepped (config : DnsConfig) (io : Bool) (publication : DnsPublication) (files : DnsFiles)
    (place : DnsRunPlace) : DnsFiles × DnsPublication × (DnsRunPlace ⊕ Bool) → Prop where
  | ended : RunStepped config io publication files place (files, publication, .inr true)
  | unchanged : RunStepped config io publication files place
      (files, { publication with applied := .unchanged }, .inr true)
  | validated : place = .validating → dnsPublicationValidate files publication = true →
      RunStepped config io publication files place (files, publication, .inl .persisting)
  | persisting : place = .persisting → config.statePath ≠ [] →
      RunStepped config io publication files place (files, publication, .inl .writing)
  | further (next : DnsRunPlace) : place ≠ .validating → place ≠ .persisting → next ≠ .validating →
      RunStepped config io publication files place (files, publication, .inl next)
  | renamed : place = .committing → io = true → RunStepped config io publication files place
      ({ files with sidecar := some (persistText publication.replacement) },
        { publication with applied := .installed }, .inr true)

lemma dnsPublicationRunStep_stepped (config : DnsConfig) (now : Nat) (io : Bool)
    (job : PublicationJob DnsPublication) (files : DnsFiles) (place : DnsRunPlace) :
    RunStepped config io job.context files place (dnsPublicationRunStep config now io job files place) := by
  cases place with
  | validating =>
    simp only [dnsPublicationRunStep]
    split_ifs with hrejected hsame hindex
    · exact .ended
    · exact .unchanged
    · refine .validated rfl ?_
      simp only [dnsPublicationRejected, Bool.or_eq_true, not_or] at hrejected
      simpa using hrejected.1
    · exact .ended
  | persisting =>
    simp only [dnsPublicationRunStep]
    split_ifs with hgo
    · refine .persisting rfl ?_
      simp only [Bool.and_eq_true, decide_eq_true_eq] at hgo
      exact hgo.1.1
    · exact .ended
  | writing | rechecking | revalidating | guarding =>
    simp only [dnsPublicationRunStep]
    split_ifs
    · exact .further _ nofun nofun nofun
    · exact .ended
  | committing =>
    simp only [dnsPublicationRunStep]
    split_ifs with hio
    · exact .renamed rfl hio
    · exact .ended

variable {job : PublicationJob DnsPublication} {now : Nat}

lemma PlaceHolds.runStep {io : Bool} {place : DnsRunPlace} {files' : DnsFiles}
    {publication : DnsPublication} {next : DnsRunPlace ⊕ Bool}
    (h : PlaceHolds config clock files table job (.running place))
    (hrename : place = .committing → io = true → clock < job.deadlineMs)
    (hstep : RunStepped config io job.context files place (files', publication, next)) :
    PlaceHolds config clock files' table { job with context := publication }
      (next.elim .running .returned) := by
  obtain ⟨⟨hno, hdurable⟩, hprint, hpath⟩ := h
  cases hstep with
  | ended => exact ⟨fun happlied => absurd (hno.symm.trans happlied) nofun, fun _ => hdurable⟩
  | unchanged => exact ⟨nofun, fun _ => hdurable⟩
  | validated hplace hvalid =>
    exact ⟨⟨hno, hdurable⟩, fun _ => printable_of_validate hvalid, fun _ hne => absurd rfl hne⟩
  | persisting hplace hstate =>
    exact ⟨⟨hno, hdurable⟩, fun _ => hprint (by rw [hplace]; nofun), fun _ _ => hstate⟩
  | further next hvalidating hpersisting _ =>
    exact ⟨⟨hno, hdurable⟩, fun _ => hprint hvalidating, fun _ _ => hpath hvalidating hpersisting⟩
  | renamed hplace hio =>
    refine ⟨fun _ => ⟨?_, rfl, hrename hplace hio⟩, fun happlied => absurd rfl happlied⟩
    subst hplace
    rw [DnsFiles.durable, if_neg (hpath nofun nofun)]
    exact loadPersistedRecords_persistText (hprint nofun)

variable {place : WorkerPlace DnsRunPlace}

lemma DnsInvariant.not_canceled (h : DnsInvariant config clock files table lane)
    (hactive : lane.active = some (job, place))
    (hnow : now ≤ clock) (hlate : clock < job.deadlineMs) : job.isCanceled now = false := by
  have hflag : job.canceled = false := by
    cases hcanceled : job.canceled with
    | false => rfl
    | true => exact absurd (h.canceled job place hactive hcanceled) (not_le.mpr hlate)
  simp only [isCanceled, hflag, Bool.false_or, decide_eq_false_iff_not]
  omega

lemma DnsInvariant.work (h : DnsInvariant config clock files table lane) {io : Bool}
    (hrename : ∀ job, lane.active = some (job, .running .committing) → io = true → clock < job.deadlineMs) :
    DnsInvariant config clock
      (lane.work .validating (dnsPublicationRunStep config clock io) clock files).1 table
      (lane.work .validating (dnsPublicationRunStep config clock io) clock files).2 := by
  -- the worker replaces the active job by one with the same deadline and flag
  have moved : ∀ {files' : DnsFiles} {job job' : PublicationJob DnsPublication}
      {place place' : WorkerPlace DnsRunPlace}, lane.active = some (job, place) →
      job'.canceled = job.canceled → job'.deadlineMs = job.deadlineMs →
      PlaceHolds config clock files' table job' place' →
      DnsInvariant config clock files' table { lane with active := some (job', place') } := by
    intro files' job job' place place' hactive hflag hdeadline hplace
    refine ⟨h.queued, ?_, nofun, ?_⟩
    · rintro _ _ ⟨⟩ hcanceled
      rw [hdeadline]
      exact h.canceled job place hactive (hflag ▸ hcanceled)
    · rintro _ _ ⟨⟩
      exact hplace
  unfold PublicationLane.work
  cases hactive : lane.active with
  | none => exact h
  | some active =>
    obtain ⟨job, place⟩ := active
    have hplace := h.active job place hactive
    cases place with
    | handed =>
      refine moved hactive rfl rfl ?_
      split_ifs
      · exact ⟨fun happlied => absurd (hplace.1.symm.trans happlied) nofun, fun _ => hplace.2⟩
      · exact ⟨hplace, fun hne => absurd rfl hne, fun hne => absurd rfl hne⟩
    | running place =>
      have hstep := dnsPublicationRunStep_stepped config clock io job files place
      have hlate : place = .committing → io = true → clock < job.deadlineMs :=
        fun e => hrename job (e ▸ hactive)
      exact moved hactive rfl rfl (hplace.runStep hlate hstep)
    | returned ok =>
      refine moved hactive rfl rfl ⟨fun happlied => ?_, hplace.other⟩
      obtain ⟨hdurable, hok, hlate⟩ := hplace.installed happlied
      exact ⟨hdurable, by rw [hok, h.not_canceled hactive (le_refl _) hlate]; rfl, hlate⟩
    | reporting ok => exact moved hactive rfl rfl ⟨hplace.installed, hplace.other⟩
    | done ok => exact h

/-! ## The poll -/

lemma cancelOverdue_context (now : Nat) (job : PublicationJob DnsPublication) :
    (cancelOverdue now job).context = job.context ∧
      (cancelOverdue now job).deadlineMs = job.deadlineMs := by
  unfold cancelOverdue
  split_ifs <;> exact ⟨rfl, rfl⟩

lemma cancelOverdue_canceled (h : (cancelOverdue now job).canceled = true) :
    job.canceled = true ∨ job.deadlineMs ≤ now := by
  by_cases hlate : job.deadlineMs ≤ now
  · exact .inr hlate
  · rw [cancelOverdue, if_neg hlate] at h
    exact .inl h

lemma PlaceHolds.cancelOverdue (h : PlaceHolds config clock files table job place) (now : Nat) :
    PlaceHolds config clock files table (PublicationLane.cancelOverdue now job) place := by
  obtain ⟨hcontext, hdeadline⟩ := cancelOverdue_context now job
  have ended : ∀ {ok}, RunEnded config clock files table job ok →
      RunEnded config clock files table (PublicationLane.cancelOverdue now job) ok := by
    intro ok hended
    refine ⟨fun happlied => ?_, fun happlied => hended.other (hcontext ▸ happlied)⟩
    rw [hcontext, hdeadline]
    exact hended.installed (hcontext ▸ happlied)
  cases place with
  | handed | running place => simpa only [PlaceHolds, hcontext] using h
  | returned ok => exact ended h
  | reporting ok => exact ended h
  | done ok => exact ended h

variable (h : DnsInvariant config clock files table lane)
include h

/-- Finishing a completed job leaves memory and sidecar with one table. -/
lemma DnsInvariant.finishCompleted {now : Nat} (hnow : now ≤ clock) :
    DnsInvariant config clock files
      (lane.finishCompleted dnsPublicationOperations now table).1
      (lane.finishCompleted dnsPublicationOperations now table).2.1 := by
  have staying : ∀ {job place}, lane.active = some (job, place) →
      DnsInvariant config clock files table
        { lane with active := some (PublicationLane.cancelOverdue now job, place) } := by
    intro job place hactive
    refine ⟨h.queued, ?_, nofun, ?_⟩
    · rintro _ _ ⟨⟩ hcanceled
      rw [(cancelOverdue_context now job).2]
      rcases cancelOverdue_canceled hcanceled with hflag | hlate
      · exact h.canceled job place hactive hflag
      · omega
    · rintro _ _ ⟨⟩
      exact (h.active job place hactive).cancelOverdue now
  unfold PublicationLane.finishCompleted PublicationLane.completed PublicationLane.stillActive
  cases hactive : lane.active with
  | none => exact ⟨h.queued, nofun, fun _ => h.idle hactive, nofun⟩
  | some active =>
    obtain ⟨job, place⟩ := active
    cases place with
    | handed => exact staying hactive
    | running place => exact staying hactive
    | returned ok => exact staying hactive
    | reporting ok => exact staying hactive
    | done ok =>
      have hended : RunEnded config clock files table job ok := h.active job _ hactive
      refine ⟨h.queued, nofun, fun _ => ?_, nofun⟩
      simp only [dnsPublicationOperations, dnsPublicationFinish, (cancelOverdue_context now job).1]
      by_cases happlied : job.context.applied = .installed
      · -- the deadline of an installed table has not passed, so its job is not canceled
        obtain ⟨hdurable, hok, hlate⟩ := hended.installed happlied
        have hnot := h.not_canceled hactive hnow hlate
        simp only [isCanceled, Bool.or_eq_false_iff, decide_eq_false_iff_not] at hnot
        have hflag : (PublicationLane.cancelOverdue now job).canceled = false := by
          rw [PublicationLane.cancelOverdue, if_neg hnot.2]
          exact hnot.1
        rw [hflag, hok, if_pos ⟨rfl, happlied⟩]
        exact hdurable
      · rw [if_neg fun hboth => happlied hboth.2]
        exact hended.other happlied

lemma DnsInvariant.expireQueue (now : Nat) : DnsInvariant config clock files table (lane.expireQueue now) :=
  ⟨fun job hjob => h.queued job ((dropWhile_suffix _).subset hjob), h.canceled, h.idle, h.active⟩

lemma DnsInvariant.handOver : DnsInvariant config clock files table (lane.handOver (dnsPublicationPrepare table)) := by
  unfold PublicationLane.handOver
  split
  next job queue hidle hqueue =>
    have hjob : job ∈ lane.queue := by rw [hqueue]; exact mem_cons_self
    refine ⟨fun other hother => ?_, ?_, nofun, ?_⟩
    · exact h.queued other (by rw [hqueue]; exact mem_cons_of_mem _ hother)
    · rintro _ _ ⟨⟩ hcanceled
      exact absurd ((h.queued job hjob).2.symm.trans hcanceled) nofun
    · rintro _ _ ⟨⟩
      exact ⟨(h.queued job hjob).1, h.idle hidle⟩
  next => exact h

omit h

end Steps

def DnsDaemon.Invariant (daemon : DnsDaemon) : Prop :=
  DnsInvariant config daemon.clock daemon.files daemon.table daemon.lane

lemma start_invariant (clock : Nat) (files : DnsFiles) : (DnsDaemon.start config clock files).Invariant config :=
  ⟨fun _ h => absurd h not_mem_nil, nofun, fun _ => rfl, nofun⟩

lemma dnsPoll_invariant {config : DnsConfig} (h : daemon.Invariant config) (lag : Nat) :
    (dnsPoll daemon lag).Invariant config :=
  ((h.finishCompleted (Nat.sub_le daemon.clock lag)).expireQueue _).handOver

lemma dnsSync_invariant {config : DnsConfig} (h : daemon.Invariant config) (payload : Text) :
    (dnsSync config daemon payload).Invariant config := by
  unfold dnsSync
  split
  · exact h
  next publication hpublication =>
    split
    · exact h
    next lane hsubmit =>
      refine h.submit ?_ hsubmit
      unfold syncPublication at hpublication
      dsimp only at hpublication
      split at hpublication
      · cases hpublication
        rfl
      · cases hpublication

lemma InTime.elapse {ms : Nat} (h : InTime daemon (.elapse ms)) {place : WorkerPlace DnsRunPlace}
    (hactive : daemon.lane.active = some (job, place)) (happlied : job.context.applied = .installed) :
    daemon.clock + ms < job.deadlineMs := by
  refine h job.deadlineMs ?_
  simp [commitPending, hactive, happlied]

lemma InTime.work {io : Bool} (h : InTime daemon (.work io)) (hio : io = true)
    (hactive : daemon.lane.active = some (job, .running .committing)) : daemon.clock < job.deadlineMs := by
  subst hio
  refine h job.deadlineMs ?_
  simp [renamePending, hactive]

lemma dnsStep_invariant {config : DnsConfig} (daemon : DnsDaemon) (event : DnsEvent)
    (h : daemon.Invariant config) (htime : InTime daemon event) : (dnsStep config daemon event).Invariant config := by
  cases event with
  | elapse ms => exact DnsInvariant.elapse h fun job place hactive happlied => htime.elapse hactive happlied
  | shareDocument path memory => exact DnsInvariant.shareDocument h _
  | syncBrowserDns payload => exact dnsSync_invariant h payload
  | poll lag => exact dnsPoll_invariant h lag
  | work io => exact DnsInvariant.work h fun job hactive hio => htime.work hio hactive

/-- The worker is done with the active job, so the next poll finishes it. -/
def DnsDaemon.jobDone (daemon : DnsDaemon) : Bool :=
  match daemon.lane.active with
  | some (_, .done _) => true
  | _ => false

/-- A poll never leaves a job behind whose run has installed its table. -/
lemma durable_of_poll {config : DnsConfig} {lag : Nat} (h : (dnsPoll daemon lag).Invariant config)
    (hdone : daemon.jobDone) : (dnsPoll daemon lag).files.durable config = (dnsPoll daemon lag).table := by
  obtain ⟨job, ok, hactive⟩ : ∃ job ok, daemon.lane.active = some (job, .done ok) := by
    unfold DnsDaemon.jobDone at hdone
    split at hdone
    next job ok hactive => exact ⟨job, ok, hactive⟩
    next => cases hdone
  -- what the poll leaves active, if anything, is the next job in the queue
  have hhanded : ∀ job place, (dnsPoll daemon lag).lane.active = some (job, place) → place = .handed := by
    intro job place hnext
    simp only [dnsPoll, poll, finishCompleted, completed,
      stillActive, hactive, expireQueue, handOver] at hnext
    split at hnext
    · cases hnext
      rfl
    · cases hnext
  cases hnext : (dnsPoll daemon lag).lane.active with
  | none => exact h.idle hnext
  | some active =>
    obtain ⟨job, place⟩ := active
    have hplace := h.active job place hnext
    rw [hhanded job place hnext] at hplace
    exact hplace.2

/-- In a run in which no deadline passes between a rename and the poll that finishes its job, memory
and sidecar hold the same table each time a job has finished. -/
theorem table_durable_after_finish (config : DnsConfig) (clock : Nat) (files : DnsFiles)
    (before after : List DnsEvent) (lag : Nat)
    (htime : StepsMeet (dnsStep config) InTime (DnsDaemon.start config clock files)
      (before ++ .poll lag :: after))
    (hdone : (run (dnsStep config) (DnsDaemon.start config clock files) before).jobDone) :
    (run (dnsStep config) (DnsDaemon.start config clock files) (before ++ [.poll lag])).table =
      (run (dnsStep config) (DnsDaemon.start config clock files) (before ++ [.poll lag])).files.durable
        config := by
  obtain ⟨hbefore, hpoll, -⟩ := stepsMeet_append.mp htime
  have hreached := run_invariant dnsStep_invariant (start_invariant config clock files) hbefore
  rw [run_append]
  exact (durable_of_poll (dnsStep_invariant _ (.poll lag) hreached hpoll) hdone).symm

/-! ## A deadline after the rename -/

def exampleConfig : DnsConfig := ⟨ascii "/s.tsv", 8192⟩

def exampleFiles : DnsFiles := ⟨none, fun _ => none⟩

/-- A table of one record is submitted, handed to the worker and renamed into place. -/
def committedEvents : List DnsEvent :=
  [.syncBrowserDns (ascii "\x7b\"records\":\"a=10.0.0.1\"\x7d"), .poll 0] ++ List.replicate 8 (.work true)

/-- The committed job is finished in time. -/
theorem table_durable_after_finish_in_time :
    StepsMeet (dnsStep exampleConfig) InTime (DnsDaemon.start exampleConfig 0 exampleFiles)
        ((committedEvents ++ [.work true, .work true]) ++ .poll 0 :: []) ∧
      (run (dnsStep exampleConfig) (DnsDaemon.start exampleConfig 0 exampleFiles)
        (committedEvents ++ [.work true, .work true] ++ [.poll 0])).table =
      (run (dnsStep exampleConfig) (DnsDaemon.start exampleConfig 0 exampleFiles)
        (committedEvents ++ [.work true, .work true] ++ [.poll 0])).files.durable exampleConfig := by
  have htime : StepsMeet (dnsStep exampleConfig) InTime (DnsDaemon.start exampleConfig 0 exampleFiles)
      ((committedEvents ++ [.work true, .work true]) ++ .poll 0 :: []) := by decide +kernel
  have hdone : (run (dnsStep exampleConfig) (DnsDaemon.start exampleConfig 0 exampleFiles)
      (committedEvents ++ [.work true, .work true])).jobDone := by decide +kernel
  exact ⟨htime, table_durable_after_finish exampleConfig 0 exampleFiles _ [] 0 htime hdone⟩

/-- Eight seconds pass between the rename and the worker's last look at the clock: the job fails, the
table in memory stays empty, and a daemon that starts on the sidecar serves the record. -/
theorem late_commit_not_installed :
    let before := committedEvents ++ [.elapse 8000, .work true, .work true]
    let daemon := run (dnsStep exampleConfig) (DnsDaemon.start exampleConfig 0 exampleFiles)
      (before ++ [.poll 0])
    (run (dnsStep exampleConfig) (DnsDaemon.start exampleConfig 0 exampleFiles) before).jobDone ∧
      daemon.receipts = [.failed] ∧ daemon.table.records.length = 0 ∧
      (daemon.files.durable exampleConfig).records.length = 1 := by
  decide +kernel

end PortManager.Native
