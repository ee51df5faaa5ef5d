import PortManager.Node.RouteRefresh

/-!
# Cleanup of the Node daemon

What a pass of the Node daemon removes, and what it forgets. After its writes, `writeRouteEntryFiles` and
`writeComposeClaimFiles` remove every tracked path that was not written, and then track the written paths
only.

A path whose write failed is removed with the stale ones, although its endpoint has a route. And a path
whose removal failed is not tracked any more, so no later pass removes it.
-/

namespace PortManager.Node
open Run List Function RoutePass

section Phase

variable {pass : RoutePass} {kind : RouteFileKind} {path other : List Nat} {st st' : FileState}
  {routes : List LogicalPortRoute} {groups : List (List Nat × List LogicalPortRoute)} {result : Bool × FileState}

/-! ## The write loop -/

lemma FileWritten.elsewhere (h : FileWritten pass st kind path routes result) (hother : other ≠ path) :
    result.2.disk other = st.disk other ∧ result.2.signatures other = st.signatures other ∧
      result.2.authored other = st.authored other := by
  cases h with
  | failed | skipped => exact ⟨rfl, rfl, rfl⟩
  | replaced => exact ⟨update_of_ne hother .., update_of_ne hother .., update_of_ne hother ..⟩

lemma FileWritten.failed_or (h : FileWritten pass st kind path routes result) : result.1 = true ∨ result = (false, st) := by
  cases h with
  | failed => exact .inr rfl
  | skipped | replaced => exact .inl rfl

lemma FileWritten.replaced_or (h : FileWritten pass st kind path routes result) (other : List Nat) :
    (other = path ∧ result.1 = true ∧ result.2.authored other = some kind) ∨
      (result.2.disk other = st.disk other ∧ result.2.authored other = st.authored other) := by
  by_cases hother : other = path
  · cases h with
    | failed | skipped => exact .inr ⟨rfl, rfl⟩
    | replaced =>
      refine .inl ⟨hother, rfl, ?_⟩
      simp only [hother, update_self]
  · exact .inr ⟨(h.elsewhere hother).1, (h.elsewhere hother).2.2⟩

lemma writeRouteTableFile_local {st : FileState} (hdisk : st.disk path = st'.disk path)
    (hsignatures : st.signatures path = st'.signatures path) (routes : List LogicalPortRoute) :
    (pass.writeRouteTableFile st kind path routes).1 = (pass.writeRouteTableFile st' kind path routes).1 ∧
      (pass.writeRouteTableFile st kind path routes).2.disk path =
        (pass.writeRouteTableFile st' kind path routes).2.disk path := by
  have hreplace : (pass.replaceFile st kind path routes).1 = (pass.replaceFile st' kind path routes).1 ∧
      (pass.replaceFile st kind path routes).2.disk path = (pass.replaceFile st' kind path routes).2.disk path := by
    simp only [replaceFile, hdisk]
    split
    · exact ⟨rfl, hdisk⟩
    · exact ⟨rfl, by simp only [update_self]⟩
  simp only [writeRouteTableFile, hdisk, hsignatures]
  split
  · exact hreplace
  next =>
    split
    · split
      · exact ⟨rfl, hdisk⟩
      split
      · exact ⟨rfl, hdisk⟩
      split
      · exact ⟨rfl, hdisk⟩
      · exact hreplace
    · exact hreplace

variable (pass kind groups st)

lemma writeGroups_cons (path : List Nat) (routes : List LogicalPortRoute) :
    pass.writeGroups kind ((path, routes) :: groups) st =
      let written := pass.writeRouteTableFile st kind path routes
      let rest := pass.writeGroups kind groups written.2
      (written.1 && rest.1, if written.1 then path :: rest.2.1 else rest.2.1, rest.2.2) := rfl

lemma writeGroups_replaced_or (st : FileState) (path : List Nat) :
    (path ∈ (pass.writeGroups kind groups st).2.1 ∧ (pass.writeGroups kind groups st).2.2.authored path = some kind) ∨
      ((pass.writeGroups kind groups st).2.2.disk path = st.disk path ∧
        (pass.writeGroups kind groups st).2.2.authored path = st.authored path) := by
  induction groups generalizing st with
  | nil => exact .inr ⟨rfl, rfl⟩
  | cons group groups ih =>
    obtain ⟨first, routes⟩ := group
    have hwrite := writeRouteTableFile_written pass st kind first routes
    rw [writeGroups_cons]
    generalize pass.writeRouteTableFile st kind first routes = written at hwrite
    rcases ih written.2 with ⟨hmem, hkind⟩ | ⟨hdisk, hauthored⟩
    · refine .inl ⟨?_, hkind⟩
      show path ∈ if written.1 = true then _ else _
      split
      · exact mem_cons_of_mem _ hmem
      · exact hmem
    · rcases hwrite.replaced_or path with ⟨rfl, hok, hkind⟩ | ⟨hsame, hsame'⟩
      · refine .inl ⟨?_, hauthored.trans hkind⟩
        simp only [if_pos hok]
        exact mem_cons_self
      · exact .inr ⟨hdisk.trans hsame, hauthored.trans hsame'⟩

variable {groups st}

lemma writeGroups_of_ok (hok : (pass.writeGroups kind groups st).1 = true) :
    (pass.writeGroups kind groups st).2.1 = groups.map Prod.fst := by
  induction groups generalizing st with
  | nil => rfl
  | cons group groups ih =>
    obtain ⟨first, routes⟩ := group
    rw [writeGroups_cons] at hok ⊢
    obtain ⟨hfirst, hrest⟩ := Bool.and_eq_true_iff.mp hok
    simp only [if_pos hfirst, ih hrest, map_cons]

lemma writeGroups_of_not_mem (hpath : path ∉ groups.map Prod.fst) (st : FileState) :
    path ∉ (pass.writeGroups kind groups st).2.1 ∧
      (pass.writeGroups kind groups st).2.2.disk path = st.disk path := by
  induction groups generalizing st with
  | nil => exact ⟨not_mem_nil, rfl⟩
  | cons group groups ih =>
    obtain ⟨first, routes⟩ := group
    rw [map_cons, mem_cons, not_or] at hpath
    obtain ⟨hcurrent, hdisk⟩ := ih hpath.2 (pass.writeRouteTableFile st kind first routes).2
    rw [writeGroups_cons]
    refine ⟨?_, hdisk.trans ((writeRouteTableFile_written ..).elsewhere hpath.1).1⟩
    simp only
    split
    · exact fun hmem => (mem_cons.mp hmem).elim hpath.1 hcurrent
    · exact hcurrent

lemma writeGroups_of_mem (hnodup : (groups.map Prod.fst).Nodup) (hmem : (path, routes) ∈ groups) (st : FileState) :
    (path ∈ (pass.writeGroups kind groups st).2.1 ↔ (pass.writeRouteTableFile st kind path routes).1 = true) ∧
      (pass.writeGroups kind groups st).2.2.disk path =
        (pass.writeRouteTableFile st kind path routes).2.disk path := by
  induction groups generalizing st with
  | nil => cases hmem
  | cons group groups ih =>
    obtain ⟨first, firstRoutes⟩ := group
    obtain ⟨hfresh, hrest⟩ := nodup_cons.mp hnodup
    rw [writeGroups_cons]
    rcases mem_cons.mp hmem with heq | hmem
    · cases heq
      obtain ⟨hcurrent, hdisk⟩ := writeGroups_of_not_mem pass kind hfresh
        (pass.writeRouteTableFile st kind path routes).2
      refine ⟨?_, hdisk⟩
      simp only
      split
      next hok => exact iff_of_true mem_cons_self hok
      next hfails => exact iff_of_false hcurrent hfails
    · have hne : path ≠ first := fun h => hfresh (mem_map.mpr ⟨_, hmem, h⟩)
      obtain ⟨hsame, hsame', -⟩ := (writeRouteTableFile_written pass st kind first firstRoutes).elsewhere hne
      obtain ⟨hlocal, hlocal'⟩ := writeRouteTableFile_local hsame hsame' routes
      obtain ⟨hcurrent, hdisk⟩ := ih hrest hmem (pass.writeRouteTableFile st kind first firstRoutes).2
      refine ⟨?_, hdisk.trans hlocal'⟩
      rw [hlocal] at hcurrent
      simp only
      split
      · exact (mem_cons.trans (or_iff_right hne)).trans hcurrent
      · exact hcurrent

/-! ## The cleanup loop -/

variable {pass kind}

lemma FileRemoved.elsewhere (h : FileRemoved pass st kind path result) (hother : other ≠ path) :
    result.2.disk other = st.disk other := by
  cases h with
  | failed => rfl
  | removed => exact update_of_ne hother ..

lemma FileRemoved.self (h : FileRemoved pass st kind path result) :
    result.2.disk path = if result.1 = true then none else st.disk path := by
  cases h with
  | failed => rfl
  | removed => simp only [update_self, if_true]

lemma FileRemoved.authored (h : FileRemoved pass st kind path result) : result.2.authored = st.authored := by
  cases h with
  | failed | removed => rfl

lemma removeFile_local (hdisk : st.disk path = st'.disk path) :
    (pass.removeFile st kind path).1 = (pass.removeFile st' kind path).1 := by
  simp only [removeFile, hdisk]
  split
  · rfl
  · rfl

lemma FileRemoved.again (h : FileRemoved pass st kind path result) : (pass.removeFile result.2 kind path).1 = result.1 := by
  cases h with
  | failed hfails => simp only [removeFile, if_pos hfails]
  | removed hnewer hok => simp [removeFile, hok, isRouteTablePathNewerThanGeneration]

variable (pass kind) (current tracked : List (List Nat))

lemma removeStale_cons (path : List Nat) (st : FileState) :
    pass.removeStale kind current (path :: tracked) st =
      if path ∈ current then pass.removeStale kind current tracked st
      else
        let removed := pass.removeFile st kind path
        let rest := pass.removeStale kind current tracked removed.2
        (removed.1 && rest.1, rest.2) := rfl

lemma removeStale_authored (st : FileState) : (pass.removeStale kind current tracked st).2.authored = st.authored := by
  induction tracked generalizing st with
  | nil => rfl
  | cons path tracked ih =>
    rw [removeStale_cons]
    split
    · exact ih st
    · exact (ih _).trans (removeFile_removed pass st kind path).authored

lemma removeStale_disk (st : FileState) (path : List Nat) :
    (pass.removeStale kind current tracked st).2.disk path =
      if path ∈ tracked ∧ path ∉ current ∧ (pass.removeFile st kind path).1 = true then none
      else st.disk path := by
  induction tracked generalizing st with
  | nil => simp [removeStale]
  | cons first tracked ih =>
    rw [removeStale_cons]
    by_cases hfirst : first ∈ current
    · rw [if_pos hfirst, ih]
      by_cases hpath : path = first
      · subst hpath
        simp [hfirst]
      · simp [hpath]
    rw [if_neg hfirst, ih]
    by_cases hpath : path = first
    · subst hpath
      rw [(removeFile_removed ..).again, (removeFile_removed ..).self]
      cases (pass.removeFile st kind path).1 <;> simp [hfirst]
    · have hsame := (removeFile_removed pass st kind first).elsewhere hpath
      rw [hsame, removeFile_local hsame]
      simp [hpath]

lemma removeStale_of_ok {current tracked : List (List Nat)}
    (hok : (pass.removeStale kind current tracked st).1 = true) (hpath : path ∈ tracked)
    (hstale : path ∉ current) : (pass.removeFile st kind path).1 = true := by
  induction tracked generalizing st with
  | nil => cases hpath
  | cons first tracked ih =>
    rw [removeStale_cons] at hok
    by_cases hsame : path = first
    · subst hsame
      rw [if_neg hstale] at hok
      exact (Bool.and_eq_true_iff.mp hok).1
    · have hrest := (mem_cons.mp hpath).resolve_left hsame
      split at hok
      · exact ih hok hrest
      · have hlater := ih (Bool.and_eq_true_iff.mp hok).2 hrest
        rwa [removeFile_local ((removeFile_removed ..).elsewhere hsame)] at hlater

end Phase

/-! ## Wanted files -/

variable (daemon : RouteFileDaemon)

def RouteFileDaemon.KeepsWanted (pass : RoutePass) (routes : List LogicalPortRoute) : Prop :=
  ∀ group ∈ entryGroups daemon.base routes, daemon.files.disk group.1 ≠ none →
    (daemon.writeRouteEntryFiles pass routes).2.files.disk group.1 ≠ none

/-- A pass leaves the existing entries of its endpoints exactly when the removal of each tracked one whose
write fails is refused or fails too. -/
theorem keepsWanted_iff (daemon : RouteFileDaemon) (pass : RoutePass) (routes : List LogicalPortRoute) :
    daemon.KeepsWanted pass routes ↔
      ∀ group ∈ entryGroups daemon.base routes, daemon.files.disk group.1 ≠ none →
        group.1 ∈ daemon.writtenEntryPaths →
        (pass.writeRouteTableFile daemon.files .entry group.1 group.2).1 = false →
        (pass.removeFile daemon.files .entry group.1).1 = false := by
  refine forall₂_congr fun group hgroup => imp_congr_right fun hexists => ?_
  obtain ⟨path, groupRoutes⟩ := group
  have hnodup := (InsertionMap.group (routes.map fun route =>
    (getRouteTablePathForLogicalPort route.logicalPort (normalizeNetworkId route.networkId) daemon.base,
      route))).nodup
  obtain ⟨hcurrent, hdisk⟩ := writeGroups_of_mem pass .entry hnodup hgroup daemon.files
  have hafter : (daemon.writeRouteEntryFiles pass routes).2.files.disk path = _ :=
    removeStale_disk pass .entry (pass.writeGroups .entry (entryGroups daemon.base routes) daemon.files).2.1
      daemon.writtenEntryPaths (pass.writeGroups .entry (entryGroups daemon.base routes) daemon.files).2.2 path
  rw [hafter]
  rcases (writeRouteTableFile_written pass daemon.files .entry path groupRoutes).failed_or with hok | hsame
  · -- a written path is not removed
    have hwritten : (pass.writeRouteTableFile daemon.files .entry path groupRoutes).2.disk path ≠ none := by
      have hwrite := writeRouteTableFile_written pass daemon.files .entry path groupRoutes
      generalize pass.writeRouteTableFile daemon.files .entry path groupRoutes = result at hwrite
      cases hwrite with
      | failed => exact hexists
      | skipped => exact hexists
      | replaced =>
        simp only [update_self]
        nofun
    rw [if_neg fun h => h.2.1 (hcurrent.mpr hok)]
    refine iff_of_true (fun hnone => hwritten ((hdisk.symm.trans hnone))) fun _ hfails => ?_
    exact absurd (hok.symm.trans hfails) nofun
  · have hfails := congrArg Prod.fst hsame
    have hstale : path ∉ (pass.writeGroups .entry (entryGroups daemon.base routes) daemon.files).2.1 :=
      fun h => absurd ((hcurrent.mp h).symm.trans hfails) nofun
    have hleft : (pass.writeGroups .entry (entryGroups daemon.base routes) daemon.files).2.2.disk path =
        daemon.files.disk path := by
      rw [hsame] at hdisk
      exact hdisk
    rw [removeFile_local hleft, hleft]
    constructor
    · intro hkept htracked _
      by_contra hremoved
      rw [Bool.not_eq_false] at hremoved
      exact hkept (if_pos ⟨htracked, hstale, hremoved⟩)
    · intro hrefused hnone
      split at hnone
      next h => exact absurd ((hrefused h.1 hfails).symm.trans h.2.2) nofun
      next => exact hexists hnone

def publishedDaemon : RouteFileDaemon :=
  (sampleDaemon.writeRouteTable (samplePublication [namedRoute "a"] true true)).2

def movedRoute : LogicalPortRoute := { namedRoute "a" with actualPort := 4001 }

/-- A write error on a changed route deletes the entry that readers still use. -/
theorem failed_write_removes_entry :
    (sampleEntryPath, [movedRoute]) ∈ entryGroups publishedDaemon.base [movedRoute] ∧
      publishedDaemon.files.disk sampleEntryPath ≠ none ∧
      (publishedDaemon.writeRouteEntryFiles (publishedDaemon.pass (samplePublication [movedRoute] false true))
        [movedRoute]).2.files.disk sampleEntryPath = none := by
  decide +kernel

/-! ## Files that the daemon wrote -/

def RouteFileDaemon.Own (file : RouteTableFile) : Prop :=
  file.generation.map (·.writerId) = some daemon.writerId

def FileState.Within (st : FileState) (own : RouteTableFile → Prop) (kind : RouteFileKind)
    (paths : List (List Nat)) : Prop :=
  ∀ path file, st.disk path = some file → own file → st.authored path = some kind → path ∈ paths

section Within

variable {pass : RoutePass} {own : RouteTableFile → Prop} {kind other : RouteFileKind} {st : FileState}
  {groups : List (List Nat × List LogicalPortRoute)} {tracked paths : List (List Nat)}

/-- The cleanup of a pass removes every file of the daemon that it did not write again. -/
def RoutePass.Cleans (pass : RoutePass) (own : RouteTableFile → Prop) (kind : RouteFileKind)
    (groups : List (List Nat × List LogicalPortRoute)) (tracked : List (List Nat)) (st : FileState) : Prop :=
  ∀ path ∈ tracked, path ∉ (pass.writeGroups kind groups st).2.1 →
    ∀ file, (pass.writeGroups kind groups st).2.2.disk path = some file → own file →
      (pass.removeFile (pass.writeGroups kind groups st).2.2 kind path).1 = true

lemma RoutePass.Cleans.within (hcleans : pass.Cleans own kind groups tracked st) (h : st.Within own kind tracked) :
    (pass.writeTrackedFiles kind groups tracked st).2.2.Within own kind
      (pass.writeTrackedFiles kind groups tracked st).2.1 := by
  intro path file hfile hown hkind
  have hdisk := removeStale_disk pass kind (pass.writeGroups kind groups st).2.1 tracked
    (pass.writeGroups kind groups st).2.2 path
  have hauthored := congrFun (removeStale_authored pass kind (pass.writeGroups kind groups st).2.1 tracked
    (pass.writeGroups kind groups st).2.2) path
  have hfile' := hdisk.symm.trans hfile
  split at hfile'
  · cases hfile'
  next hkept =>
    by_contra hstale
    -- then the file is an old one that the cleanup has not removed
    rcases writeGroups_replaced_or pass kind groups st path with ⟨hmem, -⟩ | ⟨hsame, hsame'⟩
    · exact hstale hmem
    · have htracked := h path file (hsame.symm.trans hfile') hown (hsame'.symm.trans (hauthored.symm.trans hkind))
      exact hkept ⟨htracked, hstale, hcleans path htracked hstale file hfile' hown⟩

lemma writeTrackedFiles_within_other (hne : other ≠ kind) (h : st.Within own other paths) :
    (pass.writeTrackedFiles kind groups tracked st).2.2.Within own other paths := by
  intro path file hfile hown hkind
  have hdisk := removeStale_disk pass kind (pass.writeGroups kind groups st).2.1 tracked
    (pass.writeGroups kind groups st).2.2 path
  have hauthored := congrFun (removeStale_authored pass kind (pass.writeGroups kind groups st).2.1 tracked
    (pass.writeGroups kind groups st).2.2) path
  have hfile' := hdisk.symm.trans hfile
  have hkind' := hauthored.symm.trans hkind
  split at hfile'
  · cases hfile'
  rcases writeGroups_replaced_or pass kind groups st path with ⟨-, hother⟩ | ⟨hsame, hsame'⟩
  · exact absurd (Option.mem_unique hkind' hother) hne
  · exact h path file (hsame.symm.trans hfile') hown (hsame'.symm.trans hkind')

lemma cleans_of_ok (hok : (pass.writeTrackedFiles kind groups tracked st).1 = true) :
    pass.Cleans own kind groups tracked st := by
  intro path htracked hstale _ _ _
  exact removeStale_of_ok pass kind (Bool.and_eq_true_iff.mp hok).2 htracked hstale

lemma writeRouteTableFile_within (hne : other ≠ kind) (path : List Nat) (routes : List LogicalPortRoute)
    (h : st.Within own other paths) : (pass.writeRouteTableFile st kind path routes).2.Within own other paths := by
  intro found file hfile hown hkind
  rcases (writeRouteTableFile_written pass st kind path routes).replaced_or found with ⟨-, -, hother⟩ | ⟨hsame, hsame'⟩
  · exact absurd (Option.mem_unique hkind hother) hne
  · exact h found file (hsame.symm.trans hfile) hown (hsame'.symm.trans hkind)

end Within

/-! ## Runs of publications -/

/-- What can happen to the route files: a publication, or a change that is not by this daemon. -/
inductive RouteFileEvent where
  | publish (publication : RoutePublication)
  | foreign (path : List Nat) (file : Option RouteTableFile)

/-- The step of an event; a file under the daemon's own writer id is not foreign. -/
def RouteFileDaemon.step : RouteFileEvent → RouteFileDaemon
  | .publish publication => (daemon.writeRouteTable publication).2
  | .foreign path file =>
    if file.any fun file => file.generation.map (·.writerId) = some daemon.writerId then daemon
    else { daemon with files := { daemon.files with disk := Function.update daemon.files.disk path file } }

def RouteFileDaemon.CleansUp : RouteFileEvent → Prop
  | .foreign _ _ => True
  | .publish publication =>
    daemon.canPublish publication = true →
      (daemon.pass publication).Cleans daemon.Own .entry (entryGroups daemon.base publication.routes)
          daemon.writtenEntryPaths daemon.files ∧
        (daemon.pass publication).Cleans daemon.Own .claim (claimGroups daemon.base publication.routes)
          daemon.writtenClaimPaths
          (daemon.writeRouteEntryFiles (daemon.pass publication) publication.routes).2.files

/-- The tracked paths are those of the daemon's entries and claims. -/
structure RouteFileDaemon.Tracks (daemon : RouteFileDaemon) : Prop where
  entries : daemon.files.Within daemon.Own .entry daemon.writtenEntryPaths
  claims : daemon.files.Within daemon.Own .claim daemon.writtenClaimPaths

open RouteFileDaemon

lemma RouteFileDaemon.Tracks.writeNetworks {daemon : RouteFileDaemon} (h : daemon.Tracks) (pass : RoutePass)
    (groups : InsertionMap (List Nat) (List LogicalPortRoute)) (ids : List (List Nat)) :
    (writeNetworks pass groups ids daemon).2.Tracks ∧
      (writeNetworks pass groups ids daemon).2.writtenEntryPaths = daemon.writtenEntryPaths ∧
      (writeNetworks pass groups ids daemon).2.writtenClaimPaths = daemon.writtenClaimPaths := by
  induction ids generalizing daemon with
  | nil => exact ⟨h, rfl, rfl⟩
  | cons id ids ih =>
    refine ih ⟨?_, ?_⟩
    · exact writeRouteTableFile_within (by decide) _ _ h.entries
    · exact writeRouteTableFile_within (by decide) _ _ h.claims

variable (publication : RoutePublication)

def RouteFileDaemon.entriesWritten : Bool × RouteFileDaemon :=
  ({ daemon with sequence := daemon.sequence + 1 } : RouteFileDaemon).writeRouteEntryFiles
    (daemon.pass publication) publication.routes

def RouteFileDaemon.claimsWritten : Bool × RouteFileDaemon :=
  (daemon.entriesWritten publication).2.writeComposeClaimFiles (daemon.pass publication) publication.routes

variable {daemon} {publication : RoutePublication}

lemma RouteFileDaemon.writeRouteTable_of_canPublish (hcan : daemon.canPublish publication = true) :
    (∃ ids, (daemon.writeRouteTable publication).2 =
        (writeNetworks (daemon.pass publication) (networkGroups publication.routes) ids
          (daemon.claimsWritten publication).2).2) ∧
      ((daemon.writeRouteTable publication).1 = true →
        (daemon.entriesWritten publication).1 = true ∧ (daemon.claimsWritten publication).1 = true) := by
  have hgo : ¬ daemon.canPublish publication = false := by
    rw [hcan]
    nofun
  rw [writeRouteTable, if_neg hgo]
  refine ⟨⟨(daemon.claimsWritten publication).2.writtenNetworkIds ++ (networkGroups publication.routes).keys.filter
    (· ∉ (daemon.claimsWritten publication).2.writtenNetworkIds), rfl⟩, fun hok => ?_⟩
  obtain ⟨hphases, -⟩ := Bool.and_eq_true_iff.mp hok
  exact Bool.and_eq_true_iff.mp hphases

lemma RouteFileDaemon.Tracks.claimsWritten (h : daemon.Tracks)
    (hentries : (daemon.pass publication).Cleans daemon.Own .entry (entryGroups daemon.base publication.routes)
      daemon.writtenEntryPaths daemon.files)
    (hclaims : (daemon.pass publication).Cleans daemon.Own .claim (claimGroups daemon.base publication.routes)
      daemon.writtenClaimPaths
      (daemon.writeRouteEntryFiles (daemon.pass publication) publication.routes).2.files) :
    (daemon.claimsWritten publication).2.Tracks := by
  have hentryFiles := hentries.within h.entries
  have hclaimFiles : (daemon.entriesWritten publication).2.files.Within daemon.Own .claim
      daemon.writtenClaimPaths := writeTrackedFiles_within_other (by decide) h.claims
  exact ⟨writeTrackedFiles_within_other (by decide) hentryFiles, hclaims.within hclaimFiles⟩

lemma RouteFileDaemon.Tracks.step (h : daemon.Tracks) {event : RouteFileEvent}
    (hcleans : daemon.CleansUp event) : (daemon.step event).Tracks := by
  cases event with
  | publish publication =>
    by_cases hcan : daemon.canPublish publication = true
    · obtain ⟨⟨ids, hafter⟩, -⟩ := writeRouteTable_of_canPublish hcan
      obtain ⟨hentries, hclaims⟩ := hcleans hcan
      simp only [RouteFileDaemon.step, hafter]
      exact ((h.claimsWritten hentries hclaims).writeNetworks _ _ ids).1
    · simp only [RouteFileDaemon.step, writeRouteTable, Bool.eq_false_of_not_eq_true hcan, if_true]
      exact ⟨h.entries, h.claims⟩
  | foreign path file =>
    simp only [RouteFileDaemon.step]
    split
    · exact h
    next hforeign =>
      have hother : ∀ kind paths, daemon.files.Within daemon.Own kind paths →
          ({ daemon.files with disk := Function.update daemon.files.disk path file } : FileState).Within
            daemon.Own kind paths := by
        intro kind paths hwithin found other hfound hown hkind
        by_cases hpath : found = path
        · subst hpath
          simp only [update_self] at hfound
          rw [hfound, Option.any_some] at hforeign
          exact absurd (decide_eq_true (show other.generation.map (·.writerId) = _ from hown)) hforeign
        · simp only [update_of_ne hpath] at hfound
          exact hwithin found other hfound hown hkind
      exact ⟨hother _ _ h.entries, hother _ _ h.claims⟩

variable (daemon)

def sampleEntry : RouteTableFile where
  expiresAtMs := some 300000
  ttlStartsAfterFirstHandshake := true
  generation := some ⟨JsonText.codes "w", 1, 1, 1⟩
  routes := [namedRoute "a"]

end PortManager.Node
