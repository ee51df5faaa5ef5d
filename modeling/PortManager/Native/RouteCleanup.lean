import PortManager.Native.RouteHeartbeat

/-!
# Cleanup of the native daemon

Over whole runs of passes, the endpoint entries and compose claims of the native daemon are never lost:
C `pm_write_route_snapshot` unlinks every tracked path that the snapshot does not have, replaces the
tracked sets by the snapshot's paths only when the whole pass has succeeded, and keeps the union of both
when something has failed. The sets a run starts from are those the startup adopted.

A pass can fail or be canceled at any file and can be refused for a newer generation, and other programs
can change any file between two passes.
-/

namespace PortManager.Native
open CText Run List Bool

/-! ## Paths -/

def RouteFiles.Tracks (files : RouteFiles) (path : Text) : Prop :=
  path ∈ files.writtenEntryPaths ∨ path ∈ files.writtenClaimPaths

def SnapshotCall.ListsEntry (call : SnapshotCall) (path : Text) : Prop :=
  ∃ route ∈ call.routes, routeEntryPath call.writer.routeTablePath route.logicalPort route.networkId = path

def SnapshotCall.ListsClaim (call : SnapshotCall) (path : Text) : Prop :=
  ∃ route ∈ call.routes, route.source = .compose ∧
    (routeComposeClaimPath call.writer.routeTablePath route.logicalPort = path ∨
      routeComposeClaimPath call.writer.routeTablePath route.actualPort = path)

def SnapshotCall.Lists (call : SnapshotCall) (path : Text) : Prop :=
  call.ListsEntry path ∨ call.ListsClaim path

instance (call : SnapshotCall) (path : Text) : Decidable (call.ListsEntry path) :=
  inferInstanceAs (Decidable (∃ route ∈ call.routes, _))

instance (call : SnapshotCall) (path : Text) : Decidable (call.ListsClaim path) :=
  inferInstanceAs (Decidable (∃ route ∈ call.routes, _))

instance (call : SnapshotCall) (path : Text) : Decidable (call.Lists path) :=
  inferInstanceAs (Decidable (_ ∨ _))

variable {qsort : Qsort} {call : SnapshotCall} {path base : Text} {route : Route}

lemma mem_entryPaths :
    path ∈ runPaths qsort (entryRuns qsort call.writer.routeTablePath call.routes) ↔ call.ListsEntry path := by
  rw [mem_runPaths]
  constructor
  · rintro ⟨run, hrun, rfl⟩
    obtain ⟨⟨item, hitem, hpath⟩, -⟩ := mem_pathRuns qsort hrun
    obtain ⟨route, hroute, rfl⟩ := mem_map.mp hitem
    exact ⟨route, hroute, hpath⟩
  · rintro ⟨route, hroute, rfl⟩
    obtain ⟨run, hrun, hpath⟩ := exists_mem_pathRuns qsort (mem_map_of_mem hroute)
    exact ⟨run, hrun, hpath⟩

lemma mem_claimItems :
    (path, route) ∈ claimItems base route ↔ route.source = .compose ∧
      (routeComposeClaimPath base route.logicalPort = path ∨ routeComposeClaimPath base route.actualPort = path) := by
  unfold claimItems
  split
  next hcompose =>
    split
    next => simp [hcompose, eq_comm]
    next hsame =>
      rw [not_not.mp hsame]
      simp [hcompose, eq_comm]
  next hother => simp [hother]

lemma claimItems_route {item : Text × Route} (hitem : item ∈ claimItems base route) : item = (item.1, route) := by
  unfold claimItems at hitem
  split at hitem
  · rcases mem_cons.mp hitem with rfl | hitem
    · rfl
    split at hitem
    · rw [mem_singleton.mp hitem]
    · cases hitem
  · cases hitem

lemma mem_claimPaths :
    path ∈ runPaths qsort (claimRuns qsort call.writer.routeTablePath call.routes) ↔ call.ListsClaim path := by
  rw [mem_runPaths]
  constructor
  · rintro ⟨run, hrun, rfl⟩
    obtain ⟨⟨item, hitem, hpath⟩, -⟩ := mem_pathRuns qsort hrun
    obtain ⟨route, hroute, hclaim⟩ := mem_flatMap.mp hitem
    rw [claimItems_route hclaim, hpath] at hclaim
    exact ⟨route, hroute, mem_claimItems.mp hclaim⟩
  · rintro ⟨route, hroute, hclaim⟩
    obtain ⟨run, hrun, hpath⟩ := exists_mem_pathRuns qsort
      (mem_flatMap.mpr ⟨route, hroute, mem_claimItems.mpr hclaim⟩)
    exact ⟨run, hrun, hpath⟩

/-! ## One pass -/

lemma unlink_disk (pass : SnapshotPass) (st : PassState) (target path : Text) :
    ((pass.unlink st target).1 = true → (pass.unlink st target).2.disk target = none) ∧
      (st.disk path = none → (pass.unlink st target).2.disk path = none) := by
  have hunlink := unlink_unlink pass st target
  generalize pass.unlink st target = result at hunlink
  cases hunlink with
  | failed => exact ⟨nofun, id⟩
  | removed =>
    refine ⟨fun _ => Function.update_self .., fun hnone => ?_⟩
    by_cases heq : path = target
    · rw [heq]
      exact Function.update_self ..
    · exact (Function.update_of_ne heq ..).trans hnone

lemma unlinks_disk (pass : SnapshotPass) {st : PassState} {paths : List Text}
    (hok : (runOperations pass.unlink st paths).1 = true) (hpath : path ∈ paths) :
    (runOperations pass.unlink st paths).2.disk path = none := by
  induction paths generalizing st with
  | nil => cases hpath
  | cons target paths ih =>
    rw [runOperations_cons, and_eq_true] at hok
    rw [runOperations_cons]
    rcases mem_cons.mp hpath with rfl | hmem
    · exact runOperations_keeps (P := fun st => st.disk path = none)
        (fun st target _ hnone => (unlink_disk pass st target path).2 hnone) ((unlink_disk pass st path path).1 hok.2)
    · exact ih hok.1 hmem

/-- What a pass can come to: it is refused before it touches a file, it fails on the way, or it succeeds
and has unlinked what the snapshot does not have. -/
inductive PassOutcome (qsort : Qsort) (call : SnapshotCall) (files : RouteFiles) (disk : Disk) :
    Bool × RouteFiles × Disk → Prop where
  | refused (after : RouteFiles) :
      generationIsNewerForPublish qsort (call.pass files) ⟨disk, files.signatures, 0⟩ files call.routes = true →
      (∀ path, after.Tracks path ↔ files.Tracks path) →
      PassOutcome qsort call files disk (false, after, disk)
  | failed (after : RouteFiles) (disk' : Disk) :
      (∀ path, after.Tracks path ↔ files.Tracks path ∨ call.Lists path) →
      PassOutcome qsort call files disk (false, after, disk')
  | succeeded (after : RouteFiles) (disk' : Disk) :
      (∀ path, path ∈ after.writtenEntryPaths ↔ call.ListsEntry path) →
      (∀ path, path ∈ after.writtenClaimPaths ↔ call.ListsClaim path) →
      (∀ path, files.Tracks path → ¬ call.Lists path → disk' path = none) →
      PassOutcome qsort call files disk (true, after, disk')

lemma finished_failed_tracks (qsort : Qsort) (call : SnapshotCall) (files : RouteFiles)
    (signatures : Text → Option (List RouteJson)) (nowMs : Int) (path : Text) :
    (files.finished qsort call.writer.routeTablePath call.routes false signatures nowMs).Tracks path ↔
      files.Tracks path ∨ call.Lists path := by
  simp only [RouteFiles.Tracks, RouteFiles.finished, false_eq_true, if_false, mem_foldl_stringArrayAdd,
    mem_entryPaths, mem_claimPaths, SnapshotCall.Lists]
  exact or_or_or_comm

lemma operations_unlink {files : RouteFiles} {disk : Disk}
    (hok : (call.operations qsort files disk).1 = true) (htracks : files.Tracks path)
    (hgone : ¬ call.Lists path) : (call.operations qsort files disk).2.disk path = none := by
  simp only [SnapshotCall.operations, and_eq_true] at hok ⊢
  refine unlinks_disk _ hok.2 ((mem_snapshotUnlinks ..).mpr ?_)
  rw [mem_entryPaths, mem_claimPaths]
  obtain ⟨hentry, hclaim⟩ := not_or.mp hgone
  exact htracks.imp (⟨·, hentry⟩) (⟨·, hclaim⟩)

lemma writeRouteSnapshot_outcome (qsort : Qsort) (call : SnapshotCall) (files : RouteFiles) (disk : Disk) :
    PassOutcome qsort call files disk (writeRouteSnapshot qsort call files disk) := by
  unfold writeRouteSnapshot
  split
  next hrefused => exact .refused _ hrefused fun path => Iff.rfl
  next =>
    cases hok : (call.operations qsort files disk).1 with
    | false =>
      simp only [hok]
      exact .failed _ _ fun path => finished_failed_tracks qsort call
        { files with sequence := files.sequence + 1 } _ _ path
    | true =>
      simp only [hok]
      exact .succeeded _ _ (fun path => mem_entryPaths) (fun path => mem_claimPaths)
        fun path htracks hgone => operations_unlink hok htracks hgone

/-! ## Runs -/

/-- A daemon's bookkeeping, the directory, and the entry and claim paths the daemon answers for: a path
is held since the start adopted it or since a pass set out to write it, until a pass leaves it without a
file. -/
structure RouteLedger where
  files : RouteFiles
  disk : Disk
  held : Text → Bool

/-- What happens to the directory: a pass of the daemon, or a change by another program. -/
inductive LedgerEvent where
  | pass (call : SnapshotCall)
  | foreign (path : Text) (file : Option RouteFile)

def RouteLedger.refuses (qsort : Qsort) (ledger : RouteLedger) (call : SnapshotCall) : Bool :=
  generationIsNewerForPublish qsort (call.pass ledger.files) ⟨ledger.disk, ledger.files.signatures, 0⟩
    ledger.files call.routes

def RouteLedger.pass (qsort : Qsort) (ledger : RouteLedger) (call : SnapshotCall) : Bool × RouteFiles × Disk :=
  writeRouteSnapshot qsort call ledger.files ledger.disk

def RouteLedger.step (qsort : Qsort) (ledger : RouteLedger) : LedgerEvent → RouteLedger
  | .pass call =>
    let (_, files, disk) := ledger.pass qsort call
    { files, disk
      held := fun path => (disk path).isSome &&
        (ledger.held path || (!ledger.refuses qsort call && decide (call.Lists path))) }
  | .foreign path file => { ledger with disk := Function.update ledger.disk path file }

def RouteLedger.adopted (files : RouteFiles) (disk : Disk) : RouteLedger where
  files := files
  disk := disk
  held := fun path => path ∈ files.writtenEntryPaths || path ∈ files.writtenClaimPaths

def RouteLedger.Tracked (ledger : RouteLedger) : Prop :=
  ∀ path, ledger.held path = true → ledger.files.Tracks path

lemma RouteLedger.adopted_tracked (files : RouteFiles) (disk : Disk) : (adopted files disk).Tracked := by
  intro path hheld
  simpa [adopted, RouteFiles.Tracks] using hheld

lemma RouteLedger.pass_tracked (qsort : Qsort) {ledger : RouteLedger} (htracked : ledger.Tracked)
    (call : SnapshotCall) : (ledger.step qsort (.pass call)).Tracked := by
  intro path hheld
  simp only [step, and_eq_true, or_eq_true, decide_eq_true_eq] at hheld ⊢
  have houtcome := writeRouteSnapshot_outcome qsort call ledger.files ledger.disk
  rw [← RouteLedger.pass] at houtcome
  generalize ledger.pass qsort call = result at hheld houtcome ⊢
  obtain ⟨hfile, hheld⟩ := hheld
  cases houtcome with
  | refused after hrefused htracks =>
    refine (htracks path).mpr ?_
    rcases hheld with hbefore | ⟨hruns, -⟩
    · exact htracked path hbefore
    -- a refused pass has not set out to write anything
    rw [refuses, hrefused] at hruns
    cases hruns
  | failed after disk' htracks => exact (htracks path).mpr (hheld.imp (htracked path) (·.2))
  | succeeded after disk' hentries hclaims hunlinked =>
    by_cases hlists : call.Lists path
    · exact hlists.imp (hentries path).mpr (hclaims path).mpr
    rcases hheld with hbefore | ⟨-, hlisted⟩
    · have hnone : disk' path = none := hunlinked path (htracked path hbefore) hlists
      simp only [hnone, Option.isSome_none, false_eq_true] at hfile
    · exact absurd hlisted hlists

lemma RouteLedger.step_tracked (qsort : Qsort) (ledger : RouteLedger) (event : LedgerEvent)
    (htracked : ledger.Tracked) : (ledger.step qsort event).Tracked := by
  cases event with
  | pass call => exact pass_tracked qsort htracked call
  | foreign path file => exact htracked

/-- After any passes, a pass that succeeds leaves no file at a path the daemon wrote or adopted and the
snapshot does not have, and tracks exactly the snapshot's paths. -/
theorem successful_pass_cleans_up (qsort : Qsort) (files : RouteFiles) (disk : Disk) (events : List LedgerEvent)
    (call : SnapshotCall)
    (hok : ((run (RouteLedger.step qsort) (.adopted files disk) events).pass qsort call).1 = true) :
    let before := run (RouteLedger.step qsort) (.adopted files disk) events
    let after := before.step qsort (.pass call)
    (∀ path, before.held path = true → ¬ call.Lists path → after.disk path = none) ∧
      (∀ path, path ∈ after.files.writtenEntryPaths ↔ call.ListsEntry path) ∧
      ∀ path, path ∈ after.files.writtenClaimPaths ↔ call.ListsClaim path := by
  intro before after
  have htracked : before.Tracked :=
    run_keeps (RouteLedger.step_tracked qsort) (RouteLedger.adopted_tracked files disk) events
  have houtcome := writeRouteSnapshot_outcome qsort call before.files before.disk
  change (before.pass qsort call).1 = true at hok
  change (∀ path, before.held path = true → ¬ call.Lists path → (before.pass qsort call).2.2 path = none) ∧
    (∀ path, path ∈ (before.pass qsort call).2.1.writtenEntryPaths ↔ call.ListsEntry path) ∧
    ∀ path, path ∈ (before.pass qsort call).2.1.writtenClaimPaths ↔ call.ListsClaim path
  rw [← RouteLedger.pass] at houtcome
  generalize before.pass qsort call = result at hok houtcome ⊢
  cases houtcome with
  | refused => cases hok
  | failed => cases hok
  | succeeded after disk' hentries hclaims hunlinked =>
    exact ⟨fun path hheld => hunlinked path (htracked path hheld), hentries, hclaims⟩

def sampleCall (routes : List Route) (succeeding : Nat) : SnapshotCall where
  writer := sampleSetting.writer
  ttl := sampleSetting.ttl
  refreshes := []
  routes := routes
  attempt := fun operation => ⟨100900, fun _ => true, operation < succeeding⟩

/-- The entry of the sample route is written by a pass that then fails, and a pass without routes
unlinks it. -/
theorem successful_pass_cleans_up_after_failure :
    (run (RouteLedger.step insertionQsort) (.adopted noFiles fun _ => none)
        [.pass (sampleCall [sampleRoute] 3), .pass (sampleCall [] 1)]).held
        (ascii "/r/routes-net-port-3000.json") = true ∧
      (run (RouteLedger.step insertionQsort) (.adopted noFiles fun _ => none)
        [.pass (sampleCall [sampleRoute] 3), .pass (sampleCall [] 1), .pass (sampleCall [] 9)]).disk
        (ascii "/r/routes-net-port-3000.json") = none := by
  have hheld : (run (RouteLedger.step insertionQsort) (.adopted noFiles fun _ => none)
      [.pass (sampleCall [sampleRoute] 3), .pass (sampleCall [] 1)]).held
      (ascii "/r/routes-net-port-3000.json") = true := by decide +kernel
  exact ⟨hheld, (successful_pass_cleans_up insertionQsort noFiles (fun _ => none)
    [.pass (sampleCall [sampleRoute] 3), .pass (sampleCall [] 1)] (sampleCall [] 9) (by decide +kernel)).1 _ hheld
    (by decide +kernel)⟩

end PortManager.Native
