import PortManager.Native.NetworkTable
import PortManager.Native.RouteCleanup

/-!
# What a successful pass leaves in the files

After C `pm_write_route_snapshot` returns success, does every file of the snapshot have the list's routes?
The pass skips the write of a file whose remembered signature is that of the new text, when the file on
disk is fresh (C `pm_write_route_table_file_if_changed`). It does not compare the text on disk, so a fresh
file that another daemon has left under the path stays. And the pass empties the tables of networks that
are gone and unlinks stale entries and claims after it has written the snapshot, by path: a path that is
also a current one loses its routes.

`published_iff` says exactly when each file is right.
-/

namespace PortManager.Native
open CText Run List Function Bool SnapshotCall SnapshotPass

/-! ## What the list has for a path -/

variable (call : SnapshotCall)

def SnapshotCall.HasNetwork (network : Text) : Prop :=
  network ≠ [] ∧ ∃ route ∈ call.routes, route.networkId = network

def SnapshotCall.entryRoutes (path : Text) : List Route :=
  call.routes.filter fun route =>
    routeEntryPath call.writer.routeTablePath route.logicalPort route.networkId = path

def SnapshotCall.claimRoutes (path : Text) : List Route :=
  ((call.routes.flatMap (claimItems call.writer.routeTablePath)).filter fun item => item.1 = path).map (·.2)

/-- A path of the list and what is right for the `routes` array of its file. The table of a network has
the last owners in list order; the order within an entry or a claim is left open by `qsort`. -/
inductive SnapshotCall.Wants (call : SnapshotCall) : Text → (List RouteJson → Prop) → Prop where
  | network {id : Text} : call.HasNetwork id →
      Wants call (scopedRouteTablePath call.writer.routeTablePath id)
        (· = routesJson (lastOwners id call.routes))
  | entry {path : Text} : call.ListsEntry path → Wants call path (·.Perm (routesJson (call.entryRoutes path)))
  | claim {path : Text} : call.ListsClaim path → Wants call path (·.Perm (routesJson (call.claimRoutes path)))

def SnapshotCall.Published (disk : Disk) : Prop :=
  ∀ path right, call.Wants path right → ∃ file, disk path = some file ∧ right file.routes

/-- No two of the list's tables, entries and claims share a path. -/
structure SnapshotCall.PathsDistinct (call : SnapshotCall) : Prop where
  tables : ∀ id id', call.HasNetwork id → call.HasNetwork id' →
    scopedRouteTablePath call.writer.routeTablePath id = scopedRouteTablePath call.writer.routeTablePath id' →
    id = id'
  table_entry : ∀ id, call.HasNetwork id → ¬ call.ListsEntry (scopedRouteTablePath call.writer.routeTablePath id)
  table_claim : ∀ id, call.HasNetwork id → ¬ call.ListsClaim (scopedRouteTablePath call.writer.routeTablePath id)
  entry_claim : ∀ path, call.ListsEntry path → ¬ call.ListsClaim path

/-! ## When a file is right -/

def stalePaths (qsort : Qsort) (call : SnapshotCall) (files : RouteFiles) : List Text :=
  (staleNetworks qsort files call.routes).map (scopedRouteTablePath call.writer.routeTablePath)

def SnapshotCall.writes (qsort : Qsort) (call : SnapshotCall) (files : RouteFiles) : List (Text × List Route) :=
  snapshotWrites qsort call.writer.routeTablePath files call.routes

/-- The `i`-th write of a pass finds the signature of its text and a fresh file, and skips it. -/
def SnapshotCall.Reuses (qsort : Qsort) (call : SnapshotCall) (files : RouteFiles) (disk : Disk) (i : Nat)
    (path : Text) (file : RouteFile) : Prop :=
  ∃ routes, (call.writes qsort files)[i]? = some (path, routes) ∧ files.signatures path = some (routesJson routes) ∧
    disk path = some file ∧
    routeTableFileFreshForReuse call.ttl file (waitsForFirstHandshake call.refreshes routes)
      (call.attempt (i + 1)).nowMs = true

/-- The condition under which the file at a path is right: the pass does not unlink the path, it empties
no table at the path of a current one, and where it empties none it reuses a right file only. -/
structure SnapshotCall.Lands (qsort : Qsort) (call : SnapshotCall) (files : RouteFiles) (disk : Disk) (path : Text)
    (right : List RouteJson → Prop) : Prop where
  not_unlinked : path ∉ snapshotUnlinks qsort call.writer.routeTablePath files call.routes
  not_emptied : path ∈ stalePaths qsort call files →
    ∀ id, call.HasNetwork id → scopedRouteTablePath call.writer.routeTablePath id ≠ path
  reused_right : path ∉ stalePaths qsort call files →
    ∀ i file, call.Reuses qsort files disk i path file → right file.routes

/-! ## Writes and one path -/

section Writes

variable (pass : SnapshotPass) (st : PassState)

abbrev SnapshotPass.writeAll (items : List (Text × List Route)) : Bool × PassState :=
  runOperations (fun st item => pass.writeFileIfChanged st item.1 item.2) st items

/-- The signature and the file at the path are those of the text. -/
def PassState.Carries (path : Text) (text : List RouteJson) : Prop :=
  st.signatures path = some text ∧ ∃ file, st.disk path = some file ∧ file.routes = text

variable {path : Text} {routes : List Route} {items : List (Text × List Route)} {pass st} {result : Bool × PassState}

section

variable (h : FileWrite pass st path routes result)
include h

lemma FileWrite.operations : result.2.operations = st.operations + 1 := by
  cases h <;> rfl

lemma FileWrite.signature (hok : result.1 = true) : result.2.signatures path = some (routesJson routes) := by
  cases h with
  | failed => cases hok
  | skipped file hfile hsignature => exact hsignature
  | written => exact update_self ..

lemma FileWrite.carries (hok : result.1 = true) (hchanged : st.signatures path ≠ some (routesJson routes)) :
    result.2.Carries path (routesJson routes) := by
  cases h with
  | failed => cases hok
  | skipped file hfile hsignature => exact absurd hsignature hchanged
  | written => exact ⟨update_self .., _, update_self .., rfl⟩

end

lemma FileWrite.keeps_carries {target : Text} {text : List RouteJson} (h : FileWrite pass st target routes result)
    (htext : target = path → routesJson routes = text) (hst : st.Carries path text) : result.2.Carries path text := by
  by_cases hpath : target = path
  · cases h with
    | failed | skipped => exact hst
    | written =>
      rw [← hpath, ← htext hpath]
      exact ⟨update_self .., _, update_self .., rfl⟩
  · obtain ⟨hdisk, hsignature⟩ := h.elsewhere (Ne.symm hpath)
    obtain ⟨hsigned, file, hfile, hroutes⟩ := hst
    exact ⟨hsignature.trans hsigned, file, hdisk.trans hfile, hroutes⟩

variable (pass)

lemma writeAll_other (hitems : ∀ item ∈ items, item.1 ≠ path) :
    (pass.writeAll st items).2.disk path = st.disk path ∧
      (pass.writeAll st items).2.signatures path = st.signatures path := by
  refine runOperations_keeps
    (P := fun now => now.disk path = st.disk path ∧ now.signatures path = st.signatures path)
    (fun now item hitem hnow => ?_) ⟨rfl, rfl⟩
  obtain ⟨hdisk, hsignature⟩ := (writeFileIfChanged_write pass now item.1 item.2).elsewhere (hitems item hitem).symm
  exact ⟨hdisk.trans hnow.1, hsignature.trans hnow.2⟩

lemma writeAll_operations : (pass.writeAll st items).2.operations = st.operations + items.length := by
  induction items generalizing st with
  | nil => rfl
  | cons item items ih =>
    rw [writeAll, runOperations_cons]
    refine ih.trans ?_
    rw [(writeFileIfChanged_write ..).operations, length_cons]
    omega

lemma writeAll_signature (hok : (pass.writeAll st items).1 = true)
    (hitems : ∀ item ∈ items, item.1 = path → item.2 = routes) (hsome : ∃ item ∈ items, item.1 = path) :
    (pass.writeAll st items).2.signatures path = some (routesJson routes) := by
  induction items generalizing st with
  | nil =>
    obtain ⟨item, hitem, -⟩ := hsome
    cases hitem
  | cons item items ih =>
    rw [writeAll, runOperations_cons, and_eq_true] at hok
    rw [writeAll, runOperations_cons]
    by_cases hlater : ∃ item ∈ items, item.1 = path
    · exact ih hok.1 (fun item hitem => hitems item (mem_cons_of_mem _ hitem)) hlater
    -- the first item is the only one at the path
    have hothers : ∀ item ∈ items, item.1 ≠ path := fun item hitem heq => hlater ⟨item, hitem, heq⟩
    obtain ⟨found, hfound, hpath⟩ := hsome
    obtain rfl : found = item := (mem_cons.mp hfound).resolve_right fun h => hothers found h hpath
    refine (writeAll_other pass hothers).2.trans ?_
    rw [← hitems found mem_cons_self hpath, ← hpath]
    exact (writeFileIfChanged_write ..).signature hok.2

lemma writeAll_carries (hok : (pass.writeAll st items).1 = true)
    (hitems : ∀ item ∈ items, item.1 = path → item.2 = routes) (hsome : ∃ item ∈ items, item.1 = path)
    (hchanged : st.signatures path ≠ some (routesJson routes)) :
    (pass.writeAll st items).2.Carries path (routesJson routes) := by
  induction items generalizing st with
  | nil =>
    obtain ⟨item, hitem, -⟩ := hsome
    cases hitem
  | cons item items ih =>
    rw [writeAll, runOperations_cons, and_eq_true] at hok
    rw [writeAll, runOperations_cons]
    by_cases hpath : item.1 = path
    · refine runOperations_keeps (P := fun st => st.Carries path (routesJson routes)) (fun now later hlater hnow =>
        (writeFileIfChanged_write ..).keeps_carries (fun heq => ?_) hnow) ?_
      · rw [hitems later (mem_cons_of_mem _ hlater) heq]
      · rw [← hitems item mem_cons_self hpath, ← hpath] at hchanged ⊢
        exact (writeFileIfChanged_write ..).carries hok.2 hchanged
    · obtain ⟨found, hfound, heq⟩ := hsome
      have hlater : found ∈ items := (mem_cons.mp hfound).resolve_left fun h => hpath (h ▸ heq)
      refine ih hok.1 (fun item hitem => hitems item (mem_cons_of_mem _ hitem)) ⟨found, hlater, heq⟩ ?_
      rwa [((writeFileIfChanged_write ..).elsewhere (Ne.symm hpath)).2]

end Writes

/-! ## Where the list's files are written -/

section Placement

variable (qsort : Qsort)

lemma nodup_foldl_stringArrayAdd {values items : List Text} (hitems : items.Nodup) :
    (values.foldl stringArrayAdd items).Nodup := by
  induction values generalizing items with
  | nil => exact hitems
  | cons value values ih =>
    refine ih ?_
    unfold stringArrayAdd
    split
    · exact hitems
    next hnew => exact nodup_append.mpr ⟨hitems, by simp, fun a ha b hb hab => hnew (by simp_all)⟩

lemma currentNetworks_nodup (routes : List Route) : (currentNetworks qsort routes).Nodup := by
  refine (qsort.perm _ _).nodup_iff.mpr ?_
  rw [← foldl_map]
  exact nodup_foldl_stringArrayAdd .nil

lemma pathRuns_distinct (items : List (Text × Route)) : (pathRuns qsort items).Pairwise fun a b => a.1 ≠ b.1 := by
  have hkeys := Runs.pairwise_key_ne textLe_antisymm (fun a b => decide_eq_true_iff)
    (qsort.sorted_by_text (fun item : Text × Route => item.1) items)
  refine hkeys.filterMap _ fun run run' hne a ha b hb => ?_
  obtain ⟨first, hfirst, rfl⟩ := Option.map_eq_some_iff.mp ha
  obtain ⟨first', hfirst', rfl⟩ := Option.map_eq_some_iff.mp hb
  exact hne first (mem_of_head? hfirst) first' (mem_of_head? hfirst')

variable {item run : Text × List Route} {id : Text}

lemma split_of_mem {files : List (Text × List Route)}
    (hdistinct : files.Pairwise fun a b => a.1 ≠ b.1) (hitem : item ∈ files) :
    ∃ before after, files = before ++ item :: after ∧ (∀ other ∈ before, other.1 ≠ item.1) ∧
      ∀ other ∈ after, other.1 ≠ item.1 := by
  obtain ⟨before, after, rfl⟩ := append_of_mem hitem
  obtain ⟨-, hafter, hcross⟩ := pairwise_append.mp hdistinct
  exact ⟨before, after, rfl, fun other hother => hcross other hother item mem_cons_self,
    fun other hother => ((pairwise_cons.mp hafter).1 other hother).symm⟩

variable {qsort} {call : SnapshotCall} {files : RouteFiles}

lemma mem_currentNetworks_hasNetwork : id ∈ currentNetworks qsort call.routes ↔ call.HasNetwork id :=
  mem_currentNetworks qsort call.routes

lemma entryRuns_listsEntry (hrun : run ∈ entryRuns qsort call.writer.routeTablePath call.routes) :
    call.ListsEntry run.1 :=
  mem_entryPaths.mp ((mem_runPaths qsort).mpr ⟨run, hrun, rfl⟩)

lemma claimRuns_listsClaim (hrun : run ∈ claimRuns qsort call.writer.routeTablePath call.routes) :
    call.ListsClaim run.1 :=
  mem_claimPaths.mp ((mem_runPaths qsort).mpr ⟨run, hrun, rfl⟩)

lemma entryRuns_perm (hrun : run ∈ entryRuns qsort call.writer.routeTablePath call.routes) :
    run.2.Perm (call.entryRoutes run.1) := by
  obtain ⟨-, hperm⟩ := mem_pathRuns qsort hrun
  rw [filter_map, map_map] at hperm
  simpa [entryRoutes, comp_def] using hperm

def SnapshotCall.tables (qsort : Qsort) (call : SnapshotCall) : List (Text × List Route) :=
  (currentNetworks qsort call.routes).map fun id =>
    (scopedRouteTablePath call.writer.routeTablePath id, buildNetworkRouteSnapshot qsort call.routes id)

def SnapshotCall.emptied (qsort : Qsort) (call : SnapshotCall) (files : RouteFiles) : List (Text × List Route) :=
  (staleNetworks qsort files call.routes).map fun id => (scopedRouteTablePath call.writer.routeTablePath id, [])

lemma writes_eq (qsort : Qsort) (call : SnapshotCall) (files : RouteFiles) :
    call.writes qsort files = call.tables qsort ++ call.emptied qsort files ++
      entryRuns qsort call.writer.routeTablePath call.routes ++
      claimRuns qsort call.writer.routeTablePath call.routes := rfl

lemma mem_tables (hitem : item ∈ call.tables qsort) :
    ∃ id, call.HasNetwork id ∧ scopedRouteTablePath call.writer.routeTablePath id = item.1 := by
  obtain ⟨id, hid, rfl⟩ := mem_map.mp hitem
  exact ⟨id, mem_currentNetworks_hasNetwork.mp hid, rfl⟩

lemma mem_emptied (hitem : item ∈ call.emptied qsort files) : item.2 = [] := by
  obtain ⟨id, -, rfl⟩ := mem_map.mp hitem
  rfl

variable {path : Text}

lemma mem_stalePaths : path ∈ stalePaths qsort call files ↔ ∃ item ∈ call.emptied qsort files, item.1 = path := by
  simp [stalePaths, emptied]

lemma tables_distinct (hdistinct : call.PathsDistinct) : (call.tables qsort).Pairwise fun a b => a.1 ≠ b.1 := by
  refine pairwise_map.mpr ((currentNetworks_nodup qsort call.routes).imp_of_mem ?_)
  intro id id' hid hid' hne heq
  exact hne (hdistinct.tables id id' (mem_currentNetworks_hasNetwork.mp hid) (mem_currentNetworks_hasNetwork.mp hid') heq)

/-- Where the file of a path is in the writes. The table of a network is written before the emptied
tables, an entry or a claim after them; nothing else is written at its path. -/
inductive Placed (qsort : Qsort) (call : SnapshotCall) (files : RouteFiles) (path : Text)
    (right : List RouteJson → Prop) : Prop where
  | table (routes : List Route) (before after : List (Text × List Route)) :
      call.writes qsort files = before ++ (path, routes) :: after → right (routesJson routes) → ¬ right [] →
      routes ≠ [] → (∃ id, call.HasNetwork id ∧ scopedRouteTablePath call.writer.routeTablePath id = path) →
      (∀ item ∈ before, item.1 ≠ path) → (∀ item ∈ after, item.1 = path → item.2 = []) →
      (path ∈ stalePaths qsort call files ↔ ∃ item ∈ after, item.1 = path) → Placed qsort call files path right
  | endpoint (routes : List Route) (before after : List (Text × List Route)) :
      call.writes qsort files = before ++ (path, routes) :: after → right (routesJson routes) → routes ≠ [] →
      (∀ id, call.HasNetwork id → scopedRouteTablePath call.writer.routeTablePath id ≠ path) →
      (∀ item ∈ before, item.1 = path → item.2 = []) → (∀ item ∈ after, item.1 ≠ path) →
      (path ∈ stalePaths qsort call files ↔ ∃ item ∈ before, item.1 = path) → Placed qsort call files path right

lemma placed_table (hdistinct : call.PathsDistinct) (hid : call.HasNetwork id) :
    Placed qsort call files (scopedRouteTablePath call.writer.routeTablePath id)
      (· = routesJson (lastOwners id call.routes)) := by
  have hitem : (scopedRouteTablePath call.writer.routeTablePath id, buildNetworkRouteSnapshot qsort call.routes id) ∈
      call.tables qsort := mem_map.mpr ⟨id, mem_currentNetworks_hasNetwork.mpr hid, rfl⟩
  obtain ⟨before, after, hsplit, hbefore, hafter⟩ := split_of_mem (tables_distinct hdistinct) hitem
  have hne : buildNetworkRouteSnapshot qsort call.routes id ≠ [] := by
    obtain ⟨-, route, hroute, rfl⟩ := hid
    exact buildNetworkRouteSnapshot_ne_nil qsort call.routes hroute
  -- what comes later at the path is an emptied table
  have hemptied : ∀ item ∈ after ++ call.emptied qsort files ++
      entryRuns qsort call.writer.routeTablePath call.routes ++
      claimRuns qsort call.writer.routeTablePath call.routes,
      item.1 = scopedRouteTablePath call.writer.routeTablePath id → item ∈ call.emptied qsort files := by
    intro item hitem heq
    rcases mem_append.mp hitem with hitem | hclaim
    · rcases mem_append.mp hitem with hitem | hentry
      · rcases mem_append.mp hitem with htable | hempty
        · exact absurd heq (hafter item htable)
        · exact hempty
      · exact absurd (heq ▸ entryRuns_listsEntry hentry) (hdistinct.table_entry id hid)
    · exact absurd (heq ▸ claimRuns_listsClaim hclaim) (hdistinct.table_claim id hid)
  refine .table (buildNetworkRouteSnapshot qsort call.routes id) before
    (after ++ call.emptied qsort files ++ entryRuns qsort call.writer.routeTablePath call.routes ++
      claimRuns qsort call.writer.routeTablePath call.routes) ?_ ?_ ?_ hne ⟨id, hid, rfl⟩ hbefore
    (fun item hitem heq => mem_emptied (hemptied item hitem heq)) ?_
  · rw [writes_eq, hsplit]
    simp only [append_assoc, cons_append]
  · rw [buildNetworkRouteSnapshot_eq]
  · rw [← buildNetworkRouteSnapshot_eq qsort]
    intro h
    exact hne (map_eq_nil_iff.mp h.symm)
  rw [mem_stalePaths]
  constructor
  · rintro ⟨item, hitem, heq⟩
    exact ⟨item, by simp [hitem], heq⟩
  · rintro ⟨item, hitem, heq⟩
    exact ⟨item, hemptied item hitem heq, heq⟩

variable {right : List RouteJson → Prop}

lemma placed_endpoint {routes : List Route} {before after : List (Text × List Route)}
    (hwrites : call.writes qsort files = call.tables qsort ++ call.emptied qsort files ++ before ++
      (path, routes) :: after) (hright : right (routesJson routes)) (hne : routes ≠ [])
    (htables : ∀ id, call.HasNetwork id → scopedRouteTablePath call.writer.routeTablePath id ≠ path)
    (hbefore : ∀ item ∈ before, item.1 ≠ path) (hafter : ∀ item ∈ after, item.1 ≠ path) :
    Placed qsort call files path right := by
  have hemptied : ∀ item ∈ call.tables qsort ++ call.emptied qsort files ++ before, item.1 = path →
      item ∈ call.emptied qsort files := by
    intro item hitem heq
    rcases mem_append.mp hitem with hitem | hother
    · rcases mem_append.mp hitem with htable | hempty
      · obtain ⟨id, hid, hpath⟩ := mem_tables htable
        exact absurd (hpath.trans heq) (htables id hid)
      · exact hempty
    · exact absurd heq (hbefore item hother)
  refine .endpoint routes _ after hwrites hright hne htables
    (fun item hitem heq => mem_emptied (hemptied item hitem heq)) hafter ?_
  rw [mem_stalePaths]
  constructor
  · rintro ⟨item, hitem, heq⟩
    exact ⟨item, by simp [hitem], heq⟩
  · rintro ⟨item, hitem, heq⟩
    exact ⟨item, hemptied item hitem heq, heq⟩

variable (hdistinct : call.PathsDistinct)
include hdistinct

lemma placed_entry (hpath : call.ListsEntry path) :
    Placed qsort call files path (·.Perm (routesJson (call.entryRoutes path))) := by
  obtain ⟨run, hrun, rfl⟩ := (mem_runPaths qsort).mp (mem_entryPaths.mpr hpath)
  obtain ⟨before, after, hsplit, hbefore, hafter⟩ := split_of_mem (pathRuns_distinct qsort _) hrun
  have hwrites : call.writes qsort files = call.tables qsort ++ call.emptied qsort files ++ before ++
      (run.1, run.2) :: (after ++ claimRuns qsort call.writer.routeTablePath call.routes) := by
    rw [writes_eq, entryRuns, hsplit]
    simp only [append_assoc, cons_append]
  refine placed_endpoint hwrites ((entryRuns_perm hrun).map _) (ne_nil_of_mem_pathRuns qsort hrun)
    (fun id hid heq => hdistinct.table_entry id hid (heq ▸ hpath)) hbefore fun item hitem => ?_
  rcases mem_append.mp hitem with hentry | hclaim
  · exact hafter item hentry
  · exact fun heq => hdistinct.entry_claim _ hpath (heq ▸ claimRuns_listsClaim hclaim)

lemma placed_claim (hpath : call.ListsClaim path) :
    Placed qsort call files path (·.Perm (routesJson (call.claimRoutes path))) := by
  obtain ⟨run, hrun, rfl⟩ := (mem_runPaths qsort).mp (mem_claimPaths.mpr hpath)
  obtain ⟨before, after, hsplit, hbefore, hafter⟩ := split_of_mem (pathRuns_distinct qsort _) hrun
  have hwrites : call.writes qsort files = call.tables qsort ++ call.emptied qsort files ++
      (entryRuns qsort call.writer.routeTablePath call.routes ++ before) ++ (run.1, run.2) :: after := by
    rw [writes_eq, claimRuns, hsplit]
    simp only [append_assoc]
  refine placed_endpoint hwrites ((mem_pathRuns qsort hrun).2.map _) (ne_nil_of_mem_pathRuns qsort hrun)
    (fun id hid heq => hdistinct.table_claim id hid (heq ▸ hpath)) (fun item hitem => ?_) hafter
  rcases mem_append.mp hitem with hentry | hclaim
  · exact fun heq => hdistinct.entry_claim _ (entryRuns_listsEntry hentry) (heq ▸ hpath)
  · exact hbefore item hclaim

lemma placed_of_wants (hwants : call.Wants path right) : Placed qsort call files path right := by
  cases hwants with
  | network hid => exact placed_table hdistinct hid
  | entry hpath => exact placed_entry hdistinct hpath
  | claim hpath => exact placed_claim hdistinct hpath

omit hdistinct

end Placement

/-! ## The pass -/

section Pass

variable {qsort : Qsort} {call : SnapshotCall} {files : RouteFiles} {disk : Disk} {path : Text}
  {right : List RouteJson → Prop} {routes : List Route} {before after : List (Text × List Route)}

lemma unlinks_other (pass : SnapshotPass) {st : PassState} {paths : List Text} (hpath : path ∉ paths) :
    (runOperations pass.unlink st paths).2.disk path = st.disk path := by
  refine runOperations_keeps (P := fun now => now.disk path = st.disk path) (fun now target htarget hnow => ?_) rfl
  have hne : path ≠ target := fun h => hpath (h ▸ htarget)
  exact ((unlink_unlink pass now target).elsewhere hne).1.trans hnow

lemma index_of_path (hbefore : ∀ item ∈ before, item.1 ≠ path) (hafter : ∀ item ∈ after, item.1 ≠ path) {i : Nat}
    {other : List Route} (hi : (before ++ (path, routes) :: after)[i]? = some (path, other)) :
    i = before.length ∧ other = routes := by
  rcases lt_trichotomy i before.length with hlt | heq | hgt
  · rw [getElem?_append_left hlt] at hi
    exact absurd rfl (hbefore _ (mem_of_getElem? hi))
  · rw [heq, getElem?_append_right (Nat.le_refl _), Nat.sub_self] at hi
    cases hi
    exact ⟨heq, rfl⟩
  · obtain ⟨k, hk⟩ := Nat.exists_eq_add_of_lt hgt
    rw [getElem?_append_right hgt.le, show i - before.length = k + 1 by omega, getElem?_cons_succ] at hi
    exact absurd rfl (hafter _ (mem_of_getElem? hi))

def SnapshotCall.start (files : RouteFiles) (disk : Disk) : PassState := ⟨disk, files.signatures, 1⟩

lemma writeAll_split (pass : SnapshotPass) (st : PassState) :
    pass.writeAll st (before ++ (path, routes) :: after) =
      let first := pass.writeAll st before
      let this := pass.writeFileIfChanged first.2 path routes
      let rest := pass.writeAll this.2 after
      (rest.1 && this.1 && first.1, rest.2) := by
  simp only [writeAll, runOperations_append, runOperations_cons]

variable (hwrites : call.writes qsort files = before ++ (path, routes) :: after)
include hwrites

variable (hok : ((call.pass files).writeAll (SnapshotCall.start files disk) (call.writes qsort files)).1 = true)
include hok

lemma written_once (hright : right (routesJson routes)) (hne : routes ≠ []) (hbefore : ∀ item ∈ before, item.1 ≠ path)
    (hafter : ∀ item ∈ after, item.1 ≠ path) :
    (∃ file, ((call.pass files).writeAll (start files disk) (call.writes qsort files)).2.disk path =
        some file ∧ right file.routes) ↔
      ∀ i file, call.Reuses qsort files disk i path file → right file.routes := by
  have hreuses : ∀ i file, call.Reuses qsort files disk i path file ↔
      i = before.length ∧ files.signatures path = some (routesJson routes) ∧ disk path = some file ∧
        routeTableFileFreshForReuse call.ttl file (waitsForFirstHandshake call.refreshes routes)
          (call.attempt (before.length + 1)).nowMs = true := by
    intro i file
    unfold SnapshotCall.Reuses
    rw [hwrites]
    constructor
    · rintro ⟨other, hi, hrest⟩
      obtain ⟨rfl, rfl⟩ := index_of_path hbefore hafter hi
      exact ⟨rfl, hrest⟩
    · rintro ⟨rfl, hrest⟩
      exact ⟨routes, by simp, hrest⟩
  rw [hwrites, writeAll_split] at hok ⊢
  simp only [and_eq_true] at hok ⊢
  rw [(writeAll_other _ hafter).1]
  obtain ⟨hdisk, hsignature⟩ : (((call.pass files).writeAll (start files disk) before).2.disk path =
      disk path) ∧ ((call.pass files).writeAll (start files disk) before).2.signatures path =
      files.signatures path := writeAll_other (call.pass files) hbefore
  have hoperations : ((call.pass files).writeAll (start files disk) before).2.operations =
      1 + before.length := writeAll_operations (call.pass files)
  generalize ((call.pass files).writeAll (start files disk) before).2 = st at *
  have hwrite := writeFileIfChanged_write (call.pass files) st path routes
  obtain ⟨⟨-, hthis⟩, -⟩ := hok
  generalize (call.pass files).writeFileIfChanged st path routes = result at hwrite hthis
  have hnow : ((call.pass files).next st).nowMs = (call.attempt (before.length + 1)).nowMs := by
    rw [SnapshotPass.next, hoperations, add_comm]
    rfl
  cases hwrite with
  | failed => cases hthis
  | skipped file hfile hsigned hnewer hfresh =>
    have hfresh := hfresh.resolve_right hne
    rw [hnow] at hfresh
    constructor
    · rintro ⟨found, hfound, hgood⟩ i reused hreused
      obtain ⟨-, -, hon, -⟩ := (hreuses i reused).mp hreused
      have hsame : some found = some reused := hfound.symm.trans (hdisk.trans hon)
      rwa [← Option.some.inj hsame]
    · intro hgood
      exact ⟨file, hfile, hgood before.length file
        ((hreuses _ _).mpr ⟨rfl, hsignature.symm.trans hsigned, hdisk.symm.trans hfile, hfresh⟩)⟩
  | written hnewer hstale =>
    constructor
    · intro _ i reused hreused
      obtain ⟨-, hsigned, hon, hfresh⟩ := (hreuses i reused).mp hreused
      have hnot := (hstale reused (hdisk.trans hon) (hsignature.trans hsigned)).1
      rw [hnow] at hnot
      exact absurd (hfresh.symm.trans hnot) nofun
    · exact fun _ => ⟨_, update_self .., hright⟩

lemma table_emptied (hne : routes ≠ []) (hafter : ∀ item ∈ after, item.1 = path → item.2 = [])
    (hsome : ∃ item ∈ after, item.1 = path) :
    ∃ file, ((call.pass files).writeAll (start files disk) (call.writes qsort files)).2.disk path =
      some file ∧ file.routes = [] := by
  rw [hwrites, writeAll_split] at hok ⊢
  simp only [and_eq_true] at hok
  obtain ⟨⟨hrest, hthis⟩, -⟩ := hok
  have hchanged := (writeFileIfChanged_write (call.pass files) _ path routes).signature hthis
  refine (writeAll_carries (call.pass files) hrest hafter hsome ?_).2
  rw [hchanged]
  exact fun h => hne (map_eq_nil_iff.mp (Option.some.inj h))

lemma endpoint_written (hne : routes ≠ []) (hbefore : ∀ item ∈ before, item.1 = path → item.2 = [])
    (hsome : ∃ item ∈ before, item.1 = path) (hafter : ∀ item ∈ after, item.1 ≠ path) :
    ∃ file, ((call.pass files).writeAll (start files disk) (call.writes qsort files)).2.disk path =
      some file ∧ file.routes = routesJson routes := by
  rw [hwrites, writeAll_split] at hok ⊢
  simp only [and_eq_true] at hok ⊢
  obtain ⟨⟨-, hthis⟩, hfirst⟩ := hok
  have hsigned := writeAll_signature (call.pass files) hfirst hbefore hsome
  rw [(writeAll_other _ hafter).1]
  refine ((writeFileIfChanged_write ..).carries hthis ?_).2
  rw [hsigned]
  exact fun h => hne (map_eq_nil_iff.mp (Option.some.inj h).symm)

omit hok

omit hwrites

lemma published_at (hok : (call.operations qsort files disk).1 = true) (hplaced : Placed qsort call files path right) :
    (∃ file, (call.operations qsort files disk).2.disk path = some file ∧ right file.routes) ↔
      call.Lands qsort files disk path right := by
  simp only [operations, and_eq_true] at hok ⊢
  obtain ⟨hwritten, hunlinked⟩ := hok
  by_cases hunlink : path ∈ snapshotUnlinks qsort call.writer.routeTablePath files call.routes
  · refine ⟨?_, fun h => absurd hunlink h.not_unlinked⟩
    rintro ⟨file, hfile, -⟩
    rw [unlinks_disk _ hunlinked hunlink] at hfile
    cases hfile
  rw [unlinks_other _ hunlink]
  cases hplaced with
  | table routes before after hwrites hright hempty hne hid hbefore hafter hstale =>
    by_cases hemptied : path ∈ stalePaths qsort call files
    · obtain ⟨id, hnetwork, hpath⟩ := hid
      obtain ⟨file, hfile, hroutes⟩ := table_emptied hwrites hwritten hne hafter (hstale.mp hemptied)
      refine ⟨?_, fun h => absurd hpath (h.not_emptied hemptied id hnetwork)⟩
      rintro ⟨found, hfound, hgood⟩
      obtain rfl : file = found := Option.mem_unique hfile hfound
      exact absurd (hroutes ▸ hgood) hempty
    · have hnone : ∀ item ∈ after, item.1 ≠ path := fun item hitem heq => hemptied (hstale.mpr ⟨item, hitem, heq⟩)
      refine (written_once hwrites hwritten hright hne hbefore hnone).trans ?_
      exact ⟨fun h => ⟨hunlink, fun h' => absurd h' hemptied, fun _ => h⟩, fun h => h.reused_right hemptied⟩
  | endpoint routes before after hwrites hright hne htables hbefore hafter hstale =>
    by_cases hemptied : path ∈ stalePaths qsort call files
    · obtain ⟨file, hfile, hroutes⟩ := endpoint_written hwrites hwritten hne hbefore (hstale.mp hemptied) hafter
      exact ⟨fun _ => ⟨hunlink, fun _ => htables, fun h => absurd hemptied h⟩,
        fun _ => ⟨file, hfile, hroutes ▸ hright⟩⟩
    · have hnone : ∀ item ∈ before, item.1 ≠ path := fun item hitem heq => hemptied (hstale.mpr ⟨item, hitem, heq⟩)
      refine (written_once hwrites hwritten hright hne hnone hafter).trans ?_
      exact ⟨fun h => ⟨hunlink, fun _ => htables, fun _ => h⟩, fun h => h.reused_right hemptied⟩

end Pass

/-- After a pass that returns success every file of the list has exactly the list's routes if and only if
each of its paths lands: it is not unlinked as a stale one, a table is not emptied as a stale one, and a
file that the pass reuses was right before. -/
theorem published_iff (qsort : Qsort) (call : SnapshotCall) (files : RouteFiles) (disk : Disk)
    (hdistinct : call.PathsDistinct) (hok : (writeRouteSnapshot qsort call files disk).1 = true) :
    call.Published (writeRouteSnapshot qsort call files disk).2.2 ↔
      ∀ path right, call.Wants path right → call.Lands qsort files disk path right := by
  obtain ⟨hoperations, hresult⟩ := writeRouteSnapshot_of_ok hok
  rw [hresult]
  constructor
  · intro h path right hwants
    exact (published_at hoperations (placed_of_wants hdistinct hwants)).mp (h path right hwants)
  · intro h path right hwants
    exact (published_at hoperations (placed_of_wants hdistinct hwants)).mpr (h path right hwants)

/-! ## Two passes -/

/-- A pass of the sample daemon over the sample route; no other process lives. -/
def loneCall : SnapshotCall where
  writer := sampleSetting.writer
  ttl := sampleSetting.ttl
  refreshes := []
  routes := [sampleRoute]
  attempt := fun _ => ⟨100900, fun pid => pid = 1, true⟩

lemma loneCall_network {id : Text} (hid : loneCall.HasNetwork id) : id = ascii "net" := by
  obtain ⟨-, route, hroute, rfl⟩ := hid
  rw [mem_singleton.mp hroute]
  rfl

lemma loneCall_pathsDistinct : loneCall.PathsDistinct where
  tables := fun _ _ hid hid' _ => (loneCall_network hid).trans (loneCall_network hid').symm
  table_entry := fun _ hid => by
    rw [loneCall_network hid]
    decide +kernel
  table_claim := fun _ hid => by
    rw [loneCall_network hid]
    decide +kernel
  entry_claim := fun path _ => by
    rintro ⟨route, hroute, hsource, -⟩
    rw [mem_singleton.mp hroute] at hsource
    cases hsource

theorem published_iff_first_pass :
    loneCall.Published (writeRouteSnapshot insertionQsort loneCall noFiles fun _ => none).2.2 := by
  refine (published_iff insertionQsort loneCall noFiles (fun _ => none) loneCall_pathsDistinct
    (by decide +kernel)).mpr fun path right _ => ⟨?_, ?_, ?_⟩
  · exact not_mem_nil
  · exact fun h => absurd h not_mem_nil
  · rintro - i file ⟨routes, -, hsignature, -⟩
    cases hsignature

/-- A table that a daemon of a newer generation has left behind: its route has another port. -/
def leftBehind : RouteFile where
  expiresAtMs := 400000
  ttlStartsAfterFirstHandshake := true
  generation := ⟨ascii "x", 2, 1, 2⟩
  routes := routesJson [{ sampleRoute with actualPort := 5000 }]

/-- The sample daemon has published its route, and a newer daemon has replaced the table and is gone. -/
def afterNewerDaemon : RouteLedger :=
  run (RouteLedger.step insertionQsort) (.adopted noFiles fun _ => none)
    [.pass loneCall, .foreign (ascii "/r/routes-net.json") (some leftBehind)]

/-- The next pass of the same route reuses the other daemon's file and returns success. -/
theorem left_behind_table_reused :
    loneCall.PathsDistinct ∧ (afterNewerDaemon.pass insertionQsort loneCall).1 = true ∧
      ¬ loneCall.Published (afterNewerDaemon.pass insertionQsort loneCall).2.2 := by
  refine ⟨loneCall_pathsDistinct, by decide +kernel, fun hpublished => ?_⟩
  have hnetwork : loneCall.HasNetwork (ascii "net") := ⟨by decide, sampleRoute, mem_singleton.mpr rfl, rfl⟩
  have hreused : (afterNewerDaemon.pass insertionQsort loneCall).2.2
      (scopedRouteTablePath loneCall.writer.routeTablePath (ascii "net")) = some leftBehind := by decide +kernel
  obtain ⟨file, hfile, hroutes⟩ := hpublished _ _ (.network hnetwork)
  obtain rfl : leftBehind = file := Option.mem_unique hreused hfile
  exact absurd hroutes (by decide +kernel)

end PortManager.Native
