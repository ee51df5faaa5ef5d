import PortManager.Base.Runs
import PortManager.Native.RouteSnapshot

/-!
# What a pass does

The facts about a pass of `Native/RouteSnapshot.lean` that its properties rest on: the order of C
`strcmp` and the sorted arrays the pass searches, the three things a write can do to a file
(`FileWrite`), the two an unlink can do (`FileUnlink`), and the loops over both.
-/

namespace PortManager.Native
open CText List Function SnapshotPass

/-! ## The order of texts -/

lemma byte_trichotomy (c d : UInt8) : c < d ∨ c = d ∨ d < c := by
  simp only [UInt8.lt_iff_toNat_lt, ← UInt8.toNat_inj]
  omega

lemma strcmp_self (a : Text) : strcmp a a = .eq := by
  induction a with
  | nil => rfl
  | cons c a ih => simp [strcmp, ih]

lemma strcmp_swap (a b : Text) : strcmp b a = (strcmp a b).swap := by
  induction a generalizing b with
  | nil => cases b <;> rfl
  | cons c a ih =>
    cases b with
    | nil => rfl
    | cons d b =>
      simp only [strcmp]
      rcases byte_trichotomy c d with h | h | h
      · rw [if_neg (UInt8.lt_asymm h), if_pos h, if_pos h]
        rfl
      · subst h
        simp only [if_neg (UInt8.lt_irrefl c), ih b]
      · rw [if_pos h, if_neg (UInt8.lt_asymm h), if_pos h]
        rfl

lemma strcmp_eq_iff {a b : Text} : strcmp a b = .eq ↔ a = b := by
  refine ⟨fun h => ?_, fun h => h ▸ strcmp_self a⟩
  induction a generalizing b with
  | nil =>
    cases b with
    | nil => rfl
    | cons d b => cases h
  | cons c a ih =>
    cases b with
    | nil => cases h
    | cons d b =>
      simp only [strcmp] at h
      split at h
      · cases h
      next hcd =>
        split at h
        · cases h
        next hdc => rw [UInt8.le_antisymm (UInt8.not_lt.mp hdc) (UInt8.not_lt.mp hcd), ih h]

def textLe (a b : Text) : Prop := strcmp a b ≠ .gt

lemma textLe_antisymm (a b : Text) (hab : textLe a b) (hba : textLe b a) : a = b := by
  unfold textLe at *
  rw [strcmp_swap] at hba
  refine strcmp_eq_iff.mp ?_
  cases h : strcmp a b with
  | lt => exact absurd (congrArg Ordering.swap h) hba
  | eq => rfl
  | gt => exact absurd h hab

lemma textLe_trans (a b c : Text) (hab : textLe a b) (hbc : textLe b c) : textLe a c := by
  unfold textLe at *
  induction a generalizing b c with
  | nil => cases c <;> nofun
  | cons x a ih =>
    cases b with
    | nil => exact absurd rfl hab
    | cons y b =>
      cases c with
      | nil => exact absurd rfl hbc
      | cons z c =>
        simp only [strcmp] at hab hbc ⊢
        rcases byte_trichotomy x y with hxy | hxy | hxy
        · rcases byte_trichotomy y z with hyz | hyz | hyz
          · rw [if_pos (UInt8.lt_trans hxy hyz)]
            nofun
          · rw [if_pos (hyz ▸ hxy)]
            nofun
          · rw [if_neg (UInt8.lt_asymm hyz), if_pos hyz] at hbc
            exact absurd rfl hbc
        · subst hxy
          rw [if_neg (UInt8.lt_irrefl x), if_neg (UInt8.lt_irrefl x)] at hab
          rcases byte_trichotomy x z with hyz | hyz | hyz
          · rw [if_pos hyz]
            nofun
          · subst hyz
            rw [if_neg (UInt8.lt_irrefl x), if_neg (UInt8.lt_irrefl x)] at hbc ⊢
            exact ih b c hab hbc
          · rw [if_neg (UInt8.lt_asymm hyz), if_pos hyz] at hbc
            exact absurd rfl hbc
        · rw [if_neg (UInt8.lt_asymm hxy), if_pos hxy] at hab
          exact absurd rfl hab

lemma strcmp_gt_swap (a b : Text) (h : strcmp a b = .gt) : strcmp b a ≠ .gt := by
  rw [strcmp_swap, h]
  nofun

lemma Qsort.sorted_by_text (qsort : Qsort) {α : Type} (text : α → Text) (items : List α) :
    (qsort.sort (fun a b => strcmp (text a) (text b)) items).Pairwise fun a b => textLe (text a) (text b) :=
  qsort.sorted _ items (fun _ _ h => strcmp_gt_swap _ _ h) fun _ _ _ hab hbc => textLe_trans _ _ _ hab hbc

lemma stringArrayBinaryContains_iff {items : List Text} (hsorted : items.Pairwise textLe) (value : Text) :
    stringArrayBinaryContains items value = true ↔ value ∈ items := by
  have hle : ∀ (i j : Nat) (hj : j < items.length) (hij : i ≤ j), textLe items[i] items[j] := by
    intro i j hj hij
    rcases eq_or_lt_of_le hij with rfl | hlt
    · rw [textLe, strcmp_self]
      nofun
    · exact pairwise_iff_getElem.mp hsorted i j (by omega) hj hlt
  have hmono : ∀ i j, i ≤ j → j < items.length →
      ((items[j]?).any fun item => strcmp item value = .lt) = true →
      ((items[i]?).any fun item => strcmp item value = .lt) = true := by
    intro i j hij hj hlt
    have hi : i < items.length := by omega
    simp only [getElem?_eq_getElem hj, getElem?_eq_getElem hi, Option.any_some,
      decide_eq_true_eq] at hlt ⊢
    have htrans : textLe items[i] value := textLe_trans _ _ _ (hle i j hj hij) (by rw [textLe, hlt]; nofun)
    cases hcmp : strcmp items[i] value with
    | lt => rfl
    | gt => exact absurd hcmp htrans
    | eq =>
      -- then the value comes before the element at j
      have hvj := hle i j hj hij
      rw [strcmp_eq_iff.mp hcmp, textLe, strcmp_swap, hlt] at hvj
      exact absurd rfl hvj
  obtain ⟨hcount, hbelow, habove⟩ := Search.lowerBound_spec hmono
  unfold stringArrayBinaryContains
  rw [decide_eq_true_eq]
  refine ⟨fun h => mem_of_getElem? h, fun hmem => ?_⟩
  obtain ⟨k, hk, hvalue⟩ := mem_iff_getElem.mp hmem
  generalize Search.lowerBound _ _ = r at *
  have hrk : r ≤ k := by
    by_contra hlt
    have := hbelow k (by omega)
    simp [getElem?_eq_getElem hk, hvalue, strcmp_self] at this
  have hr : r < items.length := by omega
  have hnot := habove r (le_refl _) hr
  simp only [getElem?_eq_getElem hr, Option.any_some, decide_eq_false_iff_not] at hnot
  have hrv : textLe items[r] value := hvalue ▸ hle r k hk hrk
  rw [getElem?_eq_getElem hr, Option.some_inj]
  cases hcmp : strcmp items[r] value with
  | lt => exact absurd hcmp hnot
  | eq => exact strcmp_eq_iff.mp hcmp
  | gt => exact absurd hcmp hrv

/-! ## The files of a snapshot -/

section Files

variable (qsort : Qsort) (base : Text) (files : RouteFiles) (routes : List Route)

lemma mem_foldl_stringArrayAdd {values items : List Text} {value : Text} :
    value ∈ values.foldl stringArrayAdd items ↔ value ∈ items ∨ value ∈ values := by
  induction values generalizing items with
  | nil => simp
  | cons v values ih =>
    rw [foldl_cons, ih, mem_cons, stringArrayAdd]
    split
    next hmem =>
      constructor
      · rintro (h | h)
        · exact .inl h
        · exact .inr (.inr h)
      · rintro (h | rfl | h)
        · exact .inl h
        · exact .inl hmem
        · exact .inr h
    next => simp only [mem_append, mem_singleton, or_assoc]

variable {id path : Text} {items : List (Text × Route)} {run : Text × List Route}

lemma mem_currentNetworks : id ∈ currentNetworks qsort routes ↔ id ≠ [] ∧ ∃ route ∈ routes, route.networkId = id := by
  have hfold : ∀ kept : List Route, kept.foldl (fun ids route => stringArrayAdd ids route.networkId) [] =
      (kept.map (·.networkId)).foldl stringArrayAdd [] := fun kept => foldl_map.symm
  rw [currentNetworks, (qsort.perm _ _).mem_iff, hfold, mem_foldl_stringArrayAdd, mem_map]
  constructor
  · rintro (h | ⟨route, hroute, rfl⟩)
    · cases h
    · obtain ⟨hmem, hne⟩ := mem_filter.mp hroute
      exact ⟨by simpa using hne, route, hmem, rfl⟩
  · rintro ⟨hne, route, hmem, rfl⟩
    exact .inr ⟨route, mem_filter.mpr ⟨hmem, by simpa using hne⟩, rfl⟩

lemma runPaths_sorted (runs : List (Text × List Route)) : (runPaths qsort runs).Pairwise textLe :=
  qsort.sorted_by_text id _

lemma mem_runPaths {runs : List (Text × List Route)} : path ∈ runPaths qsort runs ↔ ∃ run ∈ runs, run.1 = path := by
  rw [runPaths, (qsort.perm _ _).mem_iff, mem_map]

lemma mem_snapshotUnlinks :
    path ∈ snapshotUnlinks qsort base files routes ↔
      (path ∈ files.writtenEntryPaths ∧ path ∉ runPaths qsort (entryRuns qsort base routes)) ∨
      (path ∈ files.writtenClaimPaths ∧ path ∉ runPaths qsort (claimRuns qsort base routes)) := by
  simp only [snapshotUnlinks, mem_append, mem_filter, Bool.not_eq_true',
    ← stringArrayBinaryContains_iff (runPaths_sorted qsort _), Bool.not_eq_true]

lemma mem_pathRuns (hrun : run ∈ pathRuns qsort items) :
    (∃ item ∈ items, item.1 = run.1) ∧
      run.2.Perm ((items.filter fun item => item.1 = run.1).map (·.2)) := by
  obtain ⟨group, hgroup, hhead⟩ := mem_filterMap.mp hrun
  obtain ⟨first, hfirst, rfl⟩ := Option.map_eq_some_iff.mp hhead
  have hmem : first ∈ group := mem_of_head? hfirst
  have hsorted := qsort.sorted_by_text (fun item : Text × Route => item.1) items
  have hclass := Runs.run_eq_filter textLe_antisymm (fun a b => by simp) hsorted hgroup hmem
  have hperm := qsort.perm (fun a b : Text × Route => strcmp a.1 b.1) items
  refine ⟨⟨first, ?_, rfl⟩, ?_⟩
  · rw [hclass] at hmem
    exact hperm.mem_iff.mp (mem_of_mem_filter hmem)
  · rw [hclass]
    exact (hperm.filter _).map _

lemma exists_mem_pathRuns {item : Text × Route} (hitem : item ∈ items) :
    ∃ run ∈ pathRuns qsort items, run.1 = item.1 := by
  have hperm := qsort.perm (fun a b : Text × Route => strcmp a.1 b.1) items
  have hflat : item ∈ ((qsort.sort (fun a b => strcmp a.1 b.1) items).splitBy
      fun a b => a.1 = b.1).flatten := by
    rw [flatten_splitBy]
    exact hperm.mem_iff.mpr hitem
  obtain ⟨group, hgroup, hmem⟩ := mem_flatten.mp hflat
  cases hfirst : group.head? with
  | none =>
    rw [head?_eq_none_iff] at hfirst
    exact absurd hmem (hfirst ▸ not_mem_nil)
  | some first =>
    have hsame : ∀ a b : Text × Route, decide (a.1 = b.1) = true ↔ a.1 = b.1 := fun a b => decide_eq_true_iff
    have hkey : first.1 = item.1 := Runs.key_eq_of_mem_run hsame hgroup (mem_of_head? hfirst) hmem
    exact ⟨(first.1, group.map (·.2)), mem_filterMap.mpr ⟨group, hgroup, by rw [hfirst]; rfl⟩, hkey⟩

lemma ne_nil_of_mem_pathRuns (hrun : run ∈ pathRuns qsort items) : run.2 ≠ [] := by
  obtain ⟨group, hgroup, hhead⟩ := mem_filterMap.mp hrun
  obtain ⟨first, hfirst, rfl⟩ := Option.map_eq_some_iff.mp hhead
  exact ne_nil_of_mem (mem_map_of_mem (mem_of_head? hfirst))

lemma buildNetworkRouteSnapshot_ne_nil {route : Route} (hroute : route ∈ routes) :
    buildNetworkRouteSnapshot qsort routes route.networkId ≠ [] := by
  obtain ⟨i, hi⟩ := mem_iff_getElem?.mp hroute
  have hposition : (route, i) ∈ qsort.sort compareNetworkRouteIdentity
      (routes.zipIdx.filter fun item => item.1.networkId = route.networkId) := by
    refine (qsort.perm _ _).mem_iff.mpr (mem_filter.mpr ⟨?_, by simp⟩)
    exact mem_zipIdx_iff_getElem?.mpr hi
  rw [← flatten_splitBy sameNetworkRouteIdentity (qsort.sort _ _)] at hposition
  obtain ⟨run, hrun, hmem⟩ := mem_flatten.mp hposition
  have hlast := getLast?_eq_some_getLast (ne_nil_of_mem hmem)
  have hselected := mem_filterMap.mpr ⟨run, hrun, hlast⟩
  have hsorted := (qsort.perm (fun a b : Route × Nat => compare a.2 b.2) _).mem_iff.mpr hselected
  exact ne_nil_of_mem (mem_map_of_mem hsorted)

end Files

/-! ## One file -/

/-- What a write can do: it fails, finds the file good enough, or replaces it. -/
inductive FileWrite (pass : SnapshotPass) (st : PassState) (path : Text) (routes : List Route) :
    Bool × PassState → Prop where
  | failed : FileWrite pass st path routes (false, st.counted)
  | skipped (file : RouteFile) : st.disk path = some file →
      st.signatures path = some (routesJson routes) → pass.newer st path = false →
      routeTableFileFreshForReuse pass.ttl file (waitsForFirstHandshake pass.refreshes routes)
          (pass.next st).nowMs = true ∨ routes = [] →
      FileWrite pass st path routes (true, st.counted)
  | written : pass.newer st path = false →
      (∀ file, st.disk path = some file → st.signatures path = some (routesJson routes) →
        routeTableFileFreshForReuse pass.ttl file (waitsForFirstHandshake pass.refreshes routes)
          (pass.next st).nowMs = false ∧ routes ≠ []) →
      FileWrite pass st path routes (true, { st.counted with
        disk := Function.update st.disk path (some (pass.document routes (pass.next st).nowMs))
        signatures := Function.update st.signatures path (some (routesJson routes)) })

lemma writeFileIfChanged_write (pass : SnapshotPass) (st : PassState) (path : Text) (routes : List Route) :
    FileWrite pass st path routes (pass.writeFileIfChanged st path routes) := by
  have direct : (∀ file, st.disk path = some file → st.signatures path = some (routesJson routes) →
      routeTableFileFreshForReuse pass.ttl file (waitsForFirstHandshake pass.refreshes routes)
        (pass.next st).nowMs = false ∧ routes ≠ []) →
      FileWrite pass st path routes (pass.writeFile st path routes) := by
    intro hstale
    unfold writeFile
    split
    · exact .failed
    next hgo => exact .written (by simpa using fun h => hgo (.inl h)) hstale
  unfold writeFileIfChanged
  split
  next hnone => exact direct fun file hfile => absurd (hnone.symm.trans hfile) nofun
  next file hfile =>
    split
    next hsignature =>
      split
      · exact .failed
      next hnewer =>
        split
        next hfresh => exact .skipped file hfile hsignature (by simpa using hnewer) (.inl hfresh)
        next hfresh =>
          split
          next hempty => exact .skipped file hfile hsignature (by simpa using hnewer) (.inr hempty)
          next hsome =>
            refine direct fun file' hfile' _ => ?_
            obtain rfl := Option.mem_unique hfile hfile'
            exact ⟨by simpa using hfresh, hsome⟩
    next hsignature => exact direct fun _ _ h => absurd h hsignature

/-- What an unlink can do: it fails, or the file is gone. -/
inductive FileUnlink (pass : SnapshotPass) (st : PassState) (path : Text) : Bool × PassState → Prop where
  | failed : FileUnlink pass st path (false, st.counted)
  | removed : pass.newer st path = false → FileUnlink pass st path (true, { st.counted with
      disk := Function.update st.disk path none
      signatures := Function.update st.signatures path none })

lemma unlink_unlink (pass : SnapshotPass) (st : PassState) (path : Text) :
    FileUnlink pass st path (pass.unlink st path) := by
  unfold unlink
  split
  · exact .failed
  next hgo => exact .removed (by simpa using fun h => hgo (.inl h))

section

variable {pass : SnapshotPass} {st : PassState} {path target : Text} {routes : List Route} {result : Bool × PassState}

lemma FileWrite.elsewhere (h : FileWrite pass st target routes result) (hpath : path ≠ target) :
    result.2.disk path = st.disk path ∧ result.2.signatures path = st.signatures path := by
  cases h with
  | failed | skipped => exact ⟨rfl, rfl⟩
  | written => exact ⟨update_of_ne hpath .., update_of_ne hpath ..⟩

lemma FileUnlink.elsewhere (h : FileUnlink pass st target result) (hpath : path ≠ target) :
    result.2.disk path = st.disk path ∧ result.2.signatures path = st.signatures path := by
  cases h with
  | failed => exact ⟨rfl, rfl⟩
  | removed => exact ⟨update_of_ne hpath .., update_of_ne hpath ..⟩

end

/-! ## Loops -/

section Loops

variable {α : Type} {operation : PassState → α → Bool × PassState}

lemma runOperations_nil (st : PassState) : runOperations operation st [] = (true, st) := rfl

lemma runOperations_cons (st : PassState) (item : α) (items : List α) :
    runOperations operation st (item :: items) =
      ((runOperations operation (operation st item).2 items).1 && (operation st item).1,
        (runOperations operation (operation st item).2 items).2) := by
  have hdef : ∀ items st, runOperations operation st items =
      items.foldl (fun acc item => ((operation acc.2 item).1 && acc.1, (operation acc.2 item).2)) (true, st) :=
    fun _ _ => rfl
  -- the accumulated result only takes part in the conjunction
  have hstart : ∀ items result st,
      items.foldl (fun acc item => ((operation acc.2 item).1 && acc.1, (operation acc.2 item).2)) (result, st) =
      ((runOperations operation st items).1 && result, (runOperations operation st items).2) := by
    intro items
    induction items with
    | nil => exact fun result st => by simp [runOperations]
    | cons item items ih =>
      intro result st
      rw [hdef (item :: items), foldl_cons, foldl_cons, ih, ih]
      simp only [Bool.and_true, Bool.and_assoc]
  rw [hdef, foldl_cons, hstart, Bool.and_true]

lemma runOperations_append (st : PassState) (first second : List α) :
    runOperations operation st (first ++ second) =
      ((runOperations operation (runOperations operation st first).2 second).1 &&
          (runOperations operation st first).1,
        (runOperations operation (runOperations operation st first).2 second).2) := by
  induction first generalizing st with
  | nil => simp [runOperations_nil]
  | cons item first ih => simp only [cons_append, runOperations_cons, ih, Bool.and_assoc]

lemma runOperations_keeps {P : PassState → Prop} {st : PassState} {items : List α}
    (hstep : ∀ st item, item ∈ items → P st → P (operation st item).2) (hst : P st) :
    P (runOperations operation st items).2 := by
  induction items generalizing st with
  | nil => exact hst
  | cons item items ih =>
    rw [runOperations_cons]
    exact ih (fun st item hmem => hstep st item (mem_cons_of_mem _ hmem))
      (hstep st item mem_cons_self hst)

end Loops

/-! ## A pass that succeeds -/

lemma writeRouteSnapshot_of_ok {qsort : Qsort} {call : SnapshotCall} {files : RouteFiles} {disk : Disk}
    (hok : (writeRouteSnapshot qsort call files disk).1 = true) :
    (call.operations qsort files disk).1 = true ∧
      writeRouteSnapshot qsort call files disk =
        (true,
          ({ files with sequence := files.sequence + 1 } : RouteFiles).finished qsort
            call.writer.routeTablePath call.routes true (call.operations qsort files disk).2.signatures
            (call.attempt (call.operations qsort files disk).2.operations).nowMs,
          (call.operations qsort files disk).2.disk) := by
  unfold writeRouteSnapshot at hok ⊢
  split at hok
  · cases hok
  next hnewer =>
    have hoperations : (call.operations qsort files disk).1 = true := hok
    rw [if_neg hnewer]
    refine ⟨hoperations, ?_⟩
    simp only [hoperations]

end PortManager.Native
