import PortManager.Native.RouteHeartbeat

/-!
# The table of a network

C `pm_build_network_route_snapshot` sorts positions by port, direction and position, takes the last of
each run and sorts what it took back into list order. The result is the list without the routes that a
later route of the same network, port and direction replaces (`buildNetworkRouteSnapshot_eq`): the
last owner wins, as in the quadratic loop this function took the place of (`snapshot_eq_dedupe`).
-/

namespace PortManager.Native
open CText List Ordering
open Std (TransCmp OrientedCmp)

/-! ## Last owners -/

/-- Is the later route of the same endpoint and direction? -/
def Route.replacedBy (route later : Route) : Bool :=
  later.networkId = route.networkId ∧ later.logicalPort = route.logicalPort ∧
    later.routeDirection = route.routeDirection

/-- The routes of a network without those that a later one replaces. -/
def lastOwners (network : Text) : List Route → List Route
  | [] => []
  | route :: rest =>
    if route.networkId = network ∧ rest.all (fun later => !route.replacedBy later)
    then route :: lastOwners network rest else lastOwners network rest

def Unreplaced (positions : List (Route × Nat)) (item : Route × Nat) : Prop :=
  ∀ other ∈ positions, sameNetworkRouteIdentity item other = true → other.2 ≤ item.2

instance (positions : List (Route × Nat)) (item : Route × Nat) : Decidable (Unreplaced positions item) :=
  inferInstanceAs (Decidable (∀ other ∈ positions, _))

def networkPositions (routes : List Route) (network : Text) (start : Nat) : List (Route × Nat) :=
  (routes.zipIdx start).filter fun item => item.1.networkId = network

lemma networkPositions_cons (route : Route) (routes : List Route) (network : Text) (start : Nat) :
    networkPositions (route :: routes) network start =
      if route.networkId = network then (route, start) :: networkPositions routes network (start + 1)
      else networkPositions routes network (start + 1) := by
  simp only [networkPositions, zipIdx_cons, filter_cons, decide_eq_true_eq]

variable {routes : List Route} {network : Text} {start : Nat} {item : Route × Nat} {route : Route}
    {positions : List (Route × Nat)}

lemma networkPositions_start_le (hitem : item ∈ networkPositions routes network start) : start ≤ item.2 := by
  obtain ⟨hmem, -⟩ := mem_filter.mp hitem
  exact (mem_zipIdx hmem).1

lemma networkPositions_pairwise (routes : List Route) (network : Text) (start : Nat) :
    (networkPositions routes network start).Pairwise fun a b => a.2 < b.2 := by
  induction routes generalizing start with
  | nil => exact .nil
  | cons route routes ih =>
    rw [networkPositions_cons]
    split
    · exact .cons (fun b hb => networkPositions_start_le hb) (ih (start + 1))
    · exact ih (start + 1)

lemma mem_networkPositions_route :
    (∃ position, (route, position) ∈ networkPositions routes network start) ↔
      route ∈ routes ∧ route.networkId = network := by
  constructor
  · rintro ⟨position, hmem⟩
    obtain ⟨hzip, hnetwork⟩ := mem_filter.mp hmem
    exact ⟨(mem_zipIdx hzip).2.2 ▸ getElem_mem _, by simpa using hnetwork⟩
  · rintro ⟨hroute, hnetwork⟩
    obtain ⟨i, hi⟩ := mem_iff_getElem?.mp hroute
    refine ⟨start + i, mem_filter.mpr ⟨?_, by simpa using hnetwork⟩⟩
    exact mk_add_mem_zipIdx_iff_getElem?.mpr hi

lemma unreplaced_cons {first : Route × Nat} (hle : first.2 ≤ item.2) :
    Unreplaced (first :: positions) item ↔ Unreplaced positions item := by
  constructor
  · exact fun h other hother => h other (mem_cons_of_mem _ hother)
  intro h other hother hsame
  rcases mem_cons.mp hother with rfl | hother
  · exact hle
  · exact h other hother hsame

lemma unreplaced_first (start : Nat) (hnetwork : route.networkId = network) :
    Unreplaced ((route, start) :: networkPositions routes network (start + 1)) (route, start) ↔
      routes.all (fun later => !route.replacedBy later) = true := by
  rw [unreplaced_cons (le_refl _), all_eq_true]
  constructor
  · intro h later hlater
    by_contra hreplaced
    simp only [Bool.not_eq_true', Bool.not_eq_false, Route.replacedBy, decide_eq_true_eq] at hreplaced
    obtain ⟨hsame, hport, hdirection⟩ := hreplaced
    obtain ⟨position, hmem⟩ := mem_networkPositions_route.mpr ⟨hlater, hsame.trans hnetwork⟩
    have hle : position ≤ start := h _ hmem (by simp [sameNetworkRouteIdentity, hport, hdirection])
    have hlt : start + 1 ≤ position := networkPositions_start_le hmem
    omega
  · intro h other hother hsame
    obtain ⟨hmem, hother'⟩ := mem_networkPositions_route.mp ⟨other.2, hother⟩
    simp only [sameNetworkRouteIdentity, decide_eq_true_eq] at hsame
    have hnot := h _ hmem
    simp [Route.replacedBy, hother', hnetwork, hsame.1, hsame.2] at hnot

/-- The unreplaced positions hold the last owners, in list order. -/
lemma map_unreplaced (routes : List Route) (network : Text) (start : Nat) :
    ((networkPositions routes network start).filter
        (Unreplaced (networkPositions routes network start) ·)).map (·.1) = lastOwners network routes := by
  induction routes generalizing start with
  | nil => rfl
  | cons route routes ih =>
    rw [networkPositions_cons, lastOwners]
    by_cases hnetwork : route.networkId = network
    · have htail : (networkPositions routes network (start + 1)).filter
          (Unreplaced ((route, start) :: networkPositions routes network (start + 1)) ·) =
          (networkPositions routes network (start + 1)).filter
            (Unreplaced (networkPositions routes network (start + 1)) ·) := by
        refine filter_congr fun item hitem => decide_eq_decide.mpr (unreplaced_cons ?_)
        have hle := networkPositions_start_le hitem
        change start ≤ item.2
        omega
      rw [if_pos hnetwork]
      by_cases hkept : routes.all (fun later => !route.replacedBy later) = true
      · have hfirst := (unreplaced_first start hnetwork).mpr hkept
        rw [if_pos ⟨hnetwork, hkept⟩, filter_cons_of_pos (by simpa using hfirst), htail, map_cons, ih]
      · have hfirst := mt (unreplaced_first start hnetwork).mp hkept
        rw [if_neg (fun h => hkept h.2), filter_cons_of_neg (by simpa using hfirst), htail, ih]
    · simp only [hnetwork, if_false, false_and]
      exact ih (start + 1)

/-! ## The selection -/

lemma Qsort.pairwise_isLE (qsort : Qsort) {α : Type} (cmp : α → α → Ordering) [TransCmp cmp] (items : List α) :
    (qsort.sort cmp items).Pairwise fun a b => (cmp a b).isLE := by
  refine (qsort.sorted cmp items ?_ ?_).imp fun h => isLE_iff_ne_gt.mpr h
  · intro a b h
    have hswap : cmp b a = (cmp a b).swap := OrientedCmp.eq_swap
    rw [hswap, h]
    nofun
  · intro a b c hab hbc
    exact isLE_iff_ne_gt.mp
      (TransCmp.isLE_trans (isLE_iff_ne_gt.mpr hab) (isLE_iff_ne_gt.mpr hbc))

def Direction.rank : Direction → Nat
  | .listen => 0
  | .send => 1

lemma Direction.rank_injective {a b : Direction} (h : a.rank = b.rank) : a = b := by
  cases a <;> cases b <;> first | rfl | cases h

lemma strcmp_direction (a b : Direction) : strcmp a.text b.text = compare a.rank b.rank := by
  cases a <;> cases b <;> decide

abbrev compareEndpoint : Route × Nat → Route × Nat → Ordering :=
  compareLex (compareOn (·.1.logicalPort)) (compareOn (·.1.routeDirection.rank))

lemma compareNetworkRouteIdentity_eq : compareNetworkRouteIdentity = compareLex compareEndpoint (compareOn (·.2)) := by
  funext a b
  simp only [compareNetworkRouteIdentity, strcmp_direction, compareLex, compareOn, then_assoc]

instance : TransCmp compareNetworkRouteIdentity := by
  rw [compareNetworkRouteIdentity_eq]
  infer_instance

def endpointKey (item : Route × Nat) : Int × Direction := (item.1.logicalPort, item.1.routeDirection)

def endpointLe (a b : Int × Direction) : Prop := a.1 < b.1 ∨ a.1 = b.1 ∧ a.2.rank ≤ b.2.rank

lemma endpointLe_antisymm (a b : Int × Direction) (hab : endpointLe a b) (hba : endpointLe b a) : a = b := by
  rcases hab with hab | ⟨hport, hab⟩
  · rcases hba with hba | ⟨hport, -⟩ <;> omega
  rcases hba with hba | ⟨-, hba⟩
  · omega
  · exact Prod.ext hport (Direction.rank_injective (le_antisymm hab hba))

lemma sameNetworkRouteIdentity_iff (a b : Route × Nat) :
    sameNetworkRouteIdentity a b = true ↔ endpointKey a = endpointKey b := by
  simp only [sameNetworkRouteIdentity, decide_eq_true_eq, endpointKey, Prod.mk.injEq]

lemma isLE_compareNetworkRouteIdentity {a b : Route × Nat} (h : (compareNetworkRouteIdentity a b).isLE = true) :
    endpointLe (endpointKey a) (endpointKey b) ∧ (endpointKey a = endpointKey b → a.2 ≤ b.2) := by
  rw [compareNetworkRouteIdentity_eq] at h
  simp only [compareLex, compareOn, isLE_then_iff_or, then_eq_lt, then_eq_eq,
    compare_lt_iff_lt, compare_eq_iff_eq, Nat.isLE_compare] at h
  rcases h with (hport | ⟨hport, hrank⟩) | ⟨⟨hport, hrank⟩, hposition⟩
  · exact ⟨.inl hport, fun heq => absurd (congrArg Prod.fst heq) (ne_of_lt hport)⟩
  · refine ⟨.inr ⟨hport, hrank.le⟩, fun heq => ?_⟩
    have hdirection : a.1.routeDirection = b.1.routeDirection := congrArg Prod.snd heq
    exact absurd (congrArg Direction.rank hdirection) (ne_of_lt hrank)
  · exact ⟨.inr ⟨hport, hrank.le⟩, fun _ => hposition⟩

variable (hsorted : positions.Pairwise fun a b => (compareNetworkRouteIdentity a b).isLE)
include hsorted

lemma getLast_run {run : List (Route × Nat)}
    (hrun : run ∈ positions.splitBy sameNetworkRouteIdentity) (hlast : run.getLast? = some item) :
    item ∈ positions ∧ Unreplaced positions item := by
  have hmem : item ∈ run := mem_of_getLast? hlast
  have hclass : run = positions.filter fun b => endpointKey b = endpointKey item :=
    Runs.run_eq_filter endpointLe_antisymm sameNetworkRouteIdentity_iff
      (hsorted.imp fun h => (isLE_compareNetworkRouteIdentity h).1) hrun hmem
  refine ⟨mem_of_mem_filter (hclass ▸ hmem), fun other hother hsame => ?_⟩
  have hkey := (sameNetworkRouteIdentity_iff _ _).mp hsame
  have hotherRun : other ∈ run := by
    rw [hclass]
    exact mem_filter.mpr ⟨hother, by simpa using hkey.symm⟩
  have hrunSorted : run.Pairwise fun a b => (compareNetworkRouteIdentity a b).isLE := by
    rw [hclass]
    exact hsorted.filter _
  obtain ⟨before, rfl⟩ := getLast?_eq_some_iff.mp hlast
  rcases mem_append.mp hotherRun with hbefore | hself
  · have hle := (pairwise_append.mp hrunSorted).2.2 other hbefore item (mem_singleton.mpr rfl)
    exact (isLE_compareNetworkRouteIdentity hle).2 hkey.symm
  · rw [mem_singleton.mp hself]

lemma mem_selected (hdistinct : ∀ a ∈ positions, ∀ b ∈ positions, a.2 = b.2 → a = b) :
    item ∈ (positions.splitBy sameNetworkRouteIdentity).filterMap List.getLast? ↔
      item ∈ positions ∧ Unreplaced positions item := by
  constructor
  · intro hitem
    obtain ⟨run, hrun, hlast⟩ := mem_filterMap.mp hitem
    exact getLast_run hsorted hrun hlast
  rintro ⟨hmem, hunreplaced⟩
  have hflat : item ∈ (positions.splitBy sameNetworkRouteIdentity).flatten := by
    rwa [flatten_splitBy]
  obtain ⟨run, hrun, hitem⟩ := mem_flatten.mp hflat
  obtain ⟨last, hlast⟩ : ∃ last, run.getLast? = some last :=
    ⟨_, getLast?_eq_some_getLast (ne_nil_of_mem hitem)⟩
  obtain ⟨hlastMem, hlastUnreplaced⟩ := getLast_run hsorted hrun hlast
  have hkey : endpointKey item = endpointKey last :=
    Runs.key_eq_of_mem_run sameNetworkRouteIdentity_iff hrun hitem (mem_of_getLast? hlast)
  have hle := hunreplaced last hlastMem ((sameNetworkRouteIdentity_iff _ _).mpr hkey)
  have hge := hlastUnreplaced item hmem ((sameNetworkRouteIdentity_iff _ _).mpr hkey.symm)
  rw [hdistinct item hmem last hlastMem (le_antisymm hge hle)]
  exact mem_filterMap.mpr ⟨run, hrun, hlast⟩

lemma nodup_selected : ((positions.splitBy sameNetworkRouteIdentity).filterMap List.getLast?).Nodup := by
  have hkeys := Runs.pairwise_key_ne endpointLe_antisymm sameNetworkRouteIdentity_iff
    (hsorted.imp fun h => (isLE_compareNetworkRouteIdentity h).1)
  refine hkeys.filterMap _ fun run run' hne a ha b hb hab => ?_
  exact hne a (mem_of_getLast? ha) b (mem_of_getLast? hb) (congrArg endpointKey hab)

omit hsorted

lemma unreplaced_of_perm {positions' : List (Route × Nat)} (hperm : positions.Perm positions')
    (item : Route × Nat) : Unreplaced positions item ↔ Unreplaced positions' item := by
  simp only [Unreplaced, hperm.mem_iff]

lemma buildNetworkRouteSnapshot_eq (qsort : Qsort) (routes : List Route) (network : Text) :
    buildNetworkRouteSnapshot qsort routes network = lastOwners network routes := by
  rw [← map_unreplaced routes network 0]
  simp only [buildNetworkRouteSnapshot]
  rw [← networkPositions]
  congr 1
  generalize hpositions : networkPositions routes network 0 = positions
  have hincreasing : positions.Pairwise fun a b => a.2 < b.2 := hpositions ▸ networkPositions_pairwise ..
  have hnodup : (positions.map (·.2)).Nodup := pairwise_map.mpr (hincreasing.imp ne_of_lt)
  have hsorted := qsort.pairwise_isLE compareNetworkRouteIdentity positions
  have hperm := qsort.perm compareNetworkRouteIdentity positions
  generalize qsort.sort compareNetworkRouteIdentity positions = sorted at hsorted hperm
  have hdistinct : ∀ a ∈ sorted, ∀ b ∈ sorted, a.2 = b.2 → a = b := fun a ha b hb h =>
    inj_on_of_nodup_map hnodup (hperm.mem_iff.mp ha) (hperm.mem_iff.mp hb) h
  have hselected : ((sorted.splitBy sameNetworkRouteIdentity).filterMap List.getLast?).Perm
      (positions.filter (Unreplaced positions ·)) := by
    refine (perm_ext_iff_of_nodup (nodup_selected hsorted) (hnodup.of_map.filter _)).mpr fun item => ?_
    rw [mem_selected hsorted hdistinct, mem_filter, decide_eq_true_eq, hperm.mem_iff,
      unreplaced_of_perm hperm]
  generalize (sorted.splitBy sameNetworkRouteIdentity).filterMap List.getLast? = selected at hselected
  -- both lists are in the order of the positions
  have hleft : (qsort.sort (fun a b => compare a.2 b.2) selected).Pairwise fun a b => a.2 ≤ b.2 :=
    (qsort.pairwise_isLE (compareOn (·.2)) selected).imp Nat.isLE_compare.mp
  have hright : (positions.filter (Unreplaced positions ·)).Pairwise fun a b => a.2 ≤ b.2 :=
    (hincreasing.filter _).imp le_of_lt
  refine ((qsort.perm _ _).trans hselected).eq_of_pairwise (fun a b ha hb hab hba => ?_) hleft hright
  have ha' := hselected.mem_iff.mp ((qsort.perm _ _).mem_iff.mp ha)
  exact inj_on_of_nodup_map hnodup (mem_of_mem_filter ha') (mem_of_mem_filter hb)
    (le_antisymm hab hba)

/-! ## The quadratic loop -/

/-- The bounds of the fields `network_id` and `logical_port` of C `pm_route`. -/
def Route.Fits (route : Route) : Prop :=
  route.networkId.length < PM_SMALL ∧ route.logicalPort.natAbs ≤ 2 ^ 31

lemma routeIdentity_of_fits (h : route.Fits) : routeIdentity route =
    route.networkId ++ 58 :: decimal route.logicalPort ++ 58 :: route.routeDirection.text := by
  obtain ⟨hnetwork, hport⟩ := h
  have hdigits := length_decimal_le (n := route.logicalPort) (k := 10) (by omega) (by omega)
  have hdirection : route.routeDirection.text.length ≤ 6 := by cases route.routeDirection <;> decide
  refine truncate_of_length_lt ?_
  simp only [length_append, length_cons, PM_TEXT, PM_SMALL] at *
  omega

lemma routeIdentity_eq_iff {later : Route} (h : route.Fits) (hlater : later.Fits) :
    routeIdentity later = routeIdentity route ↔ route.replacedBy later = true := by
  have hcolon (direction : Direction) : 58 ∉ direction.text := by cases direction <;> decide
  rw [routeIdentity_of_fits h, routeIdentity_of_fits hlater, Route.replacedBy, decide_eq_true_iff]
  constructor
  · intro hsame
    obtain ⟨hendpoint, hdirection⟩ := split_at_last (hcolon _) (hcolon _) hsame
    obtain ⟨hnetwork, hport⟩ := split_at_last (colon_not_mem_decimal _) (colon_not_mem_decimal _) hendpoint
    refine ⟨hnetwork, decimal_inj hport, Direction.rank_injective ?_⟩
    rw [← compare_eq_iff_eq, ← strcmp_direction, hdirection, strcmp_direction, compare_eq_iff_eq]
  · rintro ⟨hnetwork, hport, hdirection⟩
    rw [hnetwork, hport, hdirection]

lemma eraseP_eq_filter (p : Route → Bool) (h : routes.Pairwise fun a b => p a → ¬ p b) :
    routes.eraseP p = routes.filter (!p ·) := by
  induction h with
  | nil => rfl
  | @cons route routes hfirst _ ih =>
    by_cases hp : p route
    · rw [eraseP_cons_of_pos hp, filter_cons_of_neg (by simpa using hp)]
      exact (filter_eq_self.mpr fun other hother => by simpa using hfirst other hother hp).symm
    · rw [eraseP_cons_of_neg hp, filter_cons_of_pos (by simpa using hp), ih]

lemma lastOwners_sublist (network : Text) (routes : List Route) : (lastOwners network routes).Sublist routes := by
  induction routes with
  | nil => exact .slnil
  | cons route routes ih =>
    rw [lastOwners]
    split
    · exact ih.cons_cons route
    · exact ih.cons route

lemma lastOwners_pairwise (network : Text) (routes : List Route) :
    (lastOwners network routes).Pairwise fun a b => a.replacedBy b = false := by
  induction routes with
  | nil => exact .nil
  | cons route routes ih =>
    rw [lastOwners]
    split
    next hlast =>
      refine .cons (fun later hlater => ?_) ih
      simpa using all_eq_true.mp hlast.2 later ((lastOwners_sublist network routes).subset hlater)
    next => exact ih

lemma lastOwners_concat (network : Text) (routes : List Route) (route : Route) :
    lastOwners network (routes ++ [route]) =
      if route.networkId = network then (lastOwners network routes).filter (!·.replacedBy route) ++ [route]
      else lastOwners network routes := by
  induction routes with
  | nil => simp [lastOwners]
  | cons first routes ih =>
    have hsame : first.replacedBy route = true → route.networkId = first.networkId := fun h => (of_decide_eq_true h).1
    rw [cons_append, lastOwners, lastOwners, ih, all_append]
    cases hreplaced : first.replacedBy route <;> split_ifs <;> simp_all

/-- The two sorts give what C `pm_route_list_add_dedupe` makes of the network's routes, one after the other. -/
theorem snapshot_eq_dedupe (qsort : Qsort) (routes : List Route) (network : Text)
    (hfits : ∀ route ∈ routes, route.Fits) :
    buildNetworkRouteSnapshot qsort routes network =
      (routes.filter (·.networkId = network)).foldl routeListAddDedupe [] := by
  rw [buildNetworkRouteSnapshot_eq]
  induction routes using reverseRecOn with
  | nil => rfl
  | append_singleton routes route ih =>
    have hkept : ∀ other ∈ lastOwners network routes, other.Fits := fun other hother =>
      hfits other (mem_append_left _ ((lastOwners_sublist network routes).subset hother))
    rw [lastOwners_concat, filter_append, foldl_append,
      ← ih fun other hother => hfits other (mem_append_left _ hother)]
    split_ifs with hnetwork
    · rw [filter_cons_of_pos (by simpa using hnetwork), filter_nil, foldl_cons, foldl_nil, routeListAddDedupe,
        eraseP_eq_filter]
      · refine congrArg (· ++ [route]) (filter_congr fun other hother => ?_)
        simp [routeIdentity_eq_iff (hkept other hother) (hfits route mem_concat_self)]
      · -- two routes with the identity of this one would replace each other
        refine (lastOwners_pairwise network routes).imp_of_mem fun ha hb hne ha' hb' => ?_
        have hsame := (of_decide_eq_true hb').symm.trans (of_decide_eq_true ha')
        rw [routeIdentity_eq_iff (hkept _ ha) (hkept _ hb), hne] at hsame
        cases hsame
    · rw [filter_cons_of_neg (by simpa using hnetwork)]
      rfl

theorem snapshot_eq_dedupe_reallocated :
    buildNetworkRouteSnapshot insertionQsort [sampleRoute, { sampleRoute with actualPort := 4001 }] (ascii "net") =
      [{ sampleRoute with actualPort := 4001 }] :=
  (snapshot_eq_dedupe _ _ _ (by simp [Route.Fits, sampleRoute, PM_SMALL, ascii])).trans (by decide +kernel)

end PortManager.Native
