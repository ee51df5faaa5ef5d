import PortManager.Base.Run
import PortManager.Node.Registry

/-!
# Which row is visible

The route list of the Node daemon has one route for each network, port and direction, and a running row
hides a pending allocation. Among running rows `dedupeLogicalRoutes` keeps the last in the order of the
registry's `Map`. A new row goes to the end of the `Map`, but `upsertRegisteredProcess` updates the row of a
process that registers the same ports again in place. So the visible row is the most recently registered one
as long as no registration updates a row that has a running row of the same identity behind it
(`routes_right_iff`).
-/

namespace PortManager.Node
open JsonText Run List InsertionMap Function RouteRegistry ManagedProcess

/-! ## Identities -/

def routeIdentity (route : LogicalPortRoute) : List Nat × Nat × RouteDirection :=
  (route.networkId.getD [], route.logicalPort, normalizeRouteDirection route.routeDirection)

lemma colon_not_mem_direction (direction : RouteDirection) : 58 ∉ direction.text := by
  cases direction <;> decide

lemma direction_text_injective {a b : RouteDirection} (h : a.text = b.text) : a = b := by
  cases a <;> cases b
  · rfl
  · cases h
  · cases h
  · rfl

variable {route : LogicalPortRoute}

lemma buildLogicalRouteIdentity_eq_iff {route' : LogicalPortRoute} :
    buildLogicalRouteIdentity route = buildLogicalRouteIdentity route' ↔ routeIdentity route = routeIdentity route' := by
  constructor
  · intro h
    obtain ⟨hendpoint, hdirection⟩ := split_at_last (colon_not_mem_direction _) (colon_not_mem_direction _) h
    obtain ⟨hnetwork, hport⟩ := buildLogicalEndpointIdentity_eq_iff.mp hendpoint
    exact Prod.ext hnetwork (Prod.ext hport (direction_text_injective hdirection))
  · intro h
    obtain ⟨hnetwork, hrest⟩ := Prod.mk.inj h
    obtain ⟨hport, hdirection⟩ := Prod.mk.inj hrest
    simp only [buildLogicalRouteIdentity, buildLogicalEndpointIdentity, hnetwork, hport, hdirection]

lemma mem_dedupeLogicalRoutes {routes : List LogicalPortRoute} :
    route ∈ dedupeLogicalRoutes routes ↔
      ∃ before after, routes = before ++ route :: after ∧ ∀ later ∈ after, routeIdentity later ≠ routeIdentity route := by
  rw [dedupeLogicalRoutes, values, mem_map]
  constructor
  · rintro ⟨item, hitem, rfl⟩
    obtain ⟨before, after, hsplit, hafter⟩ := mem_lastOfEach.mp hitem
    obtain ⟨first, rest, rfl, rfl, hrest⟩ := map_eq_append_iff.mp hsplit
    obtain ⟨found, tail, rfl, rfl, rfl⟩ := map_eq_cons_iff.mp hrest
    refine ⟨first, tail, rfl, fun later hlater heq => ?_⟩
    exact hafter _ (mem_map_of_mem hlater) (buildLogicalRouteIdentity_eq_iff.mpr heq)
  · rintro ⟨before, after, rfl, hafter⟩
    refine ⟨(buildLogicalRouteIdentity route, route), ?_, rfl⟩
    rw [map_append, map_cons]
    refine mem_lastOfEach.mpr ⟨_, _, rfl, fun later hlater => ?_⟩
    obtain ⟨found, hfound, rfl⟩ := mem_map.mp hlater
    exact fun heq => hafter found hfound (buildLogicalRouteIdentity_eq_iff.mp heq)

lemma nodup_dedupeLogicalRoutes (routes : List LogicalPortRoute) :
    ((dedupeLogicalRoutes routes).map routeIdentity).Nodup := by
  generalize hitems : routes.map (fun route => (buildLogicalRouteIdentity route, route)) = items
  have hkeys : ∀ entry ∈ (lastOfEach items).entries, entry.1 = buildLogicalRouteIdentity entry.2 := by
    intro entry hentry
    obtain ⟨before, after, hsplit, -⟩ := mem_lastOfEach.mp hentry
    have hmem : entry ∈ routes.map fun route => (buildLogicalRouteIdentity route, route) := by
      rw [hitems, hsplit]
      exact mem_append_right _ mem_cons_self
    obtain ⟨route, -, rfl⟩ := mem_map.mp hmem
    rfl
  rw [dedupeLogicalRoutes, hitems, values, map_map]
  refine pairwise_map.mpr ((pairwise_map.mp (lastOfEach items).nodup).imp_of_mem ?_)
  intro a b ha hb hne heq
  exact hne (by rw [hkeys a ha, hkeys b hb, buildLogicalRouteIdentity_eq_iff.mpr heq])

/-! ## Histories -/

/-- The daemon, and when each row was last passed to `registerExistingProcess`. -/
structure RegistryHistory where
  state : RouteRegistry
  clock : Nat
  registeredAt : List Nat → Nat

inductive RegistryEvent where
  | register (input : RegisteredProcessInput)
  | stop (id : List Nat)
  | remove (id : List Nat)
  /-- `allocateRoute` makes or refreshes an allocation -/
  | allocate (allocation : PendingRouteAllocation)
  /-- an allocation is released or expires -/
  | discard (allocationId : List Nat)

namespace RegistryHistory

def start : RegistryHistory := ⟨⟨.empty, .empty⟩, 0, fun _ => 0⟩

variable (setting : RegistrySetting) (history : RegistryHistory)

def step : RegistryEvent → RegistryHistory
  | .register input =>
    let (id, state) := history.state.registerExistingProcess setting.defaultHost input
    ⟨state, history.clock + 1, Function.update history.registeredAt id history.clock⟩
  | .stop id => { history with state.registry := history.state.registry.stop id }
  | .remove id => { history with state.registry := history.state.registry.remove id }
  | .allocate allocation =>
    { history with state.pendingRouteAllocations :=
        history.state.pendingRouteAllocations.set allocation.id allocation }
  | .discard allocationId =>
    { history with state.pendingRouteAllocations := history.state.pendingRouteAllocations.delete allocationId }

def rows : List (List Nat × ManagedProcess) :=
  history.state.registry.processesById.entries

def running : List (List Nat × ManagedProcess) :=
  history.rows.filter fun row => row.2.routed

def routes : List LogicalPortRoute :=
  buildLogicalRoutes setting.hostOf history.rows
    ((setting.sortPending history.state.pendingRouteAllocations.values).map (·.route))

/-- One route for each identity, a running row hides pending allocations of its identity, and of several
running rows the most recently registered one is visible. -/
structure RoutesRight (setting : RegistrySetting) (history : RegistryHistory) : Prop where
  unique : ((history.routes setting).map routeIdentity).Nodup
  hides : ∀ row ∈ history.running, ∀ route ∈ history.routes setting,
    routeIdentity route = routeIdentity (processRoute setting.hostOf row) →
    ∃ shown ∈ history.running, route = processRoute setting.hostOf shown
  newest : ∀ row ∈ history.running,
    (∀ other ∈ history.running, routeIdentity (processRoute setting.hostOf other) =
      routeIdentity (processRoute setting.hostOf row) → history.registeredAt other.1 ≤ history.registeredAt row.1) →
    processRoute setting.hostOf row ∈ history.routes setting

/-- A registration that updates a row in place: no running row behind it has the identity it gets. -/
def UpdatesLast : RegistryEvent → Prop
  | .register input =>
    let registered := history.state.registeredInput input
    let source := normalizeRegisteredProcessSource input.source
    ∀ row ∈ findRegisteredProcessForRoute history.state.registry registered source,
      ∀ before after, history.rows = before ++ row :: after → ∀ other ∈ after, other.2.routed = true →
        routeIdentity (processRoute setting.hostOf other) ≠ routeIdentity (processRoute setting.hostOf
          (row.1, row.2.reregistered registered source setting.defaultHost))
  | .stop _ | .remove _ | .allocate _ | .discard _ => True

/-! ## The visible row -/

section Visible

variable {setting : RegistrySetting} {history : RegistryHistory}

abbrev rowIdentity (setting : RegistrySetting) (row : List Nat × ManagedProcess) : List Nat × Nat × RouteDirection :=
  routeIdentity (processRoute setting.hostOf row)

lemma nodup_running_keys (history : RegistryHistory) : (history.running.map Prod.fst).Nodup :=
  history.state.registry.processesById.nodup.sublist (filter_sublist.map Prod.fst)

lemma mem_routes_iff {row : List Nat × ManagedProcess} {before after : List (List Nat × ManagedProcess)}
    (hsplit : history.running = before ++ row :: after) :
    processRoute setting.hostOf row ∈ history.routes setting ↔
      ∀ other ∈ after, rowIdentity setting other ≠ rowIdentity setting row := by
  -- the route of the row is not among those behind it, which have other process ids
  have hfresh : processRoute setting.hostOf row ∉ after.map (processRoute setting.hostOf) := by
    intro hmem
    obtain ⟨other, hother, heq⟩ := mem_map.mp hmem
    have hid : other.1 = row.1 := Option.some.inj (congrArg LogicalPortRoute.processId heq)
    have hnodup := nodup_running_keys history
    rw [hsplit, map_append, map_cons] at hnodup
    exact (nodup_cons.mp (nodup_append.mp hnodup).2.1).1 (mem_map.mpr ⟨other, hother, hid⟩)
  unfold routes buildLogicalRoutes
  rw [← running, hsplit, map_append, map_cons, ← append_assoc, mem_dedupeLogicalRoutes]
  constructor
  · rintro ⟨front, back, heq, hback⟩ other hother
    have hlast : processRoute setting.hostOf row ∉ back := fun hmem => hback _ hmem rfl
    obtain ⟨-, rfl⟩ := split_at_last hfresh hlast heq
    exact hback _ (mem_map_of_mem hother)
  · intro hafter
    refine ⟨_, _, rfl, fun later hlater => ?_⟩
    obtain ⟨other, hother, rfl⟩ := mem_map.mp hlater
    exact hafter other hother

lemma routes_hide (row : List Nat × ManagedProcess) (hrow : row ∈ history.running) (route : LogicalPortRoute)
    (hroute : route ∈ history.routes setting) (hidentity : routeIdentity route = rowIdentity setting row) :
    ∃ shown ∈ history.running, route = processRoute setting.hostOf shown := by
  unfold routes buildLogicalRoutes at hroute
  rw [← running] at hroute
  obtain ⟨front, back, heq, hback⟩ := mem_dedupeLogicalRoutes.mp hroute
  have hmem := mem_map_of_mem (f := processRoute setting.hostOf) hrow
  rcases append_eq_append_iff.mp heq with ⟨rest, -, hrest⟩ | ⟨rest, hrest, hbehind⟩
  · have hvisible : route ∈ history.running.map (processRoute setting.hostOf) :=
      hrest ▸ mem_append_right _ mem_cons_self
    obtain ⟨shown, hshown, rfl⟩ := mem_map.mp hvisible
    exact ⟨shown, hshown, rfl⟩
  -- a pending route has the running rows behind it
  cases rest with
  | nil =>
    have hvisible : route ∈ history.running.map (processRoute setting.hostOf) := by
      rw [nil_append] at hbehind
      exact hbehind ▸ mem_cons_self
    obtain ⟨shown, hshown, rfl⟩ := mem_map.mp hvisible
    exact ⟨shown, hshown, rfl⟩
  | cons first rest =>
    obtain ⟨rfl, htail⟩ := List.cons.inj hbehind
    have hlater : processRoute setting.hostOf row ∈ back := htail ▸ mem_append_right _ hmem
    exact absurd hidentity.symm (hback _ hlater)

/-- The order of running rows of one identity is that of their registrations. -/
structure Recent (setting : RegistrySetting) (history : RegistryHistory) : Prop where
  ordered : history.running.Pairwise fun a b => rowIdentity setting a = rowIdentity setting b →
    history.registeredAt a.1 < history.registeredAt b.1
  past : ∀ row ∈ history.rows, history.registeredAt row.1 < history.clock

lemma routesRight_of_recent (hrecent : history.Recent setting) : history.RoutesRight setting where
  unique := nodup_dedupeLogicalRoutes _
  hides := routes_hide
  newest := by
    intro row hrow hnewest
    obtain ⟨before, after, hsplit⟩ := append_of_mem hrow
    refine (mem_routes_iff hsplit).mpr fun other hother hsame => ?_
    have hordered := hrecent.ordered
    rw [hsplit] at hordered
    have hlt := (pairwise_cons.mp (pairwise_append.mp hordered).2.1).1 other hother hsame.symm
    have hle := hnewest other (hsplit ▸ mem_append_right _ (mem_cons_of_mem _ hother)) hsame
    omega

end Visible

/-! ## Steps -/

section Steps

variable {setting : RegistrySetting} {history : RegistryHistory}

lemma start_recent (setting : RegistrySetting) : start.Recent setting where
  ordered := .nil
  past := fun _ hrow => absurd hrow not_mem_nil

lemma recent_of_running {state : RouteRegistry} (hrecent : history.Recent setting)
    (hrunning : ({ history with state } : RegistryHistory).running.Sublist history.running)
    (hrows : ∀ row ∈ state.registry.processesById.entries, row.1 ∈ history.rows.map Prod.fst) :
    ({ history with state } : RegistryHistory).Recent setting where
  ordered := hrecent.ordered.sublist hrunning
  past := by
    intro row hrow
    obtain ⟨old, hold, hid⟩ := mem_map.mp (hrows row hrow)
    exact hid ▸ hrecent.past old hold

variable {id : List Nat} {process : ManagedProcess}
    {before after : List (List Nat × ManagedProcess)} {after' : RegistryHistory}

lemma replace_of_split {registry : ManagedProcessRegistry} (change : ManagedProcess → ManagedProcess)
    (hsplit : registry.processesById.entries = before ++ (id, process) :: after) :
    (registry.replace id change).processesById.entries = before ++ (id, change process) :: after := by
  have hget : registry.processesById.get? id = some process :=
    get?_eq_some_iff.mpr (hsplit ▸ mem_append_right _ mem_cons_self)
  unfold ManagedProcessRegistry.replace
  split
  next hnone =>
    rw [hget] at hnone
    cases hnone
  next found hfound =>
    obtain rfl : process = found := Option.mem_unique hget hfound
    exact entries_set_of_split hsplit _

variable (hrecent : history.Recent setting)
include hrecent

lemma stop_recent (id : List Nat) : (history.step setting (.stop id)).Recent setting := by
  cases hget : history.state.registry.processesById.get? id with
  | none =>
    have hsame : history.state.registry.stop id = history.state.registry := by
      unfold ManagedProcessRegistry.stop ManagedProcessRegistry.replace
      split
      · rfl
      next found hfound =>
        rw [hget] at hfound
        cases hfound
    simp only [step, hsame]
    exact hrecent
  | some process =>
    obtain ⟨before, after, hsplit⟩ := append_of_mem (get?_eq_some_iff.mp hget)
    have hstopped := replace_of_split (fun process => { process with status := .stopped, url := none }) hsplit
    refine recent_of_running hrecent ?_ fun row hrow => ?_
    · unfold running rows
      rw [show (history.state.registry.stop id).processesById.entries = _ from hstopped, hsplit, filter_append,
        filter_append, filter_cons_of_neg (by simp [routed])]
      exact List.Sublist.append_left (List.Sublist.filter _ (sublist_cons_self _ _)) _
    rw [show (history.state.registry.stop id).processesById.entries = _ from hstopped] at hrow
    have hkeys : (before ++ (id, process) :: after).map Prod.fst = history.rows.map Prod.fst := by
      rw [← hsplit, rows]
    rw [← hkeys]
    have := mem_map_of_mem (f := Prod.fst) hrow
    simpa using this

lemma remove_recent (id : List Nat) : (history.step setting (.remove id)).Recent setting := by
  refine recent_of_running hrecent (filter_sublist.filter _) fun row hrow => ?_
  exact mem_map_of_mem (mem_delete.mp hrow).1

lemma recent_of_registered (hrows : after'.rows = before ++ (id, process) :: after)
    (hold : (before ++ after).Sublist history.rows) (hclock : after'.clock = history.clock + 1)
    (hregistered : after'.registeredAt = Function.update history.registeredAt id history.clock)
    (hlast : ∀ other ∈ after, other.2.routed = true → rowIdentity setting other ≠ rowIdentity setting (id, process)) :
    after'.Recent setting := by
  -- the other rows keep their times
  have hothers : ∀ row ∈ before ++ after, row.1 ≠ id ∧ after'.registeredAt row.1 = history.registeredAt row.1 := by
    intro row hrow
    have hnodup : (after'.rows.map Prod.fst).Nodup := after'.state.registry.processesById.nodup
    rw [hrows, map_append, map_cons, nodup_append] at hnodup
    have hne : row.1 ≠ id := by
      rcases mem_append.mp hrow with hmem | hmem
      · exact hnodup.2.2 _ (mem_map_of_mem hmem) _ mem_cons_self
      · exact fun heq => (nodup_cons.mp hnodup.2.1).1 (mem_map.mpr ⟨row, hmem, heq⟩)
    exact ⟨hne, by rw [hregistered, update_of_ne hne]⟩
  have hnow : after'.registeredAt id = history.clock := by rw [hregistered, update_self]
  have hpast : ∀ row ∈ before ++ after, after'.registeredAt row.1 < history.clock := by
    intro row hrow
    rw [(hothers row hrow).2]
    exact hrecent.past row (hold.subset hrow)
  have hordered := pairwise_filter.mp hrecent.ordered
  obtain ⟨hbefore, hafter, hcross⟩ := pairwise_append.mp ((hordered.sublist hold).imp_of_mem
    (S := fun a b => a.2.routed = true → b.2.routed = true → rowIdentity setting a = rowIdentity setting b →
      after'.registeredAt a.1 < after'.registeredAt b.1) fun ha hb h => by
        rwa [(hothers _ ha).2, (hothers _ hb).2])
  constructor
  · rw [running, hrows]
    refine pairwise_filter.mpr (pairwise_append.mpr ⟨hbefore, pairwise_cons.mpr ⟨?_, hafter⟩, ?_⟩)
    · intro other hother _ hrouted hsame
      exact absurd hsame.symm (hlast other hother hrouted)
    intro row hrow other hother
    rcases mem_cons.mp hother with rfl | hother
    · intro _ _ _
      rw [hnow]
      exact hpast row (mem_append_left _ hrow)
    · exact hcross row hrow other hother
  · intro row hrow
    rw [hrows] at hrow
    rw [hclock]
    rcases mem_append.mp hrow with hmem | hmem
    · exact Nat.lt_succ_of_lt (hpast row (mem_append_left _ hmem))
    rcases mem_cons.mp hmem with rfl | hmem
    · rw [hnow]
      exact Nat.lt_succ_self _
    · exact Nat.lt_succ_of_lt (hpast row (mem_append_right _ hmem))

omit hrecent

/-- What a registration does: it appends a row, or updates the first row of the same ports in place. -/
inductive Registration (setting : RegistrySetting) (history : RegistryHistory) (input : RegisteredProcessInput) :
    RegistryHistory → Prop where
  | appended (after' : RegistryHistory) (process : ManagedProcess) :
      findRegisteredProcessForRoute history.state.registry (history.state.registeredInput input)
        (normalizeRegisteredProcessSource input.source) = none →
      after'.rows = history.rows ++ [(processId history.state.registry.generatedIdSequence, process)] →
      after'.clock = history.clock + 1 →
      after'.registeredAt = Function.update history.registeredAt
        (processId history.state.registry.generatedIdSequence) history.clock →
      Registration setting history input after'
  | updated (after' : RegistryHistory) (row : List Nat × ManagedProcess)
      (before after : List (List Nat × ManagedProcess)) :
      findRegisteredProcessForRoute history.state.registry (history.state.registeredInput input)
        (normalizeRegisteredProcessSource input.source) = some row →
      history.rows = before ++ row :: after →
      after'.rows = before ++ (row.1, row.2.reregistered (history.state.registeredInput input)
        (normalizeRegisteredProcessSource input.source) setting.defaultHost) :: after →
      after'.clock = history.clock + 1 →
      after'.registeredAt = Function.update history.registeredAt row.1 history.clock →
      Registration setting history input after'

lemma register_registration (setting : RegistrySetting) (history : RegistryHistory) (input : RegisteredProcessInput) :
    Registration setting history input (history.step setting (.register input)) := by
  cases hfind : findRegisteredProcessForRoute history.state.registry (history.state.registeredInput input)
      (normalizeRegisteredProcessSource input.source) with
  | none =>
    have hupsert : upsertRegisteredProcess history.state.registry (history.state.registeredInput input)
        (normalizeRegisteredProcessSource input.source) setting.defaultHost =
        (processId history.state.registry.generatedIdSequence, history.state.registry.register
          (history.state.registeredInput input) (normalizeRegisteredProcessSource input.source) setting.defaultHost) := by
      rw [upsertRegisteredProcess, hfind]
    refine .appended _ ((history.state.registeredInput input).process
      (normalizeRegisteredProcessSource input.source) setting.defaultHost) hfind ?_ rfl ?_
    · simp only [step, registerExistingProcess, hupsert, rows]
      exact entries_set_of_not_mem history.state.registry.newId_not_mem _
    · simp only [step, registerExistingProcess, hupsert]
  | some row =>
    obtain ⟨before, after, hsplit⟩ := append_of_mem (mem_of_find?_eq_some hfind)
    have hupsert : upsertRegisteredProcess history.state.registry (history.state.registeredInput input)
        (normalizeRegisteredProcessSource input.source) setting.defaultHost =
        (row.1, history.state.registry.replace row.1 (·.reregistered (history.state.registeredInput input)
          (normalizeRegisteredProcessSource input.source) setting.defaultHost)) := by
      rw [upsertRegisteredProcess, hfind]
    refine .updated _ row before after hfind hsplit ?_ rfl ?_
    · simp only [step, registerExistingProcess, hupsert, rows]
      exact replace_of_split _ hsplit
    · simp only [step, registerExistingProcess, hupsert]

lemma reregistered_routed (process : ManagedProcess) (input : RegisteredProcessInput) (source : Option ProcessSource)
    (defaultHost : List Nat) :
    (process.reregistered input (normalizeRegisteredProcessSource source) defaultHost).routed = true := by
  have hsource : normalizeRegisteredProcessSource source ≠ .detected := by
    unfold normalizeRegisteredProcessSource
    split
    · nofun
    · split <;> nofun
  simp [routed, reregistered, hsource]

lemma step_recent (event : RegistryEvent) (hrecent : history.Recent setting)
    (hlast : history.UpdatesLast setting event) : (history.step setting event).Recent setting := by
  cases event with
  | register input =>
    have hregistration := register_registration setting history input
    generalize history.step setting (.register input) = after' at hregistration
    cases hregistration with
    | appended process hfind hrows hclock hregistered =>
      exact recent_of_registered hrecent hrows (by simp) hclock hregistered
        fun _ hother => absurd hother not_mem_nil
    | updated row before after hfind hsplit hrows hclock hregistered =>
      refine recent_of_registered hrecent hrows ?_ hclock hregistered (hlast row hfind before after hsplit)
      rw [hsplit]
      exact List.Sublist.append_left (sublist_cons_self _ _) _
  | stop id => exact stop_recent hrecent id
  | remove id => exact remove_recent hrecent id
  | allocate allocation | discard allocationId => exact ⟨hrecent.ordered, hrecent.past⟩

lemma newest_last (hrecent : history.Recent setting) (hright : after'.RoutesRight setting)
    {row : List Nat × ManagedProcess} (hsplit : history.rows = before ++ row :: after)
    (hrows : after'.rows = before ++ (row.1, process) :: after)
    (hregistered : after'.registeredAt = Function.update history.registeredAt row.1 history.clock)
    (hrouted : process.routed = true) (other : List Nat × ManagedProcess) (hother : other ∈ after)
    (hotherRouted : other.2.routed = true) : rowIdentity setting other ≠ rowIdentity setting (row.1, process) := by
  have hrunning : after'.running = before.filter (fun row => row.2.routed) ++
      (row.1, process) :: after.filter fun row => row.2.routed := by
    rw [running, hrows, filter_append, filter_cons_of_pos (by simpa using hrouted)]
  have hlatest : ∀ found ∈ after'.running, after'.registeredAt found.1 ≤ after'.registeredAt row.1 := by
    intro found hfound
    rw [hregistered, update_self]
    by_cases hid : found.1 = row.1
    · rw [hid, update_self]
    rw [update_of_ne hid]
    have hrow : found ∈ after'.rows := mem_of_mem_filter hfound
    rw [hrows] at hrow
    refine (hrecent.past found ?_).le
    rw [hsplit]
    rcases mem_append.mp hrow with hmem | hmem
    · exact mem_append_left _ hmem
    rcases mem_cons.mp hmem with rfl | hmem
    · exact absurd rfl hid
    · exact mem_append_right _ (mem_cons_of_mem _ hmem)
  have hvisible := hright.newest (row.1, process) (hrunning ▸ mem_append_right _ mem_cons_self)
    fun found hfound _ => hlatest found hfound
  exact (mem_routes_iff hrunning).mp hvisible other (mem_filter.mpr ⟨hother, hotherRouted⟩)

lemma updatesLast_of_right (event : RegistryEvent) (hrecent : history.Recent setting)
    (hright : (history.step setting event).RoutesRight setting) : history.UpdatesLast setting event := by
  cases event with
  | register input =>
    have hregistration := register_registration setting history input
    generalize history.step setting (.register input) = after' at hregistration hright
    intro row hfind before after hsplit other hother hrouted
    cases hregistration with
    | appended process hnone => exact absurd (hnone.symm.trans hfind) nofun
    | updated found before' after'' hfound hsplit' hrows hclock hregistered =>
      obtain rfl : row = found := Option.mem_unique hfind hfound
      have hunique : ∀ front back, history.rows = front ++ row :: back → row ∉ back := by
        intro front back heq hmem
        have hnodup : (history.rows.map Prod.fst).Nodup := history.state.registry.processesById.nodup
        rw [heq, map_append, map_cons, nodup_append] at hnodup
        exact (nodup_cons.mp hnodup.2.1).1 (mem_map_of_mem hmem)
      obtain ⟨rfl, rfl⟩ := split_at_last (hunique _ _ hsplit) (hunique _ _ hsplit') (hsplit.symm.trans hsplit')
      exact newest_last hrecent hright hsplit hrows hregistered (reregistered_routed ..) other hother hrouted
  | stop id => trivial
  | remove id => trivial
  | allocate allocation => trivial
  | discard allocationId => trivial

end Steps

/-- Along a history the routes are right in every state exactly when every registration that updates a row in
place updates one that has no running row of its identity behind it. -/
theorem routes_right_iff (setting : RegistrySetting) (events : List RegistryEvent) :
    (∀ done rest, events = done ++ rest → (run (step setting) start done).RoutesRight setting) ↔
      StepsMeet (step setting) (UpdatesLast setting) start events :=
  forall_reached_iff_of_invariant (J := fun history => history.Recent setting) (fun _ => routesRight_of_recent)
    (fun _ event => step_recent event) (fun _ event => updatesLast_of_right event) (start_recent setting)

def hookedInput (actualPort : Nat) : RegisteredProcessInput :=
  ⟨1, codes "web", codes "web", codes "/w", 3000, actualPort, codes "127.0.0.1", none, none, none, none, some .hooked⟩

def sampleRegistry : RegistrySetting := ⟨codes "localhost", fun _ => codes "127.0.0.1", id, fun _ => .refl _⟩

/-- Two servers on port 3000 register, then the first one registers again. -/
def reregistration : List RegistryEvent :=
  [.register (hookedInput 4000), .register (hookedInput 4001), .register (hookedInput 4000)]

/-- The second server stays visible, although the first one registered last. -/
theorem reregistered_row_hidden :
    ¬ (run (step sampleRegistry) start reregistration).RoutesRight sampleRegistry ∧
      ((run (step sampleRegistry) start reregistration).routes sampleRegistry).map (·.actualPort) = [4001] := by
  constructor
  · intro hright
    have hhidden : ∃ row ∈ (run (step sampleRegistry) start reregistration).running,
        (∀ other ∈ (run (step sampleRegistry) start reregistration).running,
          (run (step sampleRegistry) start reregistration).registeredAt other.1 ≤
            (run (step sampleRegistry) start reregistration).registeredAt row.1) ∧
        processRoute sampleRegistry.hostOf row ∉
          (run (step sampleRegistry) start reregistration).routes sampleRegistry := by decide +kernel
    obtain ⟨row, hrow, hlatest, hhidden⟩ := hhidden
    exact hhidden (hright.newest row hrow fun other hother _ => hlatest other hother)
  · decide +kernel

end RegistryHistory

end PortManager.Node
