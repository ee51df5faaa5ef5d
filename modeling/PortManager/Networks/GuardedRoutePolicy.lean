import PortManager.Base.InsertionMap
import PortManager.Base.Run

/-!
# Guarded route policies

Embeds `GuardedRoutePolicyCache` of `core/networks/logical-route-selection.ts`. A capture lists the
coordinates a network may use now, and its result is the token under which an asynchronous resolver
later publishes what it resolved. Tokens are compared by object identity, so a policy object is an
index into the list of all policies ever made and the cache maps a network to the index it holds.

The resolver's publish is not the only source of routes: a capture offers its literal coordinates at
once and takes over what the previous policy had resolved for a coordinate that did not change. The
main result (`routes_follow_capture`) says where each route comes from, over all interleavings.

Networks, ports and hosts are compared only, so they are types with decidable equality.
-/

set_option linter.unusedSectionVars false

namespace PortManager.Networks
open Run List Option InsertionMap

variable {ν π η : Type} [DecidableEq ν] [DecidableEq π] [DecidableEq η]

structure GuardedRouteCoordinate (π η : Type) where
  port : π
  targetHost : η
  targetPort : π
deriving DecidableEq

/-- TypeScript `GuardedRoutePolicySnapshot`; `byPort` is computed from `inputs`. -/
structure GuardedRoutePolicy (ν π η : Type) where
  networkId : ν
  inputs : List (GuardedRouteCoordinate π η)
  isLiteral : η → Bool
  resolved : InsertionMap π (GuardedRouteCoordinate π η)

/-- The map `byPort` of a policy: the last input of a port. -/
def GuardedRoutePolicy.byPort (policy : GuardedRoutePolicy ν π η) :
    InsertionMap π (GuardedRouteCoordinate π η) :=
  .ofList (policy.inputs.map fun input => (input.port, input))

/-- TypeScript `GuardedRoutePolicyCache`, with all policy objects that callers may still hold. A network
holds a policy made for it. -/
structure GuardedRoutePolicyCache (ν π η : Type) [DecidableEq ν] where
  policies : InsertionMap ν Nat
  objects : List (GuardedRoutePolicy ν π η)
  owned : ∀ {networkId : ν} {token : Nat}, policies.get? networkId = some token →
    ∃ policy, objects[token]? = some policy ∧ policy.networkId = networkId

namespace GuardedRoutePolicyCache

def empty : GuardedRoutePolicyCache ν π η := ⟨.empty, [], nofun⟩

variable (cache : GuardedRoutePolicyCache ν π η)

def current (networkId : ν) :
    Option (Nat × GuardedRoutePolicy ν π η) := do
  let token ← cache.policies.get? networkId
  let policy ← cache.objects[token]?
  some (token, policy)

/-- `this.policies.set(networkId, current)` for a new policy object. -/
def add (policy : GuardedRoutePolicy ν π η) : GuardedRoutePolicyCache ν π η where
  policies := cache.policies.set policy.networkId cache.objects.length
  objects := cache.objects ++ [policy]
  owned := by
    intro networkId token h
    rw [InsertionMap.get?_set] at h
    split at h
    next hid =>
      cases h
      exact ⟨policy, List.getElem?_concat_length .., hid⟩
    next =>
      obtain ⟨old, hold, hid⟩ := cache.owned h
      exact ⟨old, List.getElem?_append_left (List.getElem?_eq_some_iff.mp hold).1 ▸ hold, hid⟩

def setResolved (token : Nat)
    (resolved : InsertionMap π (GuardedRouteCoordinate π η)) : GuardedRoutePolicyCache ν π η where
  policies := cache.policies
  objects := cache.objects.modify token fun policy => { policy with resolved }
  owned := by
    intro networkId token' h
    obtain ⟨old, hold, hid⟩ := cache.owned h
    rw [List.getElem?_modify, hold]
    refine ⟨_, rfl, ?_⟩
    split
    · exact hid
    · exact hid

/-- The loop body of `capture`: a literal coordinate is resolved, another one takes over what the
previous policy resolved if it is unchanged. -/
def captureInput (isLiteral : η → Bool) (previous : Option (GuardedRoutePolicy ν π η))
    (resolved : InsertionMap π (GuardedRouteCoordinate π η)) (input : GuardedRouteCoordinate π η) :
    InsertionMap π (GuardedRouteCoordinate π η) :=
  if isLiteral input.targetHost then resolved.set input.port input
  else
    match previous.bind fun policy => policy.byPort.get? input.port,
        previous.bind fun policy => policy.resolved.get? input.port with
    | some prior, some known => if input = prior then resolved.set input.port known else resolved
    | _, _ => resolved

def capturedPolicy (networkId : ν) (inputs : List (GuardedRouteCoordinate π η)) (isLiteral : η → Bool)
    (previous : Option (GuardedRoutePolicy ν π η)) : GuardedRoutePolicy ν π η where
  networkId := networkId
  inputs := inputs
  isLiteral := isLiteral
  resolved := inputs.foldl (captureInput isLiteral previous) .empty

/-- TypeScript `capture`: the token, and the cache. -/
def capture (networkId : ν)
    (inputs : List (GuardedRouteCoordinate π η)) (isLiteral : η → Bool) :
    Nat × GuardedRoutePolicyCache ν π η :=
  match cache.current networkId with
  | none => (cache.objects.length, cache.add (capturedPolicy networkId inputs isLiteral none))
  | some (token, previous) =>
    if inputs = previous.inputs then (token, cache)
    else (cache.objects.length, cache.add (capturedPolicy networkId inputs isLiteral (some previous)))

/-- The policy of a token, if the token is the one its network has now. -/
def held (token : Nat) : Option (GuardedRoutePolicy ν π η) := do
  let policy ← cache.objects[token]?
  if cache.policies.get? policy.networkId = some token then some policy else none

def currentRoutes (token : Nat) : List (GuardedRouteCoordinate π η) :=
  match cache.held token with
  | none => []
  | some policy => policy.inputs.filterMap fun input => policy.resolved.get? input.port

variable (policy : GuardedRoutePolicy ν π η)

/-- The loop body of `publish`. -/
def publishRoute
    (resolved : InsertionMap π (GuardedRouteCoordinate π η)) (route : GuardedRouteCoordinate π η) :
    Option (InsertionMap π (GuardedRouteCoordinate π η)) :=
  match policy.byPort.get? route.port with
  | none => none
  | some input =>
    if input.targetPort ≠ route.targetPort ∨ route.port ∈ resolved.keys then none
    else if policy.isLiteral input.targetHost ∧ route.targetHost ≠ input.targetHost then none
    else some (resolved.set route.port route)

/-- The routes `publish` accepts for a policy, all inputs covered. -/
def acceptRoutes (routes : List (GuardedRouteCoordinate π η)) :
    Option (InsertionMap π (GuardedRouteCoordinate π η)) := do
  let resolved ← routes.foldlM (publishRoute policy) .empty
  if resolved.entries.length = policy.inputs.length then some resolved else none

def publish (token : Nat)
    (routes : List (GuardedRouteCoordinate π η)) : Bool × GuardedRoutePolicyCache ν π η :=
  match cache.held token with
  | none => (false, cache)
  | some policy =>
    match acceptRoutes policy routes with
    | none => (false, cache)
    | some resolved => (true, cache.setResolved token resolved)

def clear : GuardedRoutePolicyCache ν π η :=
  { policies := .empty, objects := cache.objects, owned := nofun }

inductive Call (ν π η : Type) where
  | capture (networkId : ν) (inputs : List (GuardedRouteCoordinate π η)) (isLiteral : η → Bool)
  | publish (token : Nat) (routes : List (GuardedRouteCoordinate π η))
  | clear

def step : Call ν π η → GuardedRoutePolicyCache ν π η
  | .capture networkId inputs isLiteral => (cache.capture networkId inputs isLiteral).2
  | .publish token routes => (cache.publish token routes).2
  | .clear => cache.clear

variable (calls : List (Call ν π η))

/-- The latest capture of a network listed these inputs and gave this token, and the cache was not cleared
since. -/
def IsLatest (networkId : ν) (inputs : List (GuardedRouteCoordinate π η)) (token : Nat) : Prop :=
  Since step
    (fun cache call => ∃ isLiteral, call = .capture networkId inputs isLiteral ∧
      (cache.capture networkId inputs isLiteral).1 = token)
    (fun _ call => call = .clear ∨ ∃ others isLiteral, call = .capture networkId others isLiteral)
    empty calls

/-- The routes were published under the token by the latest publish of it that succeeded. -/
def LastPublished (token : Nat) (routes : List (GuardedRouteCoordinate π η)) : Prop :=
  Since step
    (fun cache call => call = .publish token routes ∧ (cache.publish token routes).1 = true)
    (fun cache call => ∃ others, call = .publish token others ∧ (cache.publish token others).1 = true)
    empty calls

/-- The capture that makes the token offers a route: as a literal coordinate, or as what the network's
token until then had for a coordinate that is still listed. -/
def Offers (token : Nat) (route : GuardedRouteCoordinate π η) (cache : GuardedRoutePolicyCache ν π η)
    (call : Call ν π η) : Prop :=
  ∃ networkId inputs isLiteral, call = .capture networkId inputs isLiteral ∧
    cache.objects[token]? = none ∧ (cache.capture networkId inputs isLiteral).1 = token ∧
    ((route ∈ inputs ∧ isLiteral route.targetHost) ∨
      ∃ before previous, cache.current networkId = some (before, previous) ∧
        route ∈ cache.currentRoutes before ∧
        ∃ input ∈ inputs, input ∈ previous.inputs ∧ input.port = route.port)

/-- The route has the port and the target port of an input, and its host where that is literal. -/
def Matches (route : GuardedRouteCoordinate π η) : Prop :=
  ∃ input ∈ policy.inputs, input.port = route.port ∧ input.targetPort = route.targetPort ∧
    (policy.isLiteral input.targetHost → route.targetHost = input.targetHost)

/-- Every capture lists a port once, as its caller's map by port makes it. -/
def PortsListedOnce : Prop :=
  ∀ networkId inputs isLiteral, .capture networkId inputs isLiteral ∈ calls →
    (inputs.map (·.port)).Nodup

/-! ## The maps of a policy -/

variable {policy : GuardedRoutePolicy ν π η} {port : π}
    {routes inputs : List (GuardedRouteCoordinate π η)}
    {resolved : InsertionMap π (GuardedRouteCoordinate π η)} {route : GuardedRouteCoordinate π η}
    {networkId : ν} {cache : GuardedRoutePolicyCache ν π η} {token : Nat}
    {calls : List (Call ν π η)} {call : Call ν π η}

lemma byPort_get?_eq_some {input : GuardedRouteCoordinate π η}
    (h : policy.byPort.get? port = some input) : input ∈ policy.inputs ∧ input.port = port := by
  rw [GuardedRoutePolicy.byPort, get?_ofList] at h
  obtain ⟨item, hfound, rfl⟩ := map_eq_some_iff.mp h
  have hmem := mem_reverse.mp (mem_of_find?_eq_some hfound)
  obtain ⟨input, hinput, rfl⟩ := mem_map.mp hmem
  exact ⟨hinput, by simpa using find?_some hfound⟩

lemma acceptRoutes_spec (h : acceptRoutes policy routes = some resolved) (hroute : resolved.get? port = some route) :
    route.port = port ∧ route ∈ routes ∧ Matches policy route := by
  obtain ⟨accepted, hfold, h⟩ := bind_eq_some_iff.mp h
  have hsome : accepted = resolved := by
    split at h
    · exact some.inj h
    · cases h
  subst hsome
  -- the induction is on the routes still to come; what is there already came from the others
  have loop : ∀ (rest : List (GuardedRouteCoordinate π η)) (start : InsertionMap π (GuardedRouteCoordinate π η)),
      rest ⊆ routes → (∀ port route, start.get? port = some route →
        route.port = port ∧ route ∈ routes ∧ Matches policy route) →
      rest.foldlM (publishRoute policy) start = some accepted →
      ∀ port route, accepted.get? port = some route → route.port = port ∧ route ∈ routes ∧ Matches policy route := by
    intro rest
    induction rest with
    | nil =>
      intro start _ hstart e
      cases e
      exact hstart
    | cons next rest ih =>
      intro start hrest hstart e
      rw [foldlM_cons] at e
      obtain ⟨middle, hmiddle, e⟩ := bind_eq_some_iff.mp e
      refine ih middle (fun _ hmem => hrest (mem_cons_of_mem _ hmem)) ?_ e
      unfold publishRoute at hmiddle
      split at hmiddle
      · cases hmiddle
      next input hinput =>
      split at hmiddle
      · cases hmiddle
      next hports =>
      split at hmiddle
      · cases hmiddle
      next hhost =>
      cases hmiddle
      intro port route hget
      rw [get?_set] at hget
      split at hget
      · next hport =>
        cases hget
        obtain ⟨hmem, hsame⟩ := byPort_get?_eq_some hinput
        simp only [not_or, not_not] at hports
        refine ⟨hport, hrest mem_cons_self, input, hmem, hsame, hports.1, fun hliteral => ?_⟩
        by_contra hne
        exact hhost ⟨hliteral, hne⟩
      · exact hstart port route hget
  refine loop routes .empty (List.Subset.refl _) ?_ hfold port route hroute
  intro port route hget
  cases hget

@[simp] lemma capturedPolicy_networkId (networkId : ν) (inputs : List (GuardedRouteCoordinate π η))
    (isLiteral : η → Bool) (previous : Option (GuardedRoutePolicy ν π η)) :
    (capturedPolicy networkId inputs isLiteral previous).networkId = networkId := rfl

/-- What a capture resolves is a literal input, or was resolved before for an unchanged input. -/
lemma capturedPolicy_spec {isLiteral : η → Bool} {previous : Option (GuardedRoutePolicy ν π η)}
    (h : (capturedPolicy networkId inputs isLiteral previous).resolved.get? port = some route) :
    (route ∈ inputs ∧ isLiteral route.targetHost ∧ route.port = port) ∨
      ∃ policy, previous = some policy ∧ policy.resolved.get? port = some route ∧
        ∃ input ∈ inputs, isLiteral input.targetHost = false ∧ policy.byPort.get? port = some input := by
  have loop : ∀ (rest : List (GuardedRouteCoordinate π η)) (start : InsertionMap π (GuardedRouteCoordinate π η)),
      rest ⊆ inputs →
      (rest.foldl (captureInput isLiteral previous) start).get? port = some route →
      start.get? port = some route ∨ (route ∈ inputs ∧ isLiteral route.targetHost ∧ route.port = port) ∨
        ∃ policy, previous = some policy ∧ policy.resolved.get? port = some route ∧
          ∃ input ∈ inputs, isLiteral input.targetHost = false ∧ policy.byPort.get? port = some input := by
    intro rest
    induction rest with
    | nil => exact fun _ _ h => .inl h
    | cons input rest ih =>
      intro start hrest hget
      rcases ih _ (fun _ hmem => hrest (mem_cons_of_mem _ hmem)) hget with hstep | hlater
      · have hinput : input ∈ inputs := hrest mem_cons_self
        unfold captureInput at hstep
        split at hstep
        · next hliteral =>
          rw [get?_set] at hstep
          split at hstep
          · next hport =>
            cases hstep
            exact .inr (.inl ⟨hinput, hliteral, hport⟩)
          · exact .inl hstep
        next hliteral =>
        split at hstep
        · next prior known hprior hknown =>
          split at hstep
          · next hsame =>
            subst hsame
            rw [get?_set] at hstep
            split at hstep
            · next hport =>
              subst hport
              cases hstep
              obtain ⟨policy, rfl, hbyPort⟩ := bind_eq_some_iff.mp hprior
              exact .inr (.inr ⟨policy, rfl, hknown, input, hinput, by simpa using hliteral, hbyPort⟩)
            · exact .inl hstep
          · exact .inl hstep
        · exact .inl hstep
      · exact .inr hlater
  rcases loop inputs .empty (List.Subset.refl _) h with hempty | hfound
  · cases hempty
  · exact hfound

/-! ## The calls -/

/-- What one call does. A capture keeps the network's policy or makes a new one; a publish is refused, or
replaces the routes of a token that is held. -/
inductive StepEffect (cache : GuardedRoutePolicyCache ν π η) : Call ν π η → GuardedRoutePolicyCache ν π η → Prop
  | keep {networkId : ν} {inputs : List (GuardedRouteCoordinate π η)} {isLiteral : η → Bool}
      {policy : GuardedRoutePolicy ν π η}
      (hcurrent : cache.current networkId = some ((cache.capture networkId inputs isLiteral).1, policy))
      (hinputs : inputs = policy.inputs) : StepEffect cache (.capture networkId inputs isLiteral) cache
  | make {networkId : ν} {inputs : List (GuardedRouteCoordinate π η)} {isLiteral : η → Bool}
      (htoken : (cache.capture networkId inputs isLiteral).1 = cache.objects.length) :
      StepEffect cache (.capture networkId inputs isLiteral)
        (cache.add (capturedPolicy networkId inputs isLiteral ((cache.current networkId).map Prod.snd)))
  | refuse {token : Nat} {routes : List (GuardedRouteCoordinate π η)}
      (hresult : cache.publish token routes = (false, cache)) : StepEffect cache (.publish token routes) cache
  | accept {token : Nat} {routes : List (GuardedRouteCoordinate π η)} {policy : GuardedRoutePolicy ν π η}
      {resolved : InsertionMap π (GuardedRouteCoordinate π η)} (hresult : (cache.publish token routes).1 = true)
      (hheld : cache.held token = some policy) (hroutes : acceptRoutes policy routes = some resolved) :
      StepEffect cache (.publish token routes) (cache.setResolved token resolved)
  | clear : StepEffect cache .clear cache.clear

variable (cache)

lemma step_effect_capture (networkId : ν) (inputs : List (GuardedRouteCoordinate π η)) (isLiteral : η → Bool) :
    StepEffect cache (.capture networkId inputs isLiteral) (cache.step (.capture networkId inputs isLiteral)) := by
  have hmake : cache.capture networkId inputs isLiteral = (cache.objects.length,
      cache.add (capturedPolicy networkId inputs isLiteral ((cache.current networkId).map Prod.snd))) →
      StepEffect cache (.capture networkId inputs isLiteral) (cache.capture networkId inputs isLiteral).2 := by
    intro hresult
    rw [hresult]
    exact .make (by rw [hresult])
  cases hcurrent : cache.current networkId with
  | none => exact hmake (by rw [capture, hcurrent]; rfl)
  | some found =>
    by_cases hinputs : inputs = found.2.inputs
    · have hresult : cache.capture networkId inputs isLiteral = (found.1, cache) := by
        rw [capture, hcurrent]
        exact if_pos hinputs
      rw [step, hresult]
      exact .keep (by rw [hresult]; exact hcurrent) hinputs
    · exact hmake (by rw [capture, hcurrent]; exact if_neg hinputs)

lemma step_effect (call : Call ν π η) : StepEffect cache call (cache.step call) := by
  cases call with
  | capture networkId inputs isLiteral => exact step_effect_capture cache networkId inputs isLiteral
  | clear => exact .clear
  | publish token routes =>
    have hrefuse : cache.publish token routes = (false, cache) → StepEffect cache (.publish token routes)
        (cache.publish token routes).2 := by
      intro hresult
      rw [hresult]
      exact .refuse hresult
    cases hheld : cache.held token with
    | none => exact hrefuse (by rw [publish, hheld])
    | some policy =>
      cases hroutes : acceptRoutes policy routes with
      | none => exact hrefuse (by rw [publish, hheld]; simp only [hroutes])
      | some resolved =>
        have hresult : cache.publish token routes = (true, cache.setResolved token resolved) := by
          rw [publish, hheld]
          simp only [hroutes]
        rw [step, hresult]
        exact .accept (by rw [hresult]) hheld hroutes

variable {cache}

lemma current_eq_some_iff :
    cache.current networkId = some (token, policy) ↔
      cache.policies.get? networkId = some token ∧ cache.objects[token]? = some policy := by
  unfold current
  simp only [bind_eq_bind, bind_eq_some_iff, some.injEq, Prod.mk.injEq]
  constructor
  · rintro ⟨_, htoken, _, hpolicy, rfl, rfl⟩
    exact ⟨htoken, hpolicy⟩
  · rintro ⟨htoken, hpolicy⟩
    exact ⟨token, htoken, policy, hpolicy, rfl, rfl⟩

lemma held_eq_some_iff : cache.held token = some policy ↔ cache.current policy.networkId = some (token, policy) := by
  rw [current_eq_some_iff]
  unfold held
  simp only [bind_eq_bind, bind_eq_some_iff]
  constructor
  · rintro ⟨found, hfound, h⟩
    split at h
    next htoken =>
      cases h
      exact ⟨htoken, hfound⟩
    next => cases h
  · rintro ⟨htoken, hpolicy⟩
    exact ⟨policy, hpolicy, if_pos htoken⟩

lemma networkId_of_current (h : cache.current networkId = some (token, policy)) : policy.networkId = networkId := by
  obtain ⟨htoken, hpolicy⟩ := current_eq_some_iff.mp h
  obtain ⟨found, hfound, hid⟩ := cache.owned htoken
  obtain rfl := mem_unique hpolicy hfound
  exact hid

lemma mem_currentRoutes_iff :
    route ∈ cache.currentRoutes token ↔
      ∃ policy, cache.held token = some policy ∧
        ∃ input ∈ policy.inputs, policy.resolved.get? input.port = some route := by
  unfold currentRoutes
  split
  next hnone => simp [hnone]
  next policy hheld => simp [hheld, mem_filterMap]

/-! ### What a call leaves of the policies -/

lemma objects_add_of_some {added : GuardedRoutePolicy ν π η} (h : (cache.add added).objects[token]? = some policy) :
    (token = cache.objects.length ∧ policy = added) ∨ cache.objects[token]? = some policy := by
  rcases lt_or_ge token cache.objects.length with hlt | hge
  · rw [add, getElem?_append_left hlt] at h
    exact .inr h
  rw [add, getElem?_append_right hge] at h
  obtain ⟨hlt, hget⟩ := List.getElem?_eq_some_iff.mp h
  have hzero : token - cache.objects.length = 0 := Nat.lt_one_iff.mp hlt
  rw [hzero] at h
  exact .inl ⟨Nat.le_antisymm (Nat.sub_eq_zero_iff_le.mp hzero) hge, (some.inj h).symm⟩

lemma objects_setResolved_of_ne {other : Nat} (h : token ≠ other) :
    (cache.setResolved token resolved).objects[other]? = cache.objects[other]? :=
  getElem?_modify_ne _ _ h

lemma objects_setResolved_self :
    (cache.setResolved token resolved).objects[token]? =
      cache.objects[token]?.map fun policy => { policy with resolved } :=
  getElem?_modify_eq ..

lemma current_add (cache : GuardedRoutePolicyCache ν π η) (policy : GuardedRoutePolicy ν π η) (networkId : ν) :
    (cache.add policy).current networkId =
      if policy.networkId = networkId then some (cache.objects.length, policy) else cache.current networkId := by
  split_ifs with hid
  · refine current_eq_some_iff.mpr ⟨?_, getElem?_concat_length ..⟩
    rw [add, get?_set, if_pos hid]
  refine ext fun found => ?_
  obtain ⟨token, other⟩ := found
  rw [current_eq_some_iff, current_eq_some_iff, add, get?_set, if_neg hid]
  refine and_congr_right fun htoken => ?_
  obtain ⟨old, hold, -⟩ := cache.owned htoken
  rw [getElem?_append_left (List.getElem?_eq_some_iff.mp hold).1]

lemma current_setResolved {held : Nat} :
    (∃ policy, (cache.setResolved token resolved).current networkId = some (held, policy) ∧ policy.inputs = inputs) ↔
      ∃ policy, cache.current networkId = some (held, policy) ∧ policy.inputs = inputs := by
  simp only [current_eq_some_iff, and_assoc, exists_and_left]
  refine and_congr_right fun _ => ?_
  by_cases h : token = held
  · subst h
    rw [objects_setResolved_self]
    cases cache.objects[token]? with
    | none => simp
    | some policy => simp
  · rw [objects_setResolved_of_ne h]

lemma length_le_step (cache : GuardedRoutePolicyCache ν π η) (call : Call ν π η) :
    cache.objects.length ≤ (cache.step call).objects.length := by
  have heffect := cache.step_effect call
  generalize cache.step call = after at heffect
  cases heffect with
  | keep | refuse | clear => exact le_refl _
  | make => simp [add]
  | accept => simp [setResolved]

/-! ## Runs -/

lemma isLatest_iff (calls : List (Call ν π η)) (networkId : ν) (inputs : List (GuardedRouteCoordinate π η))
    (token : Nat) :
    IsLatest calls networkId inputs token ↔
      ∃ policy, (run step empty calls).current networkId = some (token, policy) ∧ policy.inputs = inputs := by
  induction calls using reverseRecOn with
  | nil =>
    refine iff_of_false not_since_nil ?_
    rintro ⟨policy, h, -⟩
    cases h
  | append_singleton calls call ih =>
    rw [IsLatest, since_concat, ← IsLatest, ih, run_append, run_cons, run_nil]
    generalize run step empty calls = cache
    have heffect := cache.step_effect call
    generalize cache.step call = after at heffect
    cases heffect with
    | clear =>
      refine iff_of_false ?_ ?_
      · rintro (⟨isLiteral, h, -⟩ | ⟨-, h⟩)
        · cases h
        · exact h (.inl rfl)
      · rintro ⟨policy, h, -⟩
        cases h
    | refuse hresult =>
      refine ⟨?_, fun h => .inr ⟨h, ?_⟩⟩
      · rintro (⟨isLiteral, h, -⟩ | ⟨h, -⟩)
        · cases h
        · exact h
      · rintro (h | ⟨others, isLiteral, h⟩) <;> cases h
    | accept hresult hheld hroutes =>
      rw [current_setResolved]
      refine ⟨?_, fun h => .inr ⟨h, ?_⟩⟩
      · rintro (⟨isLiteral, h, -⟩ | ⟨h, -⟩)
        · cases h
        · exact h
      · rintro (h | ⟨others, isLiteral, h⟩) <;> cases h
    | @keep captured others isLiteral policy hcurrent hinputs =>
      constructor
      · rintro (⟨isLiteral', h, htoken⟩ | ⟨h, -⟩)
        · cases h
          exact ⟨policy, htoken ▸ hcurrent, hinputs.symm⟩
        · exact h
      rintro ⟨found, hfound, hlist⟩
      by_cases hid : captured = networkId
      · subst hid
        obtain ⟨htoken, rfl⟩ := Prod.mk.inj (mem_unique hcurrent hfound)
        obtain rfl := hinputs.trans hlist
        exact .inl ⟨isLiteral, rfl, htoken⟩
      · refine .inr ⟨⟨found, hfound, hlist⟩, ?_⟩
        rintro (h | ⟨_, _, h⟩)
        · cases h
        · cases h
          exact hid rfl
    | @make captured others isLiteral htoken =>
      rw [current_add, capturedPolicy_networkId]
      by_cases hid : captured = networkId
      · subst hid
        rw [if_pos rfl]
        constructor
        · rintro (⟨isLiteral', h, rfl⟩ | ⟨-, h⟩)
          · cases h
            exact ⟨_, by rw [htoken], rfl⟩
          · exact absurd (.inr ⟨others, isLiteral, rfl⟩) h
        · rintro ⟨found, hfound, hlist⟩
          cases hfound
          obtain rfl : others = inputs := hlist
          exact .inl ⟨isLiteral, rfl, htoken⟩
      · rw [if_neg hid]
        refine ⟨?_, fun h => .inr ⟨h, ?_⟩⟩
        · rintro (⟨isLiteral', h, -⟩ | ⟨h, -⟩)
          · cases h
            exact absurd rfl hid
          · exact h
        · rintro (h | ⟨_, _, h⟩)
          · cases h
          · cases h
            exact hid rfl

lemma LastPublished.lt_length (h : LastPublished calls token routes) :
    token < (run step empty calls).objects.length := by
  induction calls using List.reverseRecOn with
  | nil => exact absurd h not_since_nil
  | append_singleton calls call ih =>
    rw [run_append, run_cons, run_nil]
    refine lt_of_lt_of_le ?_ (length_le_step _ call)
    rcases since_concat.mp h with ⟨rfl, hresult⟩ | ⟨hbefore, -⟩
    · cases hheld : (run step empty calls).held token with
      | none =>
        rw [publish, hheld] at hresult
        cases hresult
      | some policy =>
        obtain ⟨-, hpolicy⟩ := current_eq_some_iff.mp (held_eq_some_iff.mp hheld)
        exact (List.getElem?_eq_some_iff.mp hpolicy).1
    · exact ih hbefore

lemma lastPublished_concat_iff
    (hcall : ∀ routes, call = .publish token routes → ((run step empty calls).publish token routes).1 = false) :
    LastPublished (calls ++ [call]) token routes ↔ LastPublished calls token routes := by
  have hnone : ∀ routes, ¬(call = .publish token routes ∧ ((run step empty calls).publish token routes).1 = true) := by
    rintro routes ⟨rfl, htrue⟩
    rw [hcall routes rfl] at htrue
    cases htrue
  rw [LastPublished, since_concat]
  constructor
  · rintro (h | ⟨h, -⟩)
    · exact absurd h (hnone routes)
    · exact h
  · intro h
    exact .inr ⟨h, fun ⟨others, hother⟩ => hnone others hother⟩

/-- Where a route of a token comes from: the latest publish of the token that succeeded, or, while there is
none, the capture that made the token. -/
def Source (calls : List (Call ν π η)) (token : Nat) (policy : GuardedRoutePolicy ν π η)
    (route : GuardedRouteCoordinate π η) : Prop :=
  (∃ routes, LastPublished calls token routes ∧ route ∈ routes ∧ Matches policy route) ∨
    ((∀ routes, ¬LastPublished calls token routes) ∧
      Since step (Offers token route) (fun _ _ => False) empty calls)

lemma Source.concat
    (hcall : ∀ routes, call = .publish token routes → ((run step empty calls).publish token routes).1 = false)
    (h : Source calls token policy route) : Source (calls ++ [call]) token policy route := by
  rcases h with ⟨routes, hlast, hroute⟩ | ⟨hnone, hoffer⟩
  · exact .inl ⟨routes, (lastPublished_concat_iff hcall).mpr hlast, hroute⟩
  · exact .inr ⟨fun routes hlast => hnone routes ((lastPublished_concat_iff hcall).mp hlast),
      since_concat.mpr (.inr ⟨hoffer, not_false⟩)⟩

lemma resolved_source (hpolicy : (run step empty calls).objects[token]? = some policy)
    (hroute : policy.resolved.get? port = some route) : route.port = port ∧ Source calls token policy route := by
  induction calls using reverseRecOn generalizing token policy port route with
  | nil => cases hpolicy
  | append_singleton calls call ih =>
    have hkeep : (∀ routes, call = .publish token routes →
        ((run step empty calls).publish token routes).1 = false) →
        (run step empty calls).objects[token]? = some policy →
        route.port = port ∧ Source (calls ++ [call]) token policy route := by
      intro hcall hold
      obtain ⟨hport, hsource⟩ := ih hold hroute
      exact ⟨hport, hsource.concat hcall⟩
    rw [run_append, run_cons, run_nil] at hpolicy
    have heffect := (run step empty calls).step_effect call
    generalize (run step empty calls).step call = after at heffect hpolicy
    cases heffect with
    | keep | clear => exact hkeep nofun hpolicy
    | @refuse published routes hresult =>
      refine hkeep ?_ hpolicy
      rintro routes' ⟨⟩
      rw [hresult]
    | @accept published routes old resolved hresult hheld hroutes =>
      by_cases hsame : published = token
      · subst hsame
        obtain ⟨-, hold⟩ := current_eq_some_iff.mp (held_eq_some_iff.mp hheld)
        rw [objects_setResolved_self, hold] at hpolicy
        cases hpolicy
        obtain ⟨hport, hmem, hmatches⟩ := acceptRoutes_spec hroutes hroute
        exact ⟨hport, .inl ⟨routes, since_concat.mpr (.inl ⟨rfl, hresult⟩), hmem, hmatches⟩⟩
      · rw [objects_setResolved_of_ne hsame] at hpolicy
        refine hkeep ?_ hpolicy
        rintro routes' ⟨⟩
        exact absurd rfl hsame
    | @make networkId inputs isLiteral htoken =>
      rcases objects_add_of_some hpolicy with ⟨rfl, rfl⟩ | hold
      · -- the token is new, so nothing was published under it
        have hnone : ∀ routes, ¬LastPublished (calls ++ [.capture networkId inputs isLiteral])
            (run step empty calls).objects.length routes := by
          intro routes hlast
          have hbefore : LastPublished calls (run step empty calls).objects.length routes :=
            (lastPublished_concat_iff fun _ h => by cases h).mp hlast
          exact lt_irrefl _ hbefore.lt_length
        have hoffer : ∀ policy, Offers _ route (run step empty calls) (.capture networkId inputs isLiteral) →
            Source (calls ++ [.capture networkId inputs isLiteral]) (run step empty calls).objects.length
              policy route :=
          fun _ h => .inr ⟨hnone, since_concat.mpr (.inl h)⟩
        have hfresh : (run step empty calls).objects[(run step empty calls).objects.length]? = none :=
          getElem?_eq_none (le_refl _)
        rcases capturedPolicy_spec hroute with ⟨hmem, hliteral, hport⟩ | ⟨previous, hprevious, hknown, input, hinput, -, hprior⟩
        · exact ⟨hport, hoffer _ ⟨networkId, inputs, isLiteral, rfl, hfresh, htoken, .inl ⟨hmem, hliteral⟩⟩⟩
        obtain ⟨⟨before, _⟩, hcurrent, rfl⟩ := map_eq_some_iff.mp hprevious
        obtain ⟨-, hold⟩ := current_eq_some_iff.mp hcurrent
        obtain ⟨hlisted, rfl⟩ := byPort_get?_eq_some hprior
        have hport : route.port = input.port := (ih hold hknown).1
        have hheld := held_eq_some_iff.mpr ((networkId_of_current hcurrent).symm ▸ hcurrent)
        have hroutes := mem_currentRoutes_iff.mpr ⟨_, hheld, input, hlisted, hknown⟩
        exact ⟨hport, hoffer _ ⟨networkId, inputs, isLiteral, rfl, hfresh, htoken,
          .inr ⟨before, _, hcurrent, hroutes, input, hinput, hlisted, hport.symm⟩⟩⟩
      · exact hkeep nofun hold

lemma resolved_matches (honce : PortsListedOnce calls)
    (hpolicy : (run step empty calls).objects[token]? = some policy) :
    (policy.inputs.map (·.port)).Nodup ∧
      ∀ port route, policy.resolved.get? port = some route → Matches policy route := by
  induction calls using reverseRecOn generalizing token policy with
  | nil => cases hpolicy
  | append_singleton calls call ih =>
    have hbefore : PortsListedOnce calls := fun networkId inputs isLiteral hmem =>
      honce networkId inputs isLiteral (mem_append_left _ hmem)
    rw [run_append, run_cons, run_nil] at hpolicy
    have heffect := (run step empty calls).step_effect call
    generalize (run step empty calls).step call = after at heffect hpolicy
    cases heffect with
    | keep | clear | refuse => exact ih hbefore hpolicy
    | @accept published routes old resolved hresult hheld hroutes =>
      by_cases hsame : published = token
      · subst hsame
        obtain ⟨-, hold⟩ := current_eq_some_iff.mp (held_eq_some_iff.mp hheld)
        rw [objects_setResolved_self, hold] at hpolicy
        cases hpolicy
        exact ⟨(ih hbefore hold).1, fun port route hroute => (acceptRoutes_spec hroutes hroute).2.2⟩
      · rw [objects_setResolved_of_ne hsame] at hpolicy
        exact ih hbefore hpolicy
    | @make networkId inputs isLiteral htoken =>
      rcases objects_add_of_some hpolicy with ⟨rfl, rfl⟩ | hold
      · refine ⟨honce networkId inputs isLiteral (mem_append_right _ mem_cons_self), ?_⟩
        intro port route hroute
        rcases capturedPolicy_spec hroute with ⟨hmem, -, -⟩ | ⟨previous, hprevious, hknown, input, hinput, hnot, hprior⟩
        · exact ⟨route, hmem, rfl, rfl, fun _ => rfl⟩
        obtain ⟨⟨before, _⟩, hcurrent, rfl⟩ := map_eq_some_iff.mp hprevious
        obtain ⟨-, hold⟩ := current_eq_some_iff.mp hcurrent
        obtain ⟨hlisted, rfl⟩ := byPort_get?_eq_some hprior
        obtain ⟨hnodup, hmatches⟩ := ih hbefore hold
        obtain ⟨matched, hmatched, hport, htarget, -⟩ := hmatches _ _ hknown
        -- the input the old route matched is the one that is still listed
        have hroute := (resolved_source hold hknown).1
        obtain rfl : matched = input :=
          inj_on_of_nodup_map hnodup hmatched hlisted (hport.trans hroute)
        refine ⟨matched, hinput, hport, htarget, fun hliteral => ?_⟩
        rw [show isLiteral matched.targetHost = true from hliteral] at hnot
        cases hnot
      · exact ih hbefore hold

/-- Over every interleaving of captures, publishes and clears: a publish under a token that no network
has from its latest capture changes nothing, and so does one that fails. Every current route belongs to the
latest capture of its network; it was in the latest publish of the token that succeeded and matches an input,
or, while no publish of the token has succeeded, the capture that made the token offered it. Where captures list a
port once, each route has the port, the target port and the literal host of an input. -/
theorem routes_follow_capture (calls : List (Call ν π η)) :
    (∀ token routes, (∀ networkId inputs, ¬IsLatest calls networkId inputs token) →
      (run step empty calls).publish token routes = (false, run step empty calls)) ∧
    (∀ token routes, ((run step empty calls).publish token routes).1 = false →
      (run step empty calls).publish token routes = (false, run step empty calls)) ∧
    (∀ token, ∀ route ∈ (run step empty calls).currentRoutes token,
      ∃ policy, (run step empty calls).objects[token]? = some policy ∧
        IsLatest calls policy.networkId policy.inputs token ∧ Source calls token policy route ∧
        (PortsListedOnce calls → Matches policy route)) := by
  refine ⟨fun token routes hstale => ?_, fun token routes hfails => ?_, fun token route hroute => ?_⟩
  · cases hheld : (run step empty calls).held token with
    | none => rw [publish, hheld]
    | some policy =>
      have hlatest := (isLatest_iff calls _ _ token).mpr ⟨policy, held_eq_some_iff.mp hheld, rfl⟩
      exact absurd hlatest (hstale _ _)
  · have heffect := (run step empty calls).step_effect (.publish token routes)
    generalize (run step empty calls).step (.publish token routes) = after at heffect
    cases heffect with
    | refuse hresult => exact hresult
    | accept hresult =>
      rw [hfails] at hresult
      cases hresult
  · obtain ⟨policy, hheld, input, -, hget⟩ := mem_currentRoutes_iff.mp hroute
    have hcurrent := held_eq_some_iff.mp hheld
    obtain ⟨-, hpolicy⟩ := current_eq_some_iff.mp hcurrent
    exact ⟨policy, hpolicy, (isLatest_iff calls _ _ token).mpr ⟨policy, hcurrent, rfl⟩,
      (resolved_source hpolicy hget).2, fun honce => (resolved_matches honce hpolicy).2 _ _ hget⟩

/-- A literal coordinate is a current route as soon as it is captured, before any publish. -/
theorem captured_literal_is_current :
    let route : GuardedRouteCoordinate Nat String := ⟨5432, "127.0.0.1", 15432⟩
    let calls : List (Call Nat Nat String) := [.capture 0 [route] (· = "127.0.0.1")]
    route ∈ (run step empty calls).currentRoutes 0 ∧ ∀ token routes, ¬LastPublished calls token routes := by
  intro route calls
  refine ⟨by decide +kernel, fun token routes h => ?_⟩
  rcases since_concat.mp (show LastPublished ([] ++ calls) token routes from h) with ⟨h, -⟩ | ⟨h, -⟩
  · cases h
  · exact not_since_nil h

end GuardedRoutePolicyCache

end PortManager.Networks
