import PortManager.Native.Operations

/-!
# What the workload methods touch

One statement per operation of `Operations.lean` about the two arrays the registry consists of, the
process rows and the pending allocations. Everything else an operation writes (hints, observations,
the listener cache, dirty marks) leaves both arrays alone, which is what `SameRegistry` says; the
lemmas after it say which entries the operations themselves add, change and remove.

The last section is the well-formedness of a registry: allocation ids are numbered, so they are
unique.
-/

namespace PortManager.Native
open CText List List.Sublist

/-- The two states have the same process rows and the same pending allocations, and number the next
allocation alike. -/
structure SameRegistry (s s' : AgentState) : Prop where
  processes : s'.processes = s.processes
  pendingRoutes : s'.pendingRoutes = s.pendingRoutes
  nextAllocationId : s'.nextAllocationId = s.nextAllocationId
  agentPid : s'.agentPid = s.agentPid

namespace SameRegistry

variable (s : AgentState)

lemma refl : SameRegistry s s := ⟨rfl, rfl, rfl, rfl⟩

lemma trans {s s' s'' : AgentState} (h : SameRegistry s s') (h' : SameRegistry s' s'') : SameRegistry s s'' :=
  ⟨h'.1.trans h.1, h'.2.trans h.2, h'.3.trans h.3, h'.4.trans h.4⟩

variable (os : Os)

lemma markObserved (s : AgentState) (port : Int) (networkId : Text) :
    SameRegistry s (markBidirectionalRouteObserved os s port networkId) := by
  unfold markBidirectionalRouteObserved
  dsimp only
  split
  · split <;> exact ⟨rfl, rfl, rfl, rfl⟩
  split
  · exact ⟨rfl, rfl, rfl, rfl⟩
  · split <;> exact ⟨rfl, rfl, rfl, rfl⟩

lemma rememberHints (index : Nat) : SameRegistry s (rememberPendingRouteHints s index) := by
  unfold rememberPendingRouteHints
  split
  · exact refl s
  · split <;> exact ⟨rfl, rfl, rfl, rfl⟩

lemma noteExpiry (expiresAt : Int) : SameRegistry s (notePendingExpiry s expiresAt) := by
  unfold notePendingExpiry
  split <;> exact ⟨rfl, rfl, rfl, rfl⟩

variable (port : Int)

lemma scanPending (networkId : Text) : SameRegistry s (scanPendingEndpoint s port networkId).2 := by
  unfold scanPendingEndpoint
  split
  · exact refl s
  · exact rememberHints s _

lemma findPending (networkId : Text) : SameRegistry s (findPendingEndpoint s port networkId).2 := by
  have scan := scanPending s port networkId
  unfold findPendingEndpoint
  split
  · exact scan
  dsimp only
  split
  · exact refl s
  split
  · exact scan
  split
  · exact refl s
  · exact scan

lemma scanPort : SameRegistry s (scanActualPort s port).2 := by
  unfold scanActualPort
  split
  · exact rememberHints s _
  · exact ⟨rfl, rfl, rfl, rfl⟩

lemma portReserved : SameRegistry s (actualPortReserved s port).2 := by
  have scan := scanPort s port
  unfold actualPortReserved
  split
  · exact scan
  split
  · split
    · exact refl s
    split
    · exact scan
    split
    · exact refl s
    · exact scan
  · exact scan

lemma available (s : AgentState) (port : Int) (host : Text) : SameRegistry s (portAvailable os s port host).2 := by
  have h := portReserved s port
  unfold portAvailable
  split
  · next e => rw [e] at h; exact h
  · next e => rw [e] at h; exact h

lemma firstAvailable (host : Text) (ports : List Int) (s : AgentState) :
    SameRegistry s (firstAvailable os host s ports).2 := by
  induction ports generalizing s with
  | nil => exact refl s
  | cons port ports ih =>
    have h := available os s port host
    rw [PortManager.Native.firstAvailable]
    split
    · next e => rw [e] at h; exact h
    · next e => rw [e] at h; exact h.trans (ih _)

lemma chooseActualPort (s : AgentState) (input : AllocateInput) : SameRegistry s (chooseActualPort os s input).2 := by
  unfold PortManager.Native.chooseActualPort
  split
  · exact firstAvailable ..
  · exact firstAvailable ..

lemma flush (s : AgentState) (compactResponse : Bool) :
    SameRegistry s (flushRouteTablesForAllocation os s compactResponse).2 := by
  unfold flushRouteTablesForAllocation stateFlushRouteTables
  dsimp only
  split
  · exact ⟨rfl, rfl, rfl, rfl⟩
  · split <;> exact ⟨rfl, rfl, rfl, rfl⟩

lemma answer (s : AgentState) (input : AllocateInput) (id : Text) (port : Int)
    (host networkId : Text) (expiresAt : Int) :
    SameRegistry s (answerAllocation os s input id port host networkId expiresAt).1 := by
  have h := flush os s input.compactResponse
  unfold answerAllocation
  split
  · next e => rw [e] at h; exact h
  · next e => rw [e] at h; exact h

lemma extend (index : Nat) (pending : PendingRoute) (expiresAt : Int) :
    SameRegistry { s with pendingRoutes := s.pendingRoutes.set index { pending with expiresAt := expiresAt } }
      (extendPending s index pending expiresAt) :=
  noteExpiry _ _

lemma append (pending : PendingRoute) :
    SameRegistry { s with pendingRoutes := s.pendingRoutes ++ [pending] } (appendPending s pending) :=
  (rememberHints _ _).trans (noteExpiry _ _)

lemma observeClaimed (s : AgentState) (input : RegisterInput) : SameRegistry s (observeClaimedSender os s input) := by
  unfold observeClaimedSender
  split
  · exact markObserved ..
  · exact refl s

end SameRegistry

/-! ## Expiry -/

variable (os : Os) (s : AgentState)

lemma cleanupPending_pendingRoutes :
    (cleanupPending os s).pendingRoutes = s.pendingRoutes ∨
      (cleanupPending os s).pendingRoutes = s.pendingRoutes.filterMap (cleanupPendingRoute os) := by
  unfold cleanupPending
  split
  · exact .inl rfl
  split
  · exact .inl rfl
  · exact .inr rfl

lemma cleanupPending_frame :
    (cleanupPending os s).processes = s.processes ∧
      (cleanupPending os s).nextAllocationId = s.nextAllocationId ∧
      (cleanupPending os s).agentPid = s.agentPid := by
  unfold cleanupPending
  split
  · exact ⟨rfl, rfl, rfl⟩
  split
  · exact ⟨rfl, rfl, rfl⟩
  dsimp only
  split
  · split
    · exact ⟨rfl, rfl, rfl⟩
    · unfold listenerCacheStore
      split <;> exact ⟨rfl, rfl, rfl⟩
  · exact ⟨rfl, rfl, rfl⟩

/-- What is kept of an allocation is that allocation, at most with a new expiry, and one that has
not expired is kept as it is (C `pm_cleanup_pending`). -/
lemma cleanupPendingRoute_cases (pending : PendingRoute) :
    cleanupPendingRoute os pending = some pending ∨
      (pending.expiresAt ≤ os.now ∧
        (cleanupPendingRoute os pending = none ∨
          ∃ e, cleanupPendingRoute os pending = some { pending with expiresAt := e })) := by
  unfold cleanupPendingRoute
  split
  · exact .inl rfl
  next h =>
  refine .inr ⟨by omega, ?_⟩
  split
  · exact .inr ⟨_, rfl⟩
  split
  · exact .inr ⟨_, rfl⟩
  · exact .inl rfl

/-- Expiry drops allocations and changes nothing of the others that does not depend on the expiry. -/
lemma cleanupPending_map_sublist {β : Type} {f : PendingRoute → β}
    (hf : ∀ pending e, f { pending with expiresAt := e } = f pending) (os : Os) (s : AgentState) :
    ((cleanupPending os s).pendingRoutes.map f).Sublist (s.pendingRoutes.map f) := by
  rcases cleanupPending_pendingRoutes os s with h | h
  · rw [h]
  rw [h]
  generalize s.pendingRoutes = pending
  induction pending with
  | nil => exact slnil
  | cons entry pending ih =>
    rw [filterMap_cons, map_cons]
    rcases cleanupPendingRoute_cases os entry with h | ⟨-, h | ⟨e, h⟩⟩
    · rw [h]; exact ih.cons_cons _
    · rw [h]; exact ih.cons _
    · rw [h, map_cons, hf]; exact ih.cons_cons _

/-! ## `allocateRoute` -/

lemma findPendingEndpoint_eq_some {s : AgentState} {port : Int} {networkId : Text} {index : Nat}
    (h : (findPendingEndpoint s port networkId).1 = some index) :
    ∃ pending, s.pendingRoutes[index]? = some pending ∧
      endpointIdentity port networkId =
        endpointIdentity pending.route.logicalPort pending.route.networkId := by
  have scan : (scanPendingEndpoint s port networkId).1 = some index →
      ∃ pending, s.pendingRoutes[index]? = some pending ∧
        endpointIdentity port networkId =
          endpointIdentity pending.route.logicalPort pending.route.networkId := by
    intro h
    unfold scanPendingEndpoint at h
    split at h
    · cases h
    · next found hfound =>
      cases h
      obtain ⟨hlt, hp, -⟩ := findIdx?_eq_some_iff_getElem.mp hfound
      exact ⟨_, getElem?_eq_getElem hlt, by simpa using hp⟩
  unfold findPendingEndpoint at h
  split at h
  · exact scan h
  dsimp only at h
  split at h
  · cases h
  split at h
  · exact scan h
  next pending hpending =>
  split at h
  · next hsame =>
    cases h
    exact ⟨pending, hpending, by rw [hsame.1, hsame.2]⟩
  · exact scan h

/-- The effect of C `pm_state_allocate_route` on the registry, past expiry: nothing, a new expiry
for the allocation of the endpoint, or one new allocation of the network. A new one is made only when
none was found for the endpoint, and for a sender only when nothing listens there. -/
inductive AllocateEffect (input : AllocateInput) (networkId : Text) (s s' : AgentState) : Prop where
  | same (h : s'.pendingRoutes = s.pendingRoutes) (hnext : s.nextAllocationId ≤ s'.nextAllocationId)
  | reuse (index : Nat) (pending : PendingRoute) (e : Int)
      (hat : s.pendingRoutes[index]? = some pending)
      (hsame : endpointIdentity input.requestedPort networkId =
        endpointIdentity pending.route.logicalPort pending.route.networkId)
      (h : s'.pendingRoutes = s.pendingRoutes.set index { pending with expiresAt := e })
      (hnext : s'.nextAllocationId = s.nextAllocationId)
  | create (pending : PendingRoute) (hid : pending.id = allocationId s.agentPid s.nextAllocationId)
      (hroute : ∃ host port, pending.route = newPendingRoute input networkId host port)
      (hfresh : (findPendingEndpoint s input.requestedPort networkId).1 = none)
      (hactive : input.routeDirection = ascii "send" →
        findActiveRoute s input.requestedPort networkId = none)
      (h : s'.pendingRoutes = s.pendingRoutes ++ [pending])
      (hnext : s'.nextAllocationId = s.nextAllocationId + 1)

lemma AllocateEffect.refl (input : AllocateInput) (networkId : Text) {s s' : AgentState} (h : SameRegistry s s') :
    AllocateEffect input networkId s s' ∧ s'.processes = s.processes ∧ s'.agentPid = s.agentPid :=
  ⟨.same h.pendingRoutes (le_of_eq h.nextAllocationId.symm), h.processes, h.agentPid⟩

section Fresh
variable {s : AgentState} {input : AllocateInput} {networkId : Text}
  (hfresh : (findPendingEndpoint s input.requestedPort networkId).1 = none)
  (hactive : input.routeDirection = ascii "send" →
    findActiveRoute s input.requestedPort networkId = none)
include hfresh hactive

lemma createPendingRoute_effect {s₁ : AgentState} (same : SameRegistry s s₁) (os : Os) (host : Text) (port : Int) :
    let s' := (createPendingRoute os s₁ input networkId host port).1
    AllocateEffect input networkId s s' ∧ s'.processes = s.processes ∧ s'.agentPid = s.agentPid := by
  unfold createPendingRoute
  dsimp only
  split
  · have added := (SameRegistry.append { s₁ with nextAllocationId := s₁.nextAllocationId + 1 }
      ⟨allocationId s₁.agentPid s₁.nextAllocationId, newPendingRoute input networkId host port,
        os.now + PM_ROUTE_TTL_SECONDS⟩).trans
      (SameRegistry.answer os _ input (allocationId s₁.agentPid s₁.nextAllocationId) port host networkId
        (os.now + PM_ROUTE_TTL_SECONDS))
    have hid : allocationId s₁.agentPid s₁.nextAllocationId = allocationId s.agentPid s.nextAllocationId := by
      rw [same.agentPid, same.nextAllocationId]
    exact ⟨.create _ hid ⟨host, port, rfl⟩ hfresh hactive
        (added.pendingRoutes.trans (congrArg (· ++ [_]) same.pendingRoutes))
        (added.nextAllocationId.trans (congrArg (· + 1) same.nextAllocationId)),
      added.processes.trans same.processes, added.agentPid.trans same.agentPid⟩
  · exact ⟨.same same.pendingRoutes (Nat.le_succ_of_le (Nat.le_of_eq same.nextAllocationId.symm)),
      same.processes, same.agentPid⟩

lemma allocateFreshRoute_effect {s₁ : AgentState} (same : SameRegistry s s₁) (os : Os) (host : Text) :
    let s' := (allocateFreshRoute os s₁ input networkId host).1
    AllocateEffect input networkId s s' ∧ s'.processes = s.processes ∧ s'.agentPid = s.agentPid := by
  unfold allocateFreshRoute
  dsimp only
  split
  · exact AllocateEffect.refl _ _ same
  split
  · exact AllocateEffect.refl _ _ (same.trans (SameRegistry.chooseActualPort ..))
  · exact createPendingRoute_effect hfresh hactive (same.trans (SameRegistry.chooseActualPort ..)) os host _

end Fresh

lemma stateAllocateRoute_effect (input : AllocateInput) :
    let s' := (stateAllocateRoute os s input).1
    AllocateEffect input (normalizeNetwork input.networkId PM_SMALL)
        (cleanupPending os s) s' ∧ s'.processes = s.processes ∧ s'.agentPid = s.agentPid := by
  obtain ⟨hrows, -, hpid⟩ := cleanupPending_frame os s
  rw [← hrows, ← hpid]
  unfold stateAllocateRoute
  generalize cleanupPending os s = s
  dsimp only
  split
  · exact AllocateEffect.refl _ _ ((SameRegistry.markObserved ..).trans (SameRegistry.answer ..))
  next hinactive =>
  have found := SameRegistry.findPending s input.requestedPort (normalizeNetwork input.networkId PM_SMALL)
  split
  · next s₁ hnone =>
    rw [hnone] at found
    refine allocateFreshRoute_effect (congrArg Prod.fst hnone) (fun hsend => ?_) found os _
    rw [if_pos hsend] at hinactive
    exact hinactive
  · next index s₁ hsome =>
    obtain ⟨pending, hat, hsame⟩ := findPendingEndpoint_eq_some (congrArg Prod.fst hsome)
    replace found : SameRegistry s s₁ := by rw [hsome] at found; exact found
    simp only [found.pendingRoutes, hat]
    unfold reusePendingRoute
    dsimp only
    generalize hmark : (if pending.route.routeDirection.text ≠ input.routeDirection
      then markBidirectionalRouteObserved os s₁ input.requestedPort
        (normalizeNetwork input.networkId PM_SMALL) else s₁) = s₂
    have marked : SameRegistry s s₂ := by
      rw [← hmark]
      split
      · exact found.trans (SameRegistry.markObserved ..)
      · exact found
    have reused := (SameRegistry.extend s₂ index pending (os.now + PM_ROUTE_TTL_SECONDS)).trans
      (SameRegistry.answer os _ input pending.id pending.route.actualPort pending.route.host
        (normalizeNetwork input.networkId PM_SMALL) (os.now + PM_ROUTE_TTL_SECONDS))
    have hset := reused.pendingRoutes
    simp only [marked.pendingRoutes] at hset
    exact ⟨.reuse index pending _ hat hsame hset (reused.nextAllocationId.trans marked.nextAllocationId),
      reused.processes.trans marked.processes, reused.agentPid.trans marked.agentPid⟩

/-! ## `registerExistingProcess` -/

/-- The effect of a registration on the rows: nothing, one new row of the endpoint, or a rewritten row
of the endpoint that stays in it. -/
inductive RegisterEffect (port : Int) (networkId : Text) (s s' : AgentState) : Prop where
  | same (h : s'.processes = s.processes)
  | insert (row : Process) (hrow : row.networkId = networkId) (hport : row.requestedPort = port)
      (h : s'.processes = s.processes ++ [row])
  | update (index : Nat) (previous row : Process) (hat : s.processes[index]? = some previous)
      (hprevious : previous.networkId = networkId) (hrow : row.networkId = networkId)
      (hport : row.requestedPort = port) (h : s'.processes = s.processes.set index row)

lemma upsertRegisteredRow_effect (input : RegisterInput) (source : Source) (networkId : Text) :
    let s' := (upsertRegisteredRow os s input source networkId).1
    RegisterEffect input.requestedPort networkId s s' ∧ s'.pendingRoutes = s.pendingRoutes ∧
      s'.nextAllocationId = s.nextAllocationId ∧ s'.agentPid = s.agentPid := by
  unfold upsertRegisteredRow
  dsimp only
  split
  · split
    · exact ⟨.insert _ rfl rfl rfl, rfl, rfl, rfl⟩
    · exact ⟨.same rfl, rfl, rfl, rfl⟩
  · next index hfound =>
    split
    · exact ⟨.same rfl, rfl, rfl, rfl⟩
    next previous hat =>
    obtain ⟨hlt, hp, -⟩ := findIdx?_eq_some_iff_getElem.mp hfound
    rw [getElem?_eq_getElem hlt] at hat
    cases hat
    have hnet : s.processes[index].networkId = networkId := by
      simp only [decide_eq_true_eq] at hp
      exact hp.2.2.2.2
    split
    · exact ⟨.same rfl, rfl, rfl, rfl⟩
    · exact ⟨.update index _ _ (getElem?_eq_getElem hlt) hnet rfl rfl rfl, rfl, rfl, rfl⟩

lemma upsertRegisteredRow_failed {os : Os} {s s' : AgentState} {input : RegisterInput} {source : Source}
    {networkId : Text} (h : upsertRegisteredRow os s input source networkId = (s', none)) : s' = s := by
  unfold upsertRegisteredRow at h
  dsimp only at h
  split at h
  · split at h
    · cases h
    · cases h; rfl
  · split at h
    · cases h; rfl
    · split at h <;> cases h

def withoutAllocation (allocationId : Text) (pending : List PendingRoute) : List PendingRoute :=
  if allocationId ≠ [] then pending.eraseP fun entry => entry.id = allocationId else pending

lemma claimAllocation_frame (allocationId : Text) :
    (claimAllocation s allocationId).processes = s.processes ∧
      (claimAllocation s allocationId).pendingRoutes = withoutAllocation allocationId s.pendingRoutes ∧
      (claimAllocation s allocationId).nextAllocationId = s.nextAllocationId ∧
      (claimAllocation s allocationId).agentPid = s.agentPid := by
  unfold claimAllocation withoutAllocation
  split <;> exact ⟨rfl, rfl, rfl, rfl⟩

def withoutEndpoint (port : Int) (networkId : Text) (pending : List PendingRoute) : List PendingRoute :=
  pending.filter fun entry =>
    endpointIdentity port networkId ≠ endpointIdentity entry.route.logicalPort entry.route.networkId

lemma stateRegisterProcess_effect (input : RegisterInput) :
    let networkId := registrationNetwork s input
    let s' := (stateRegisterProcess os s input).1
    RegisterEffect input.requestedPort networkId s s' ∧
      ((s'.processes = s.processes ∧
          s'.pendingRoutes = withoutAllocation input.allocationId s.pendingRoutes) ∨
        s'.pendingRoutes = withoutEndpoint input.requestedPort networkId
          (withoutAllocation input.allocationId s.pendingRoutes)) ∧
      s'.nextAllocationId = s.nextAllocationId ∧ s'.agentPid = s.agentPid := by
  have observed := SameRegistry.observeClaimed os s input
  obtain ⟨hrows, hpending, hnext, hpid⟩ :=
    claimAllocation_frame (observeClaimedSender os s input) input.allocationId
  rw [observed.processes] at hrows
  rw [observed.pendingRoutes] at hpending
  rw [observed.nextAllocationId] at hnext
  rw [observed.agentPid] at hpid
  unfold stateRegisterProcess
  dsimp only
  generalize claimAllocation (observeClaimedSender os s input) input.allocationId = s₁ at *
  obtain ⟨effect, hpending', hnext', hpid'⟩ :=
    upsertRegisteredRow_effect os s₁ input (normalizedSource input.source) (registrationNetwork s input)
  have moved : ∀ s₂, s₂.processes = (upsertRegisteredRow os s₁ input (normalizedSource input.source)
      (registrationNetwork s input)).1.processes →
      RegisterEffect input.requestedPort (registrationNetwork s input) s s₂ := by
    intro s₂ h₂
    cases effect with
    | same h => exact .same (by rw [h₂, h, hrows])
    | insert row hrow hport h => exact .insert row hrow hport (by rw [h₂, h, hrows])
    | update index previous row hat hprevious hrow hport h =>
      exact .update index previous row (hrows ▸ hat) hprevious hrow hport (by rw [h₂, h, hrows])
  split
  · next s₂ e =>
    obtain rfl := upsertRegisteredRow_failed e
    exact ⟨.same hrows, .inl ⟨hrows, hpending⟩, hnext, hpid⟩
  · next s₂ row e =>
    rw [e] at hpending' hnext' hpid' moved
    refine ⟨moved _ rfl, .inr ?_, hnext'.trans hnext, hpid'.trans hpid⟩
    rw [← hpending, ← hpending']
    rfl

/-! ## Releases -/

lemma releaseRow_cases (input : ReleaseProcessInput) (networkId : Text)
    (listeners : Option (List Listener)) (process : Process) :
    (releaseRow os input networkId listeners process).1 = process ∨
      (process.requestedPort = input.requestedPort ∧ process.actualPort = input.actualPort ∧
        (releaseRow os input networkId listeners process).1.networkId = process.networkId) := by
  unfold releaseRow
  split
  · next h =>
    refine .inr ⟨h.2.2.2.1, h.2.2.2.2.1, ?_⟩
    split
    · rfl
    split
    · rfl
    split
    · rfl
    · split <;> rfl
  · exact .inl rfl

lemma stateReleaseProcessRoute_effect (input : ReleaseProcessInput) :
    let s' := (stateReleaseProcessRoute os s input).1
    (∃ listeners, s'.processes = s.processes.map fun process =>
        (releaseRow os input (normalizeNetwork input.networkId PM_SMALL) listeners process).1) ∧
      s'.pendingRoutes = withoutAllocation input.allocationId s.pendingRoutes ∧
      s'.nextAllocationId = s.nextAllocationId ∧ s'.agentPid = s.agentPid := by
  obtain ⟨hrows, hpending, hnext, hpid⟩ := claimAllocation_frame s input.allocationId
  unfold stateReleaseProcessRoute
  dsimp only
  rw [hrows]
  split <;> exact ⟨⟨scanLsofForPort os input.actualPort, by simp [listenerCacheInvalidate]⟩,
    hpending, hnext, hpid⟩

/-! ## Numbered allocations -/

/-- The allocation ids of a registry are numbered, each number below the next one to be given. -/
structure AgentState.Wf (s : AgentState) : Prop where
  ids_nodup : (s.pendingRoutes.map (·.id)).Nodup
  ids_numbered : ∀ pending ∈ s.pendingRoutes,
    ∃ n < s.nextAllocationId, pending.id = allocationId s.agentPid n
  pid_bound : s.agentPid.natAbs < 2 ^ 31

lemma initialState_wf {agentPid : Int} (h : agentPid.natAbs < 2 ^ 31) : (initialState agentPid).Wf :=
  ⟨nodup_nil, fun _ hmem => absurd hmem (not_mem_nil), h⟩

lemma allocationId_inj {pid : Int} (hpid : pid.natAbs < 2 ^ 31) {m n : Nat} (hm : m < 2 ^ 64)
    (hn : n < 2 ^ 64) (h : allocationId pid m = allocationId pid n) : m = n := by
  have fits : ∀ k : Nat, k < 2 ^ 64 →
      (ascii "allocation:native:" ++ decimal pid ++ 58 :: decimal k).length < PM_ID := by
    intro k hk
    have hp := length_decimal_le (n := pid) (k := 10) (by omega) (by omega)
    have hk' := length_decimal_le (n := (k : Int)) (k := 20) (by omega) (by omega)
    have hl : (ascii "allocation:native:").length = 18 := by decide
    simp only [length_append, length_cons, hl, PM_ID]
    omega
  unfold allocationId at h
  rw [truncate_of_length_lt (fits m hm), truncate_of_length_lt (fits n hn)] at h
  exact number_eq_of_joined_eq h

lemma AgentState.Wf.of_sublist {s s' : AgentState} (wf : s.Wf)
    (hsub : (s'.pendingRoutes.map (·.id)).Sublist (s.pendingRoutes.map (·.id)))
    (hnext : s.nextAllocationId ≤ s'.nextAllocationId) (hpid : s'.agentPid = s.agentPid) : s'.Wf := by
  refine ⟨wf.ids_nodup.sublist hsub, fun pending hmem => ?_, hpid ▸ wf.pid_bound⟩
  obtain ⟨old, hold, e⟩ := mem_map.mp (hsub.subset (mem_map_of_mem hmem))
  obtain ⟨n, hn, hid⟩ := wf.ids_numbered old hold
  exact ⟨n, by omega, by rw [hpid, ← hid, ← e]⟩

lemma AgentState.Wf.cleanup {s : AgentState} (wf : s.Wf) (os : Os) : (cleanupPending os s).Wf := by
  obtain ⟨-, hnext, hpid⟩ := cleanupPending_frame os s
  exact wf.of_sublist (cleanupPending_map_sublist (fun _ _ => rfl) os s) (le_of_eq hnext.symm) hpid

lemma AgentState.Wf.allocate {s : AgentState} (wf : s.Wf) (hroom : s.nextAllocationId < 2 ^ 64)
    (os : Os) (input : AllocateInput) : (stateAllocateRoute os s input).1.Wf := by
  obtain ⟨effect, -, hpid⟩ := stateAllocateRoute_effect os s input
  obtain ⟨-, hnext, hpid'⟩ := cleanupPending_frame os s
  have clean := wf.cleanup os
  rw [← hnext] at hroom
  rw [← hpid'] at hpid
  generalize cleanupPending os s = c at *
  cases effect with
  | same h hle => exact clean.of_sublist (by rw [h]) hle hpid
  | reuse index pending e hat _ h hnext =>
    refine clean.of_sublist ?_ (le_of_eq hnext.symm) hpid
    rw [h, map_set]
    have hid : (c.pendingRoutes.map (·.id)).set index pending.id = c.pendingRoutes.map (·.id) := by
      obtain ⟨hlt, e⟩ := List.getElem?_eq_some_iff.mp
        (show (c.pendingRoutes.map (·.id))[index]? = some pending.id by rw [getElem?_map, hat]; rfl)
      rw [← e, set_getElem_self]
    rw [hid]
  | create pending hid _ _ _ h hnext =>
    have fresh : ∀ old ∈ c.pendingRoutes, old.id ≠ pending.id := by
      intro old hold e
      obtain ⟨n, hn, hn'⟩ := clean.ids_numbered old hold
      rw [hn', hid] at e
      have := allocationId_inj clean.pid_bound (by omega) hroom e
      omega
    refine ⟨?_, ?_, hpid ▸ clean.pid_bound⟩
    · rw [h, map_append]
      refine nodup_append.mpr ⟨clean.ids_nodup, by simp, fun id hmem id' hmem' e => ?_⟩
      obtain ⟨old, hold, rfl⟩ := mem_map.mp hmem
      exact fresh old hold (e.trans (mem_singleton.mp hmem'))
    intro entry hmem
    rw [h, mem_append, mem_singleton] at hmem
    rw [hpid]
    rcases hmem with hmem | rfl
    · obtain ⟨n, hn, e⟩ := clean.ids_numbered entry hmem
      exact ⟨n, by omega, e⟩
    · exact ⟨c.nextAllocationId, by omega, hid⟩

lemma withoutAllocation_sublist (allocationId : Text) (pending : List PendingRoute) :
    (withoutAllocation allocationId pending).Sublist pending := by
  unfold withoutAllocation
  split
  · exact eraseP_sublist
  · exact refl _

/-- Every workload method keeps the registry well formed, until the counter of allocations runs
out. -/
theorem dispatch_wf {s : AgentState} (wf : s.Wf) (hroom : s.nextAllocationId < 2 ^ 64) (os : Os)
    (auth : Authorization) (request : Request) : (dispatch os auth s request).2.1.Wf := by
  unfold dispatch
  split
  · split
    · exact wf
    · exact wf.allocate hroom os _
  split
  · split
    · exact wf
    next input _ =>
    dsimp only
    split
    · exact wf
    obtain ⟨-, hpending, hnext, hpid⟩ := stateRegisterProcess_effect os s input
    refine wf.of_sublist (List.Sublist.map _ ?_) (le_of_eq hnext.symm) hpid
    rcases hpending with ⟨-, h⟩ | h
    · rw [h]; exact withoutAllocation_sublist ..
    · rw [h]; exact filter_sublist.trans (withoutAllocation_sublist ..)
  split
  · split
    · exact wf
    · exact wf.of_sublist (List.Sublist.map _ eraseP_sublist) (le_refl _) rfl
  split
  · split
    · exact wf
    · next input _ =>
      obtain ⟨-, hpending, hnext, hpid⟩ := stateReleaseProcessRoute_effect os s input
      refine wf.of_sublist (List.Sublist.map _ ?_) (le_of_eq hnext.symm) hpid
      rw [hpending]
      exact withoutAllocation_sublist ..
  · exact wf

end PortManager.Native
