import PortManager.Node.Allocation
import PortManager.Node.RouteRecency

/-!
# Allocations over whole runs

In every run of the allocation state machine there is at most one pending allocation for each endpoint, no two
pending allocations collide on a port, and answers by allocations that are still pending agree on the port
(`allocations_consistent`). Only the end of `allocateRoute` adds an allocation; everything else that happens to
the pending allocations drops some or extends their time (`Shrinks`). The exclusive queue keeps the endpoint of
the running call free, and the check of a candidate keeps its port free, until the allocation is made.
-/

namespace PortManager.Node
open JsonText Run InsertionMap List RouteAnswer PendingRouteAllocation

/-! ## Shrinking -/

def Shrinks (pending pending' : PendingRoutes) : Prop :=
  ∀ entry ∈ pending'.entries, ∃ allocation, (entry.1, allocation) ∈ pending.entries ∧
    entry.2.route = allocation.route ∧ entry.2.id = allocation.id

lemma Shrinks.refl (pending : PendingRoutes) : Shrinks pending pending :=
  fun entry hentry => ⟨entry.2, hentry, rfl, rfl⟩

lemma Shrinks.delete {pending pending' : PendingRoutes} (h : Shrinks pending pending') (id : List Nat) :
    Shrinks pending (pending'.delete id) :=
  fun entry hentry => h entry (mem_delete.mp hentry).1

def Keyed (pending : PendingRoutes) : Prop := ∀ entry ∈ pending.entries, entry.2.id = entry.1

variable {pending pending' : PendingRoutes} {uuids : Nat} {running : RunningAllocation}

lemma Shrinks.keyed (h : Shrinks pending pending') (hkeyed : Keyed pending) : Keyed pending' := by
  intro entry hentry
  obtain ⟨found, hfound, -, hid⟩ := h entry hentry
  exact hid.trans (hkeyed _ hfound)

lemma Shrinks.refresh (h : Shrinks pending pending') (hkeyed : Keyed pending)
    {entry : List Nat × PendingRouteAllocation} (hentry : entry ∈ pending.entries) (nowMs : Int) :
    Shrinks pending (refreshPendingRouteAllocation pending' entry.2 nowMs) := by
  intro other hother
  rcases mem_set.mp hother with rfl | ⟨hold, -⟩
  · exact ⟨entry.2, by rw [hkeyed entry hentry]; exact hentry, rfl, rfl⟩
  · exact h other hold

lemma shrinks_cleanup (lower : List Nat → List Nat) (nowMs : Int)
    (listeners : List ListeningPortEndpoint) (hkeyed : Keyed pending) :
    Shrinks pending (cleanupExpiredRouteAllocations lower nowMs listeners pending) := by
  -- every entry of the loop comes from the map it started with
  have hloop : ∀ (entries : List (List Nat × PendingRouteAllocation)) (current : PendingRoutes),
      (∀ entry ∈ entries, entry ∈ pending.entries) → Shrinks pending current →
      Shrinks pending (entries.foldl (cleanupExpiredEntry lower nowMs listeners) current) := by
    intro entries
    induction entries with
    | nil => exact fun current _ h => h
    | cons entry entries ih =>
      intro current hentries h
      refine ih _ (fun other hother => hentries other (mem_cons_of_mem _ hother)) ?_
      unfold cleanupExpiredEntry
      split
      · exact h
      split
      · exact h.refresh hkeyed (hentries entry mem_cons_self) nowMs
      · exact h.delete entry.1
  exact hloop pending.entries pending (fun _ h => h) (Shrinks.refl pending)

lemma shrinks_removeForIdentity (h : Shrinks pending pending') (logicalPort : Nat) (networkId : Option (List Nat)) :
    Shrinks pending (removePendingRouteAllocationsForIdentity pending' logicalPort networkId) := by
  have hloop : ∀ (entries : List (List Nat × PendingRouteAllocation)) (current : PendingRoutes),
      Shrinks pending current → Shrinks pending (entries.foldl (fun kept entry =>
        if buildLogicalEndpointIdentity entry.2.route.networkId entry.2.route.logicalPort =
            buildLogicalEndpointIdentity networkId logicalPort then kept.delete entry.1 else kept) current) := by
    intro entries
    induction entries with
    | nil => exact fun current h => h
    | cons entry entries ih =>
      intro current h
      rw [foldl_cons]
      refine ih _ ?_
      split
      · exact h.delete entry.1
      · exact h
  exact hloop pending'.entries pending' h

lemma shrinks_register (defaultHost : List Nat) (routes : RouteRegistry) (input : RegisteredProcessInput) :
    Shrinks routes.pendingRouteAllocations
      (routes.registerExistingProcess defaultHost input).2.pendingRouteAllocations := by
  unfold RouteRegistry.registerExistingProcess
  refine shrinks_removeForIdentity ?_ _ _
  split
  · exact (Shrinks.refl _).delete _
  · exact Shrinks.refl _

/-! ## The invariant -/

def endpointOf (networkId : Option (List Nat)) (logicalPort : Nat) : List Nat × Nat := (networkId.getD [], logicalPort)

def PendingRouteAllocation.endpoint (allocation : PendingRouteAllocation) : List Nat × Nat :=
  endpointOf allocation.route.networkId allocation.route.logicalPort

def AllocateRouteRequest.endpoint (request : AllocateRouteRequest) : List Nat × Nat :=
  endpointOf request.network request.requestedPort

/-- Two allocations that want the same port of the same host. -/
def PendingRouteAllocation.collides (lower : List Nat → List Nat) (a b : PendingRouteAllocation) : Prop :=
  a.route.actualPort = b.route.actualPort ∧ endpointHostMatches lower a.route.host b.route.host = true

structure PendingKept (setting : AllocationSetting) (pending : PendingRoutes) (uuids : Nat) : Prop where
  keyed : Keyed pending
  made : ∀ id ∈ pending.keys, ∃ n < uuids, id = setting.uuid n
  unique : ∀ a ∈ pending.entries, ∀ b ∈ pending.entries, a.2.endpoint = b.2.endpoint → a.1 = b.1
  apart : ∀ a ∈ pending.entries, ∀ b ∈ pending.entries, a.2.collides setting.lower b.2 → a.1 = b.1

def AllocationPhase.port? : AllocationPhase → Option Nat
  | .probing candidate _ => some candidate
  | .decided port => some port
  | .scanning | .choosing _ => none

/-- What holds while a call is running: its endpoint has no pending allocation, and the port it has checked is
not taken by one. -/
structure RunningKept (setting : AllocationSetting) (pending : PendingRoutes) (running : RunningAllocation) : Prop where
  free : ∀ entry ∈ pending.entries, entry.2.endpoint ≠ running.request.endpoint
  vacant : ∀ port, running.phase.port? = some port → ∀ entry ∈ pending.entries, entry.2.route.actualPort = port →
    endpointHostMatches setting.lower entry.2.route.host running.request.bindHost = false

def Backed (pending : PendingRoutes) (networkId : Option (List Nat)) (answer : PortRouteAllocation) : Prop :=
  ∃ allocation, (answer.allocationId, allocation) ∈ pending.entries ∧
    allocation.endpoint = endpointOf networkId answer.requestedPort ∧ allocation.route.actualPort = answer.actualPort

lemma endpoint_eq_of_route {a b : PendingRouteAllocation} (h : a.route = b.route) : a.endpoint = b.endpoint := by
  rw [endpoint, endpoint, h]

variable {setting : AllocationSetting} (h : Shrinks pending pending')
include h

lemma PendingKept.shrink (hkept : PendingKept setting pending uuids) : PendingKept setting pending' uuids  where
  keyed := h.keyed hkept.keyed
  made := by
    intro id hid
    obtain ⟨allocation, hentry⟩ := mem_keys_iff.mp hid
    obtain ⟨found, hfound, -⟩ := h _ hentry
    exact hkept.made id (mem_keys_iff.mpr ⟨found, hfound⟩)
  unique := by
    intro a ha b hb hsame
    obtain ⟨olda, holda, hroutea, -⟩ := h a ha
    obtain ⟨oldb, holdb, hrouteb, -⟩ := h b hb
    refine hkept.unique (a.1, olda) holda (b.1, oldb) holdb ?_
    rw [← endpoint_eq_of_route hroutea, ← endpoint_eq_of_route hrouteb, hsame]
  apart := by
    intro a ha b hb hcollides
    obtain ⟨olda, holda, hroutea, -⟩ := h a ha
    obtain ⟨oldb, holdb, hrouteb, -⟩ := h b hb
    refine hkept.apart (a.1, olda) holda (b.1, oldb) holdb ?_
    rwa [collides, hroutea, hrouteb] at hcollides

lemma RunningKept.shrink (hkept : RunningKept setting pending running) : RunningKept setting pending' running  where
  free := by
    intro entry hentry
    obtain ⟨old, hold, hroute, -⟩ := h entry hentry
    rw [endpoint_eq_of_route hroute]
    exact hkept.free _ hold
  vacant := by
    intro port hport entry hentry heq
    obtain ⟨old, hold, hroute, -⟩ := h entry hentry
    rw [hroute] at heq ⊢
    exact hkept.vacant port hport _ hold heq

lemma Backed.shrink {networkId : Option (List Nat)} {answer : PortRouteAllocation}
    (hbacked : Backed pending networkId answer)
    (hthere : answer.allocationId ∈ pending'.keys) : Backed pending' networkId answer := by
  obtain ⟨allocation, hentry, hendpoint, hport⟩ := hbacked
  obtain ⟨found, hfound⟩ := mem_keys_iff.mp hthere
  obtain ⟨old, hold, hroute, -⟩ := h _ hfound
  obtain rfl := value_unique hentry hold
  exact ⟨found, hfound, (endpoint_eq_of_route hroute).trans hendpoint, hroute ▸ hport⟩

omit h

lemma PendingKept.reserve (hkept : PendingKept setting pending uuids)
    (hrunning : RunningKept setting pending running) {port : Nat}
    (hport : running.phase.port? = some port) (expiresAtMs : Int) :
    PendingKept setting (pending.set (setting.uuid uuids)
      ⟨setting.uuid uuids, running.request.allocatedRoute port, expiresAtMs⟩) (uuids + 1) := by
  have hendpoint : endpoint
      ⟨setting.uuid uuids, running.request.allocatedRoute port, expiresAtMs⟩ = running.request.endpoint := rfl
  constructor
  · intro entry hentry
    rcases mem_set.mp hentry with rfl | ⟨hold, -⟩
    · rfl
    · exact hkept.keyed entry hold
  · intro id hid
    rcases mem_keys_set.mp hid with rfl | hold
    · exact ⟨uuids, Nat.lt_succ_self _, rfl⟩
    · obtain ⟨n, hlt, rfl⟩ := hkept.made id hold
      exact ⟨n, Nat.lt_succ_of_lt hlt, rfl⟩
  · intro a ha b hb hsame
    rcases mem_set.mp ha with rfl | ⟨holda, -⟩
    · rcases mem_set.mp hb with rfl | ⟨holdb, -⟩
      · rfl
      · exact absurd (hsame.symm.trans hendpoint) (hrunning.free b holdb)
    · rcases mem_set.mp hb with rfl | ⟨holdb, -⟩
      · exact absurd (hsame.trans hendpoint) (hrunning.free a holda)
      · exact hkept.unique a holda b holdb hsame
  · intro a ha b hb hcollides
    obtain ⟨hsame, hhosts⟩ := hcollides
    rcases mem_set.mp ha with rfl | ⟨holda, -⟩
    · rcases mem_set.mp hb with rfl | ⟨holdb, -⟩
      · rfl
      · rw [endpointHostMatches_comm] at hhosts
        exact absurd (hhosts.symm.trans (hrunning.vacant port hport b holdb hsame.symm)) nofun
    · rcases mem_set.mp hb with rfl | ⟨holdb, -⟩
      · exact absurd (hhosts.symm.trans (hrunning.vacant port hport a holda hsame)) nofun
      · exact hkept.apart a holda b holdb ⟨hsame, hhosts⟩

namespace AllocationDaemon

section Parts

variable (setting : AllocationSetting) (daemon : AllocationDaemon)

end Parts

variable {setting : AllocationSetting} {daemon : AllocationDaemon}

/-- What holds of the daemon; an answer is backed as long as its allocation is there. -/
structure Kept (setting : AllocationSetting) (daemon : AllocationDaemon) : Prop where
  pending : PendingKept setting daemon.pending daemon.uuids
  running : ∀ running, daemon.running = some running → RunningKept setting daemon.pending running
  made : ∀ ticket networkId answer, (ticket, RouteAnswer.reserved networkId answer) ∈ daemon.answers →
    ∃ n < daemon.uuids, answer.allocationId = setting.uuid n
  backed : ∀ ticket networkId answer, (ticket, RouteAnswer.reserved networkId answer) ∈ daemon.answers →
    answer.allocationId ∈ daemon.pending.keys → Backed daemon.pending networkId answer

variable (hkept : daemon.Kept setting)
include hkept

lemma Kept.shrunk {after : AllocationDaemon}
    (hpending : Shrinks daemon.pending after.pending) (huuids : after.uuids = daemon.uuids)
    (hrunning : ∀ running, after.running = some running → RunningKept setting after.pending running)
    (hanswers : ∀ ticket networkId answer, (ticket, reserved networkId answer) ∈ after.answers →
      (ticket, reserved networkId answer) ∈ daemon.answers ∨ Backed daemon.pending networkId answer) :
    after.Kept setting where
  pending := huuids ▸ hkept.pending.shrink hpending
  running := hrunning
  made := by
    intro ticket networkId answer hanswer
    rw [huuids]
    rcases hanswers ticket networkId answer hanswer with hold | ⟨allocation, hentry, -⟩
    · exact hkept.made ticket networkId answer hold
    · exact hkept.pending.made _ (mem_keys_iff.mpr ⟨allocation, hentry⟩)
  backed := by
    intro ticket networkId answer hanswer hthere
    rcases hanswers ticket networkId answer hanswer with hold | hbacked
    · obtain ⟨allocation, hentry⟩ := mem_keys_iff.mp hthere
      obtain ⟨found, hfound, -⟩ := hpending _ hentry
      have hbefore := hkept.backed ticket networkId answer hold (mem_keys_iff.mpr ⟨found, hfound⟩)
      exact hbefore.shrink hpending hthere
    · exact hbacked.shrink hpending hthere

lemma Kept.cleaned_shrinks : Shrinks daemon.pending (daemon.cleaned setting).pending :=
  shrinks_cleanup _ _ _ hkept.pending.keyed

lemma Kept.cleaned : (daemon.cleaned setting).Kept setting :=
  hkept.shrunk hkept.cleaned_shrinks rfl
    (fun running hrunning => (hkept.running running hrunning).shrink hkept.cleaned_shrinks) fun _ _ _ h => .inl h

variable (ticket : Nat)

lemma Kept.answered {answer : RouteAnswer}
    (hbacked : ∀ networkId allocation, answer = .reserved networkId allocation →
      Backed daemon.pending networkId allocation) : (daemon.answered ticket answer).Kept setting := by
  refine hkept.shrunk (Shrinks.refl _) rfl (fun _ hrunning => absurd hrunning (Option.some_ne_none _).symm)
    fun _ networkId allocation hanswer => ?_
  rcases mem_append.mp hanswer with hold | hnew
  · exact .inl hold
  · exact .inr (hbacked networkId allocation (Prod.mk.inj (mem_singleton.mp hnew)).2.symm)

lemma Kept.attachedAnswer (request : AllocateRouteRequest)
    (actualPort : Nat) (host : List Nat) : (daemon.attachedAnswer setting ticket request actualPort host).Kept setting :=
  hkept.cleaned.answered ticket fun _ _ h => RouteAnswer.noConfusion h

variable {allocation : PendingRouteAllocation}

lemma Kept.reservedAnswer (request : AllocateRouteRequest)
    (id : List Nat) (actualPort : Nat) (host : List Nat) (expiresAtMs : Int)
    (hentry : (id, allocation) ∈ daemon.pending.entries) (hendpoint : allocation.endpoint = request.endpoint)
    (hport : allocation.route.actualPort = actualPort) :
    (daemon.reservedAnswer setting ticket request id actualPort host expiresAtMs).Kept setting := by
  refine hkept.shrunk hkept.cleaned_shrinks rfl (fun _ hrunning => absurd hrunning (Option.some_ne_none _).symm)
    fun _ networkId answer hanswer => ?_
  rcases mem_append.mp hanswer with hold | hnew
  · exact .inl hold
  · obtain ⟨rfl, rfl⟩ := reserved.inj (Prod.mk.inj (mem_singleton.mp hnew)).2
    exact .inr ⟨allocation, hentry, hendpoint, hport⟩

lemma Kept.runs (hrunning : RunningKept setting daemon.pending running) :
    ({ daemon with running := some running } : AllocationDaemon).Kept setting := by
  refine hkept.shrunk (Shrinks.refl _) rfl (fun found hfound => ?_) fun _ _ _ h => .inl h
  rw [← Option.some.inj hfound]
  exact hrunning

lemma Kept.route {request : AllocateRouteRequest}
    (hfree : ∀ entry ∈ daemon.pending.entries, entry.2.endpoint ≠ request.endpoint) :
    (daemon.route ticket request).Kept setting := by
  unfold AllocationDaemon.route
  split
  · exact hkept.answered ticket fun _ _ h => RouteAnswer.noConfusion h
  · exact hkept.runs ⟨hfree, nofun⟩

omit hkept

variable {pending : PendingRoutes} {request : AllocateRouteRequest}

lemma free_of_not_found
    (hnone : findReusablePendingRouteAllocation pending request.requestedPort request.network = none) :
    ∀ entry ∈ pending.entries, entry.2.endpoint ≠ request.endpoint := by
  intro entry hentry heq
  obtain ⟨hnetwork, hport⟩ := Prod.mk.inj heq
  have hnot := find?_eq_none.mp hnone entry.2 (mem_map_of_mem hentry)
  exact hnot (decide_eq_true (buildLogicalEndpointIdentity_eq_iff.mpr ⟨hnetwork, hport⟩))

lemma backed_of_found (hkeyed : Keyed pending)
    (hfound : findReusablePendingRouteAllocation pending request.requestedPort request.network = some allocation) :
    (allocation.id, allocation) ∈ pending.entries ∧ allocation.endpoint = request.endpoint := by
  obtain ⟨entry, hentry, rfl⟩ := mem_map.mp (mem_of_find?_eq_some hfound)
  have hidentity : buildLogicalEndpointIdentity entry.2.route.networkId entry.2.route.logicalPort =
      buildLogicalEndpointIdentity request.network request.requestedPort := by
    simpa using find?_some hfound
  obtain ⟨hnetwork, hport⟩ := buildLogicalEndpointIdentity_eq_iff.mp hidentity
  exact ⟨by rw [hkeyed entry hentry]; exact hentry, Prod.ext hnetwork hport⟩

lemma Kept.allocate (hkept : daemon.Kept setting) (ticket : Nat) (request : AllocateRouteRequest) :
    (daemon.allocate setting ticket request).Kept setting := by
  have hcleaned := hkept.cleaned
  unfold AllocationDaemon.allocate
  generalize daemon.cleaned setting = daemon at hcleaned
  dsimp only
  split
  · exact hcleaned.attachedAnswer ticket request _ _
  next =>
    split
    next allocation hfound =>
      obtain ⟨hentry, hendpoint⟩ := backed_of_found hcleaned.pending.keyed hfound
      have hrefreshed : Shrinks daemon.pending
          (refreshPendingRouteAllocation daemon.pending allocation daemon.nowMs) :=
        (Shrinks.refl _).refresh hcleaned.pending.keyed hentry daemon.nowMs
      have hkeptNow : (daemon.withPending (refreshPendingRouteAllocation daemon.pending allocation daemon.nowMs)).Kept
          setting :=
        hcleaned.shrunk hrefreshed rfl (fun running hrunning =>
          (hcleaned.running running hrunning).shrink hrefreshed) fun _ _ _ h => .inl h
      exact hkeptNow.reservedAnswer ticket request _ _ _ _ (mem_set.mpr (.inl rfl)) hendpoint rfl
    next hnone =>
      have hfree := free_of_not_found hnone
      split
      · exact hcleaned.runs ⟨hfree, nofun⟩
      · exact hcleaned.route ticket hfree

lemma Kept.afterScan (hkept : daemon.Kept setting) (ticket : Nat)
    (hfree : ∀ entry ∈ daemon.pending.entries, entry.2.endpoint ≠ request.endpoint)
    (listeners : List ListeningPortEndpoint) : (daemon.afterScan setting ticket request listeners).Kept setting := by
  have hremembered : ({ daemon with reservedListeningEndpoints := daemon.rememberReservedListeningPorts listeners } :
      AllocationDaemon).Kept setting := { hkept with }
  unfold AllocationDaemon.afterScan
  dsimp only
  split
  · exact hremembered.attachedAnswer ticket request _ _
  · exact hremembered.route ticket hfree

lemma vacant_of_not_reserved {port : Nat} {host : List Nat}
    (hreserved : ¬ daemon.isActualPortReserved setting port host = true) :
    ∀ entry ∈ daemon.pending.entries, entry.2.route.actualPort = port →
      endpointHostMatches setting.lower entry.2.route.host host = false := by
  intro entry hentry hport
  simp only [isActualPortReserved, Bool.or_eq_true, not_or] at hreserved
  have hpending := hreserved.1.1
  simp only [any_eq_true, not_exists, not_and] at hpending
  have hnot := hpending entry.2 (mem_map_of_mem hentry)
  simpa [hport] using hnot

variable (hkept : daemon.Kept setting)
include hkept

lemma Kept.checkNext
    (hfree : ∀ entry ∈ daemon.pending.entries, entry.2.endpoint ≠ request.endpoint) (candidates : List Nat) :
    (daemon.checkNext setting ticket request candidates).Kept setting := by
  cases candidates with
  | nil => exact hkept.answered ticket fun _ _ h => RouteAnswer.noConfusion h
  | cons candidate rest =>
    have hfreeNow : ∀ entry ∈ (daemon.cleaned setting).pending.entries, entry.2.endpoint ≠ request.endpoint := by
      intro entry hentry
      obtain ⟨old, hold, hroute, -⟩ := hkept.cleaned_shrinks entry hentry
      rw [endpoint_eq_of_route hroute]
      exact hfree _ hold
    have hcleaned := hkept.cleaned
    unfold AllocationDaemon.checkNext
    generalize daemon.cleaned setting = daemon at hcleaned hfreeNow
    dsimp only
    split
    · exact hcleaned.runs ⟨hfreeNow, nofun⟩
    next hreserved =>
      refine hcleaned.runs ⟨hfreeNow, fun port hport => ?_⟩
      obtain rfl : candidate = port := Option.some.inj hport
      exact vacant_of_not_reserved hreserved

lemma Kept.reserve
    (hrunning : daemon.running = some running) {port : Nat} (hport : running.phase.port? = some port) (ticket : Nat) :
    (daemon.reserve setting ticket running.request port).Kept setting := by
  have hmade := hkept.pending.reserve (hkept.running running hrunning) hport (daemon.nowMs + ROUTE_ALLOCATION_TTL_MS)
  -- the call is over once its allocation is made, so its endpoint need not be free any longer
  have hended : ({ daemon.withPending (daemon.pending.set (setting.uuid daemon.uuids)
        ⟨setting.uuid daemon.uuids, running.request.allocatedRoute port, daemon.nowMs + ROUTE_ALLOCATION_TTL_MS⟩) with
      uuids := daemon.uuids + 1, running := none } : AllocationDaemon).Kept setting := by
    refine ⟨hmade, fun _ hnone => absurd hnone (Option.some_ne_none _).symm, ?_, ?_⟩
    · intro before networkId answer hanswer
      obtain ⟨n, hlt, hid⟩ := hkept.made before networkId answer hanswer
      exact ⟨n, Nat.lt_succ_of_lt hlt, hid⟩
    intro before networkId answer hanswer hthere
    obtain ⟨n, hlt, hid⟩ := hkept.made before networkId answer hanswer
    have hne : answer.allocationId ≠ setting.uuid daemon.uuids := fun heq =>
      absurd (setting.uuid_injective (hid.symm.trans heq)) (ne_of_lt hlt)
    have hold := (mem_keys_set.mp hthere).resolve_left hne
    obtain ⟨allocation, hentry, hendpoint, hactual⟩ := hkept.backed before networkId answer hanswer hold
    exact ⟨allocation, mem_set.mpr (.inr ⟨hentry, hne⟩), hendpoint, hactual⟩
  exact hended.reservedAnswer ticket running.request _ port _ _ (mem_set.mpr (.inl rfl)) rfl rfl

lemma Kept.begin (call : RouteCall) : (daemon.begin setting ticket call).Kept setting := by
  cases call with
  | allocate request => exact hkept.allocate ticket request
  | release allocationId =>
    have hdeleted : (daemon.withPending (daemon.pending.delete allocationId)).Kept setting :=
      hkept.shrunk ((Shrinks.refl _).delete allocationId) rfl (fun running hrunning =>
        (hkept.running running hrunning).shrink ((Shrinks.refl _).delete allocationId)) fun _ _ _ h => .inl h
    exact hdeleted.answered ticket fun _ _ h => RouteAnswer.noConfusion h
  | register input =>
    have hregistered := shrinks_register setting.defaultHost daemon.routes input
    have hkeptNow : ({ daemon with routes := (daemon.routes.registerExistingProcess setting.defaultHost input).2 } :
        AllocationDaemon).Kept setting :=
      hkept.shrunk hregistered rfl (fun running hrunning =>
        (hkept.running running hrunning).shrink hregistered) fun _ _ _ h => .inl h
    exact hkeptNow.answered ticket fun _ _ h => RouteAnswer.noConfusion h

lemma Kept.step (event : AllocationEvent) : (daemon.step setting event).Kept setting := by
  cases event with
  | call call | clock nowMs | listeners endpoints => exact { hkept with }
  | begin =>
    unfold AllocationDaemon.step
    dsimp only
    split
    next ticket call queue _ _ =>
      have hqueued : ({ daemon with queue } : AllocationDaemon).Kept setting :=
        { hkept with }
      exact hqueued.begin ticket call
    next => exact hkept
  | scanned listeners =>
    unfold AllocationDaemon.step
    dsimp only
    split
    next ticket request hrunning => exact hkept.afterScan ticket (hkept.running _ hrunning).free listeners
    next => exact hkept
  | check =>
    unfold AllocationDaemon.step
    dsimp only
    split
    next ticket request candidates hrunning => exact hkept.checkNext ticket (hkept.running _ hrunning).free candidates
    next => exact hkept
  | probed available =>
    unfold AllocationDaemon.step
    dsimp only
    split
    next ticket request candidate rest hrunning =>
      -- an available candidate is decided on, and it is as vacant as before its probe
      have hnow := hkept.running _ hrunning
      refine hkept.runs ⟨hnow.free, ?_⟩
      cases available with
      | true => exact hnow.vacant
      | false => exact nofun
    next => exact hkept
  | probeFailed =>
    unfold AllocationDaemon.step
    dsimp only
    split
    next ticket _ _ _ hrunning => exact hkept.answered ticket fun _ _ h => RouteAnswer.noConfusion h
    next => exact hkept
  | reserve =>
    unfold AllocationDaemon.step
    dsimp only
    split
    next ticket request port hrunning => exact hkept.reserve hrunning rfl ticket
    next => exact hkept
  | expire => exact hkept.cleaned

omit hkept

lemma kept_start : start.Kept setting := by
  have hnone : ∀ entry : List Nat × PendingRouteAllocation, entry ∉ start.pending.entries := fun _ => not_mem_nil
  refine ⟨⟨?_, ?_, ?_, ?_⟩, ?_, ?_, ?_⟩
  · exact fun entry hentry => absurd hentry (hnone entry)
  · exact fun id hid => absurd hid not_mem_nil
  · exact fun entry hentry => absurd hentry (hnone entry)
  · exact fun entry hentry => absurd hentry (hnone entry)
  · exact fun _ hrunning => absurd hrunning (Option.some_ne_none _).symm
  · exact fun _ _ _ hanswer => absurd hanswer not_mem_nil
  · exact fun _ _ _ hanswer => absurd hanswer not_mem_nil

lemma kept_run (setting : AllocationSetting) (events : List AllocationEvent) : (run (step setting) start events).Kept setting :=
  run_keeps (fun _ event hkept => hkept.step event) kept_start events

/-- In every run there is at most one pending allocation for each endpoint, two answers for one endpoint by
allocations that are still pending have the same port, and no two pending allocations collide. -/
theorem allocations_consistent (setting : AllocationSetting) (events : List AllocationEvent) :
    (∀ a ∈ (run (step setting) start events).pending.entries, ∀ b ∈ (run (step setting) start events).pending.entries,
      a.2.endpoint = b.2.endpoint → a = b) ∧
    (∀ ticket ticket' networkId networkId' a b,
      (ticket, reserved networkId a) ∈ (run (step setting) start events).answers →
      (ticket', reserved networkId' b) ∈ (run (step setting) start events).answers →
      endpointOf networkId a.requestedPort = endpointOf networkId' b.requestedPort →
      a.allocationId ∈ (run (step setting) start events).pending.keys →
      b.allocationId ∈ (run (step setting) start events).pending.keys → a.actualPort = b.actualPort) ∧
    (∀ a ∈ (run (step setting) start events).pending.entries, ∀ b ∈ (run (step setting) start events).pending.entries,
      a.2.collides setting.lower b.2 → a = b) := by
  have hkept := kept_run setting events
  generalize run (step setting) start events = daemon at hkept
  have hentry : ∀ a ∈ daemon.pending.entries, ∀ b ∈ daemon.pending.entries, a.1 = b.1 → a = b := by
    rintro ⟨id, a⟩ ha ⟨_, b⟩ hb rfl
    rw [value_unique ha hb]
  refine ⟨fun a ha b hb hsame => ?_, ?_, fun a ha b hb hcollides => ?_⟩
  · exact hentry a ha b hb (hkept.pending.unique a ha b hb hsame)
  · intro ticket ticket' networkId networkId' a b ha hb hsame hthere hthere'
    obtain ⟨allocation, hentrya, hendpoint, hport⟩ := hkept.backed ticket networkId a ha hthere
    obtain ⟨allocation', hentryb, hendpoint', hport'⟩ := hkept.backed ticket' networkId' b hb hthere'
    -- both answers are backed by the one allocation for the endpoint
    have hid := hkept.pending.unique _ hentrya _ hentryb (hendpoint.trans (hsame.trans hendpoint'.symm))
    have hone := (Prod.mk.inj (hentry _ hentrya _ hentryb hid)).2
    rw [← hport, ← hport', hone]
  · exact hentry a ha b hb (hkept.pending.apart a ha b hb hcollides)

/-! ## An allocation that is gone -/

def sampleAllocations : AllocationSetting :=
  { RegistryHistory.sampleRegistry with
    lower := id
    routeTablePath := codes "/tmp/routes.tsv"
    uuid := fun n => [n]
    uuid_injective := fun h => List.head_eq_of_cons_eq h }

def listenerRequest : AllocateRouteRequest where
  name := none
  command := none
  cwd := codes "/w"
  requestedPort := 3000
  host := codes "127.0.0.1"
  actualHost := none
  networkId := none
  experimentalRouteOwnershipMode := none
  terminalSessionId := none
  processGroupId := none
  routeDirection := some .listen
  scanRange := 10
  scanDirection := .up
  routingMode := none
  virtualPortRangeStart := none
  virtualPortRangeEnd := none

/-- Two listeners ask for port 3000 at once, and a server on that port registers between them. -/
def registrationBetween : List AllocationEvent :=
  [.call (.allocate listenerRequest), .call (.register (RegistryHistory.hookedInput 3000)), .call (.allocate listenerRequest)]

def callsRun : List AllocationEvent :=
  [.begin, .check, .probed true, .reserve, .begin, .begin, .check, .check, .probed true, .reserve]

def reservedPorts (daemon : AllocationDaemon) : List (Nat × Nat × Bool) :=
  daemon.answers.filterMap fun
    | (ticket, .reserved _ allocation) =>
      some (ticket, allocation.actualPort, allocation.allocationId ∈ daemon.pending.keys)
    | _ => none

/-- The registration takes the first allocation away, and the second call gets another port. -/
theorem concurrent_ports_differ :
    (run (step sampleAllocations) start registrationBetween).answers = [] ∧
      reservedPorts (run (step sampleAllocations) start (registrationBetween ++ callsRun)) =
        [(0, 3000, false), (2, 3001, true)] := by
  constructor
  · rfl
  · decide +kernel

end AllocationDaemon

end PortManager.Node
