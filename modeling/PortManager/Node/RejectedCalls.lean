import PortManager.Node.AllocationRuns
import PortManager.Node.Lifecycle

/-!
# Calls that reject

`allocateRoute` and `startManagedProcessExclusive` (`src/agent/port-manager-agent.ts`) from their invocation to
their end, with the answers they wait for as arguments: the listener scan, the probe of each candidate, the
launch, and whether `writeRouteTable` throws. The clock moves while a call waits; what other tasks of the daemon
do meanwhile is not part of the call.

A call that rejects leaves the pending allocations and the rows as they were, up to expired allocations, unless
one of its cleanups renews an allocation whose endpoint still listens, or the publication is refused after an
allocation was made or renewed or a row was registered (`rejected_call_untouched_iff`).
-/

namespace PortManager.Node
open JsonText List InsertionMap AllocationDaemon

/-! ## Cleanup, entry by entry -/

section Cleanup

variable (lower : List Nat → List Nat) (nowMs : Int) (listeners : List ListeningPortEndpoint)

def listening (route : LogicalPortRoute) : Bool :=
  listeners.any fun listener =>
    listener.port = route.actualPort && endpointHostMatches lower listener.localAddress route.host

/-- What a cleanup leaves of an entry. -/
def cleanupOutcome (entry : List Nat × PendingRouteAllocation) : Option (List Nat × PendingRouteAllocation) :=
  if nowMs < entry.2.expiresAtMs then some entry
  else if listening lower listeners entry.2.route then
    some (entry.1, { entry.2 with expiresAtMs := nowMs + ROUTE_ALLOCATION_TTL_MS })
  else none

variable {lower nowMs listeners} {pending : PendingRoutes} {entry left : List Nat × PendingRouteAllocation}

lemma cleanupOutcome_eq_some_iff :
    cleanupOutcome lower nowMs listeners entry = some left ↔
      (nowMs < entry.2.expiresAtMs ∧ entry = left) ∨
      (entry.2.expiresAtMs ≤ nowMs ∧ listening lower listeners entry.2.route ∧
        left = (entry.1, { entry.2 with expiresAtMs := nowMs + ROUTE_ALLOCATION_TTL_MS })) := by
  unfold cleanupOutcome
  split_ifs with hfresh hlistening
  · simp [hfresh, Int.not_le.mpr hfresh]
  · simp [hfresh, Int.not_lt.mp hfresh, hlistening, eq_comm]
  · simp [hfresh, hlistening]

lemma cleanupOutcome_key (h : cleanupOutcome lower nowMs listeners entry = some left) : left.1 = entry.1 := by
  obtain ⟨-, rfl⟩ | ⟨-, -, rfl⟩ := cleanupOutcome_eq_some_iff.mp h
  · rfl
  · rfl

lemma mem_cleanupExpiredEntry (hentry : entry ∈ pending.entries) (hid : entry.2.id = entry.1) :
    left ∈ (cleanupExpiredEntry lower nowMs listeners pending entry).entries ↔
      (left ∈ pending.entries ∧ left.1 ≠ entry.1) ∨ cleanupOutcome lower nowMs listeners entry = some left := by
  obtain ⟨id, allocation⟩ := entry
  obtain rfl : allocation.id = id := hid
  unfold cleanupExpiredEntry cleanupOutcome
  change _ ∈ InsertionMap.entries (if _ then _ else if listening lower listeners allocation.route = true then _ else _) ↔ _
  split_ifs with hfresh hlistening
  · constructor
    · intro hleft
      by_cases hkey : left.1 = allocation.id
      · obtain ⟨id, value⟩ := left
        obtain rfl : id = allocation.id := hkey
        exact .inr (congrArg some (Prod.ext rfl (value_unique hentry hleft)))
      · exact .inl ⟨hleft, hkey⟩
    · rintro (⟨hleft, -⟩ | hsame)
      · exact hleft
      · exact Option.some.inj hsame ▸ hentry
  · rw [refreshPendingRouteAllocation, InsertionMap.mem_set, Option.some.injEq, or_comm, @eq_comm _ left]
  · rw [mem_delete]
    simp

lemma mem_cleanup_loop : ∀ (todo : List (List Nat × PendingRouteAllocation)) (current : PendingRoutes),
    (todo.map Prod.fst).Nodup → (∀ entry ∈ todo, entry ∈ current.entries) → (∀ entry ∈ todo, entry.2.id = entry.1) →
    (left ∈ (todo.foldl (cleanupExpiredEntry lower nowMs listeners) current).entries ↔
      (left ∈ current.entries ∧ left.1 ∉ todo.map Prod.fst) ∨
        ∃ entry ∈ todo, cleanupOutcome lower nowMs listeners entry = some left) := by
  intro todo
  induction todo with
  | nil => simp
  | cons entry todo ih =>
    intro current hnodup hcurrent hid
    obtain ⟨hnew, hnodup⟩ := nodup_cons.mp hnodup
    have hstep : ∀ left, left ∈ (cleanupExpiredEntry lower nowMs listeners current entry).entries ↔
        (left ∈ current.entries ∧ left.1 ≠ entry.1) ∨ cleanupOutcome lower nowMs listeners entry = some left :=
      fun _ => mem_cleanupExpiredEntry (hcurrent entry mem_cons_self) (hid entry mem_cons_self)
    -- the entries that are still to come have other keys
    have hrest : ∀ other ∈ todo, other ∈ (cleanupExpiredEntry lower nowMs listeners current entry).entries := by
      intro other hother
      refine (hstep other).mpr (.inl ⟨hcurrent other (mem_cons_of_mem _ hother), fun hkey => hnew ?_⟩)
      exact hkey ▸ mem_map_of_mem hother
    rw [foldl_cons, ih _ hnodup hrest fun other hother => hid other (mem_cons_of_mem _ hother), hstep]
    simp only [map_cons, mem_cons, not_or, exists_eq_or_imp]
    constructor
    · rintro (⟨⟨hleft, hne⟩ | hout, hnot⟩ | hlater)
      · exact .inl ⟨hleft, hne, hnot⟩
      · exact .inr (.inl hout)
      · exact .inr (.inr hlater)
    · rintro (⟨hleft, hne, hnot⟩ | hout | hlater)
      · exact .inl ⟨.inl ⟨hleft, hne⟩, hnot⟩
      · exact .inl ⟨.inr hout, cleanupOutcome_key hout ▸ hnew⟩
      · exact .inr hlater

lemma mem_cleanup_iff (hkeyed : Keyed pending) :
    left ∈ (cleanupExpiredRouteAllocations lower nowMs listeners pending).entries ↔
      ∃ entry ∈ pending.entries, cleanupOutcome lower nowMs listeners entry = some left := by
  rw [cleanupExpiredRouteAllocations, mem_cleanup_loop _ _ pending.nodup (fun _ h => h) hkeyed]
  refine or_iff_right ?_
  rintro ⟨hleft, hnot⟩
  exact hnot (mem_map_of_mem hleft)

end Cleanup

/-! ## The calls -/

inductive ProbeAnswer where
  | free | busy | failed

structure CallAnswers where
  /-- `none` when the scan fails -/
  scan : Option (List ListeningPortEndpoint) × Nat
  probe : Nat → ProbeAnswer × Nat
  /-- the pid, or `none` when the launch fails -/
  launch : Option Int × Nat
  /-- `writeRouteTable` throws -/
  refused : Bool

inductive CallOutcome where
  /-- found a running receiver or an external listener -/
  | attached
  /-- changed the expiry of a pending allocation -/
  | refreshed (expiredAtMs expiresAtMs : Int)
  /-- made an allocation -/
  | reserved
  /-- registered a row -/
  | registered
deriving DecidableEq

inductive RouteFailure where
  | routing (error : PortRoutingError)
  | probe
deriving DecidableEq

inductive CallError where
  | route (failure : RouteFailure)
  | launch
  | publication (outcome : CallOutcome)
deriving DecidableEq

structure CallState where
  daemon : AllocationDaemon
  /-- a cleanup of the call has renewed an allocation -/
  renewed : Bool

namespace CallState

variable (setting : AllocationSetting) (state : CallState)

def listening (route : LogicalPortRoute) : Bool :=
  Node.listening setting.lower state.daemon.reservedListeningEndpoints route

def renews : Bool :=
  state.daemon.pending.entries.any fun entry =>
    entry.2.expiresAtMs ≤ state.daemon.nowMs && state.listening setting entry.2.route

def cleaned : CallState := ⟨state.daemon.cleaned setting, state.renewed || state.renews setting⟩

def elapsed (ms : Nat) : CallState := { state with daemon.nowMs := state.daemon.nowMs + ms }

/-- `scanListeningPortsForPort`; its callers ignore a failure. -/
def scanned (scan : Option (List ListeningPortEndpoint) × Nat) : CallState :=
  let state := state.elapsed scan.2
  match scan.1 with
  | none => state
  | some listeners =>
    { state with
      daemon.reservedListeningEndpoints := state.daemon.rememberReservedListeningPorts listeners }

/-- The loop of `routingService.route`. -/
def choose (probe : Nat → ProbeAnswer × Nat) (host : List Nat) (exhausted : PortRoutingError) :
    CallState → List Nat → Except RouteFailure Nat × CallState
  | state, [] => (.error (.routing exhausted), state)
  | state, candidate :: rest =>
    let state := state.cleaned setting
    if state.daemon.isActualPortReserved setting candidate host then choose probe host exhausted state rest
    else
      let state := state.elapsed (probe candidate).2
      match (probe candidate).1 with
      | .free => (.ok candidate, state)
      | .busy => choose probe host exhausted state rest
      | .failed => (.error .probe, state)

def route (request : PortRoutingRequest) (probe : Nat → ProbeAnswer × Nat) : Except RouteFailure Nat × CallState :=
  match request.candidates with
  | .error error => (.error (.routing error), state)
  | .ok candidates => choose setting probe request.host request.exhausted state candidates

/-- `buildCurrentLogicalRoutes` and `publishRouteTableBestEffort` at the end of a call. -/
def publish (refused : Bool) (outcome : CallOutcome) : Except CallError CallOutcome × CallState :=
  (if refused then .error (.publication outcome) else .ok outcome, state.cleaned setting)

/-- `refreshPendingRouteAllocation` -/
def refreshed (allocation : PendingRouteAllocation) : CallState :=
  { state with
    daemon := state.daemon.withPending
      (refreshPendingRouteAllocation state.daemon.pending allocation state.daemon.nowMs) }

variable (request : AllocateRouteRequest)

def reserved (port : Nat) : CallState :=
  let id := setting.uuid state.daemon.uuids
  { state with
    daemon := { state.daemon.withPending (state.daemon.pending.set id
        ⟨id, request.allocatedRoute port, state.daemon.nowMs + ROUTE_ALLOCATION_TTL_MS⟩) with
      uuids := state.daemon.uuids + 1 } }

/-- `allocateRoute` from the routing decision on. -/
def allocateNew (answers : CallAnswers) : Except CallError CallOutcome × CallState :=
  match state.route setting request.routing answers.probe with
  | (.error failure, state) => (.error (.route failure), state)
  | (.ok port, state) => (state.reserved setting request port).publish setting answers.refused .reserved

def allocateRoute (answers : CallAnswers) : Except CallError CallOutcome × CallState :=
  let state := state.cleaned setting
  match if request.direction = .send then state.daemon.findReusableActiveRoute setting request else none with
  | some _ => state.publish setting answers.refused .attached
  | none =>
    match findReusablePendingRouteAllocation state.daemon.pending request.requestedPort request.network with
    | some allocation =>
      (state.refreshed allocation).publish setting answers.refused
        (.refreshed allocation.expiresAtMs (state.daemon.nowMs + ROUTE_ALLOCATION_TTL_MS))
    | none =>
      if request.direction = .send ∧ request.network = none then
        let state := state.scanned answers.scan
        if (answers.scan.1.getD []).any fun listener =>
            listener.port = request.requestedPort &&
              AllocationDaemon.samePortListenerMatchesRoutedHosts setting listener.localAddress request.host
                (normalizeOptionalHost request.actualHost) then
          state.publish setting answers.refused .attached
        else state.allocateNew setting request answers
      else state.allocateNew setting request answers

variable (profile : LaunchProfile)

/-- The input of `registry.register` in `startManagedProcessExclusive`. -/
def managedInput (port : Nat) (pid : Int) : RegisteredProcessInput where
  pid := pid
  name := profile.name
  command := profile.command
  cwd := profile.cwd
  requestedPort := profile.requestedPort
  actualPort := port
  host := profile.host
  networkId := none
  terminalSessionId := none
  processGroupId := none
  allocationId := none
  source := none

def registered (port : Nat) (pid : Int) : CallState :=
  { state with
    daemon.routes.registry := state.daemon.routes.registry.register (managedInput profile port pid) .managed
      setting.defaultHost }

def startManagedProcessExclusive (answers : CallAnswers) : Except CallError CallOutcome × CallState :=
  match (state.scanned answers.scan).route setting profile.routing answers.probe with
  | (.error failure, state) => (.error (.route failure), state)
  | (.ok port, state) =>
    let state := state.elapsed answers.launch.2
    match answers.launch.1 with
    | none => (.error .launch, state)
    | some pid => (state.registered setting profile port pid).publish setting answers.refused .registered

end CallState

inductive RouteOperation where
  | allocateRoute (request : AllocateRouteRequest)
  | startManagedProcess (profile : LaunchProfile)

def RouteOperation.perform (setting : AllocationSetting) (answers : CallAnswers) (daemon : AllocationDaemon) :
    RouteOperation → Except CallError CallOutcome × CallState
  | .allocateRoute request => CallState.allocateRoute setting ⟨daemon, false⟩ request answers
  | .startManagedProcess profile => CallState.startManagedProcessExclusive setting ⟨daemon, false⟩ profile answers

def CallError.harmless : CallError → Bool
  | .publication .attached => true
  | .publication (.refreshed expiredAtMs expiresAtMs) => expiredAtMs = expiresAtMs
  | .publication .reserved => false
  | .publication .registered => false
  | .route _ => true
  | .launch => true

/-! ## What a call leaves -/

/-- The rows and the pending allocations are those from before, apart from allocations that have expired. -/
structure Untouched (before after : AllocationDaemon) : Prop where
  rows : after.routes.registry.processesById = before.routes.registry.processesById
  kept : ∀ entry ∈ after.pending.entries, entry ∈ before.pending.entries
  removed : ∀ entry ∈ before.pending.entries, after.nowMs < entry.2.expiresAtMs → entry ∈ after.pending.entries

/-- A state of the daemon: allocations are stored under their ids, and the next id is new. -/
structure DaemonState (setting : AllocationSetting) where
  daemon : AllocationDaemon
  keyed : Keyed daemon.pending
  fresh : setting.uuid daemon.uuids ∉ daemon.pending.keys

/-- An allocation had expired and was renewed, and its endpoint listens. -/
def CallState.Renewal (setting : AllocationSetting) (before : AllocationDaemon) (state : CallState) : Prop :=
  ∃ id old new, (id, old) ∈ before.pending.entries ∧ (id, new) ∈ state.daemon.pending.entries ∧
    old.expiresAtMs < new.expiresAtMs ∧ state.listening setting new.route = true

/-- What a call does to the daemon before it makes, refreshes or registers anything. -/
structure CallState.Follows (setting : AllocationSetting) (before : AllocationDaemon) (state : CallState) : Prop where
  keyed : Keyed state.daemon.pending
  uuids : state.daemon.uuids = before.uuids
  rows : state.daemon.routes.registry.processesById = before.routes.registry.processesById
  origin : ∀ entry ∈ state.daemon.pending.entries, entry ∈ before.pending.entries ∨
    (state.renewed = true ∧ ∃ old, (entry.1, old) ∈ before.pending.entries ∧ old.expiresAtMs ≤ state.daemon.nowMs)
  removed : ∀ entry ∈ before.pending.entries, state.daemon.nowMs < entry.2.expiresAtMs →
    entry ∈ state.daemon.pending.entries
  renewal : state.renewed = true → state.Renewal setting before

namespace CallState

variable {setting : AllocationSetting} {before : AllocationDaemon} {state state' : CallState}

lemma follows_start (start : DaemonState setting) : (CallState.mk start.daemon false).Follows setting start.daemon where
  keyed := start.keyed
  uuids := rfl
  rows := rfl
  origin := fun _ hentry => .inl hentry
  removed := fun _ hentry _ => hentry
  renewal := fun h => absurd h Bool.false_ne_true

lemma Follows.untouched_iff (h : state.Follows setting before) :
    Untouched before state.daemon ↔ state.renewed = false := by
  constructor
  · intro huntouched
    rw [← Bool.not_eq_true]
    intro hrenewed
    obtain ⟨id, old, new, hold, hnew, hlt, -⟩ := h.renewal hrenewed
    have hsame := value_unique hold (huntouched.kept _ hnew)
    exact absurd hlt (by rw [hsame]; exact Int.lt_irrefl _)
  · intro hrenewed
    refine ⟨h.rows, fun entry hentry => ?_, h.removed⟩
    rcases h.origin entry hentry with hbefore | ⟨htrue, -⟩
    · exact hbefore
    · exact absurd (hrenewed.symm.trans htrue) Bool.false_ne_true

lemma Follows.waits (h : state.Follows setting before) (huuids : state'.daemon.uuids = state.daemon.uuids)
    (hrows : state'.daemon.routes.registry.processesById = state.daemon.routes.registry.processesById)
    (hentries : ∀ entry, entry ∈ state'.daemon.pending.entries ↔ entry ∈ state.daemon.pending.entries)
    (hrenewed : state'.renewed = state.renewed) (hnow : state.daemon.nowMs ≤ state'.daemon.nowMs)
    (hlistening : ∀ route, state.listening setting route = true → state'.listening setting route = true) :
    state'.Follows setting before where
  keyed := fun entry hentry => h.keyed entry ((hentries entry).mp hentry)
  uuids := huuids.trans h.uuids
  rows := hrows.trans h.rows
  origin := by
    intro entry hentry
    rcases h.origin entry ((hentries entry).mp hentry) with hbefore | ⟨htrue, old, hold, hexpired⟩
    · exact .inl hbefore
    · exact .inr ⟨hrenewed.trans htrue, old, hold, hexpired.trans hnow⟩
  removed := by
    intro entry hentry hfresh
    exact (hentries entry).mpr (h.removed entry hentry (Int.lt_of_le_of_lt hnow hfresh))
  renewal := by
    intro htrue
    obtain ⟨id, old, new, hold, hnew, hlt, hlistens⟩ := h.renewal (hrenewed.symm.trans htrue)
    exact ⟨id, old, new, hold, (hentries _).mpr hnew, hlt, hlistening _ hlistens⟩

lemma mem_cleaned_iff (hkeyed : Keyed state.daemon.pending) {left : List Nat × PendingRouteAllocation} :
    left ∈ (state.cleaned setting).daemon.pending.entries ↔ ∃ entry ∈ state.daemon.pending.entries,
      cleanupOutcome setting.lower state.daemon.nowMs state.daemon.reservedListeningEndpoints entry = some left :=
  mem_cleanup_iff hkeyed

lemma mem_cleaned_of_fresh (hkeyed : Keyed state.daemon.pending) {entry : List Nat × PendingRouteAllocation}
    (hentry : entry ∈ state.daemon.pending.entries) (hfresh : state.daemon.nowMs < entry.2.expiresAtMs) :
    entry ∈ (state.cleaned setting).daemon.pending.entries :=
  (mem_cleaned_iff hkeyed).mpr ⟨entry, hentry, cleanupOutcome_eq_some_iff.mpr (.inl ⟨hfresh, rfl⟩)⟩

lemma lt_renewed (nowMs : Int) : nowMs < nowMs + ROUTE_ALLOCATION_TTL_MS := by
  unfold ROUTE_ALLOCATION_TTL_MS
  omega

variable {allocation : PendingRouteAllocation}

lemma exists_cleaned_of_listening (hkeyed : Keyed state.daemon.pending) {id : List Nat}
    (hentry : (id, allocation) ∈ state.daemon.pending.entries)
    (hlistens : state.listening setting allocation.route = true) :
    ∃ left, (id, left) ∈ (state.cleaned setting).daemon.pending.entries ∧ left.route = allocation.route ∧
      allocation.expiresAtMs ≤ left.expiresAtMs ∧ state.daemon.nowMs < left.expiresAtMs := by
  by_cases hfresh : state.daemon.nowMs < allocation.expiresAtMs
  · exact ⟨allocation, mem_cleaned_of_fresh hkeyed hentry hfresh, rfl, Int.le_refl _, hfresh⟩
  have hexpired := Int.not_lt.mp hfresh
  have hrenewed := lt_renewed state.daemon.nowMs
  refine ⟨{ allocation with expiresAtMs := state.daemon.nowMs + ROUTE_ALLOCATION_TTL_MS },
    (mem_cleaned_iff hkeyed).mpr ⟨_, hentry, ?_⟩, rfl, ?_, hrenewed⟩
  · exact cleanupOutcome_eq_some_iff.mpr (.inr ⟨hexpired, hlistens, rfl⟩)
  · exact Int.le_of_lt (Int.lt_of_le_of_lt hexpired hrenewed)

lemma Follows.cleaned (h : state.Follows setting before) : (state.cleaned setting).Follows setting before where
  keyed := (shrinks_cleanup _ _ _ h.keyed).keyed h.keyed
  uuids := h.uuids
  rows := h.rows
  origin := by
    intro left hleft
    obtain ⟨entry, hentry, hout⟩ := (mem_cleaned_iff h.keyed).mp hleft
    obtain ⟨-, rfl⟩ | ⟨hexpired, hlistens, rfl⟩ := cleanupOutcome_eq_some_iff.mp hout
    · rcases h.origin entry hentry with hbefore | ⟨htrue, hold⟩
      · exact .inl hbefore
      · exact .inr ⟨Bool.or_eq_true_iff.mpr (.inl htrue), hold⟩
    have hrenews : state.renews setting = true :=
      any_eq_true.mpr ⟨entry, hentry, Bool.and_eq_true_iff.mpr ⟨decide_eq_true hexpired, hlistens⟩⟩
    refine .inr ⟨Bool.or_eq_true_iff.mpr (.inr hrenews), ?_⟩
    rcases h.origin entry hentry with hbefore | ⟨-, hold⟩
    · exact ⟨entry.2, hbefore, hexpired⟩
    · exact hold
  removed := fun entry hentry hfresh => mem_cleaned_of_fresh h.keyed (h.removed entry hentry hfresh) hfresh
  renewal := by
    intro htrue
    -- an earlier renewal lasts, because its endpoint listens
    have hearlier : state.renewed = true → (state.cleaned setting).Renewal setting before := by
      intro hrenewed
      obtain ⟨id, old, new, hold, hnew, hlt, hlistens⟩ := h.renewal hrenewed
      obtain ⟨left, hleft, hroute, hle, -⟩ := exists_cleaned_of_listening h.keyed hnew hlistens
      exact ⟨id, old, left, hold, hleft, Int.lt_of_lt_of_le hlt hle, hroute ▸ hlistens⟩
    rcases Bool.or_eq_true_iff.mp htrue with hrenewed | hrenews
    · exact hearlier hrenewed
    obtain ⟨⟨id, old⟩, hentry, hboth⟩ := any_eq_true.mp hrenews
    obtain ⟨hexpired, hlistens⟩ := Bool.and_eq_true_iff.mp hboth
    rcases h.origin _ hentry with hbefore | ⟨hrenewed, -⟩
    · obtain ⟨left, hleft, hroute, -, hlt⟩ := exists_cleaned_of_listening h.keyed hentry hlistens
      exact ⟨id, old, left, hbefore, hleft, Int.lt_of_le_of_lt (of_decide_eq_true hexpired) hlt, hroute ▸ hlistens⟩
    · exact hearlier hrenewed

lemma Follows.elapsed (h : state.Follows setting before) (ms : Nat) : (state.elapsed ms).Follows setting before :=
  h.waits rfl rfl (fun _ => Iff.rfl) rfl (Int.le_add_of_nonneg_right (Int.natCast_nonneg ms)) fun _ hlistens => hlistens

lemma mem_remember {daemon : AllocationDaemon} {listener : ListeningPortEndpoint}
    (h : listener ∈ daemon.reservedListeningEndpoints) (listeners : List ListeningPortEndpoint) :
    listener ∈ daemon.rememberReservedListeningPorts listeners := by
  have hkey : ∀ a b : ListeningPortEndpoint,
      a.localAddress ++ 58 :: decimal a.port = b.localAddress ++ 58 :: decimal b.port → a = b := by
    rintro ⟨address, port⟩ ⟨address', port'⟩ heq
    obtain ⟨haddress, hport⟩ := split_at_last (colon_not_mem_decimal _) (colon_not_mem_decimal _) heq
    exact congrArg₂ ListeningPortEndpoint.mk haddress (decimal_injective hport)
  have hloop : ∀ (todo : List ListeningPortEndpoint) (endpoints : InsertionMap (List Nat) ListeningPortEndpoint),
      (∀ entry ∈ endpoints.entries, entry.1 = entry.2.localAddress ++ 58 :: decimal entry.2.port) →
      (listener ∈ endpoints.values ∨ listener ∈ todo) → listener ∈ (todo.foldl (fun endpoints endpoint =>
        endpoints.set (endpoint.localAddress ++ 58 :: decimal endpoint.port) endpoint) endpoints).values := by
    intro todo
    induction todo with
    | nil => exact fun _ _ hmem => hmem.resolve_right not_mem_nil
    | cons endpoint todo ih =>
      intro endpoints hkeys hmem
      refine ih _ (fun entry hentry => ?_) ?_
      · rcases mem_set.mp hentry with rfl | ⟨hold, -⟩
        · rfl
        · exact hkeys entry hold
      by_cases hsame : listener = endpoint
      · exact .inl (mem_map.mpr ⟨_, mem_set.mpr (.inl rfl), hsame.symm⟩)
      rcases hmem with hvalues | htodo
      · obtain ⟨entry, hentry, rfl⟩ := mem_map.mp hvalues
        refine .inl (mem_map_of_mem (mem_set.mpr (.inr ⟨hentry, fun heq => hsame ?_⟩)))
        exact hkey _ _ ((hkeys entry hentry).symm.trans heq)
      · exact .inr ((mem_cons.mp htodo).resolve_left hsame)
  exact hloop _ .empty (fun _ hentry => absurd hentry not_mem_nil) (.inr (mem_append_left _ h))

lemma Follows.scanned (h : state.Follows setting before) (scan : Option (List ListeningPortEndpoint) × Nat) :
    (state.scanned scan).Follows setting before := by
  have helapsed := h.elapsed scan.2
  unfold CallState.scanned
  cases scan.1 with
  | none => exact helapsed
  | some listeners =>
    refine helapsed.waits rfl rfl (fun _ => Iff.rfl) rfl (Int.le_refl _) fun route hlistens => ?_
    obtain ⟨listener, hmem, hmatches⟩ := any_eq_true.mp hlistens
    exact any_eq_true.mpr ⟨listener, mem_remember hmem listeners, hmatches⟩

lemma Follows.choose (probe : Nat → ProbeAnswer × Nat) (host : List Nat) (exhausted : PortRoutingError)
    (candidates : List Nat) : ∀ {state : CallState}, state.Follows setting before →
      (choose setting probe host exhausted state candidates).2.Follows setting before := by
  induction candidates with
  | nil => exact fun h => h
  | cons candidate rest ih =>
    intro state h
    simp only [CallState.choose]
    split
    · exact ih h.cleaned
    have hprobed := h.cleaned.elapsed (probe candidate).2
    cases (probe candidate).1 with
    | free => exact hprobed
    | busy => exact ih hprobed
    | failed => exact hprobed

lemma Follows.route (h : state.Follows setting before) (request : PortRoutingRequest)
    (probe : Nat → ProbeAnswer × Nat) : (state.route setting request probe).2.Follows setting before := by
  unfold CallState.route
  cases request.candidates with
  | error error => exact h
  | ok candidates => exact h.choose probe _ _ candidates

/-! ## Rejections -/

/-- A rejected call is untouched exactly when nothing was renewed and its error is harmless. -/
def Settled (before : AllocationDaemon) (result : Except CallError CallOutcome × CallState) : Prop :=
  ∀ error, result.1 = .error error →
    (Untouched before result.2.daemon ↔ result.2.renewed = false ∧ error.harmless = true)

lemma Follows.settled (h : state.Follows setting before) {error : CallError} (hharmless : error.harmless = true) :
    Settled before (.error error, state) := by
  intro found hfound
  rw [← Except.error.inj hfound, hharmless]
  exact h.untouched_iff.trans (and_iff_left rfl).symm

lemma settled_publish {outcome : CallOutcome}
    (h : Untouched before (state.cleaned setting).daemon ↔
      (state.cleaned setting).renewed = false ∧ (CallError.publication outcome).harmless = true) (refused : Bool) :
    Settled before (state.publish setting refused outcome) := by
  intro error herror
  cases refused with
  | false => cases herror
  | true => exact Except.error.inj herror ▸ h

lemma settled_changed {outcome : CallOutcome} (hchanged : ¬ Untouched before (state.cleaned setting).daemon)
    (houtcome : (CallError.publication outcome).harmless = false) (refused : Bool) :
    Settled before (state.publish setting refused outcome) := by
  refine settled_publish (iff_of_false hchanged ?_) refused
  rintro ⟨-, htrue⟩
  exact Bool.false_ne_true (houtcome.symm.trans htrue)

variable (h : state.Follows setting before)
include h

lemma Follows.publish_attached (refused : Bool) : Settled before (state.publish setting refused .attached) :=
  settled_publish (h.cleaned.untouched_iff.trans (and_iff_left rfl).symm) refused

lemma Follows.publish_refreshed (hmem : (allocation.id, allocation) ∈ state.daemon.pending.entries) (refused : Bool) :
    Settled before ((state.refreshed allocation).publish setting refused
      (.refreshed allocation.expiresAtMs (state.daemon.nowMs + ROUTE_ALLOCATION_TTL_MS))) := by
  have hkeyed : Keyed (state.refreshed allocation).daemon.pending :=
    ((Shrinks.refl _).refresh h.keyed hmem state.daemon.nowMs).keyed h.keyed
  by_cases hsame : allocation.expiresAtMs = state.daemon.nowMs + ROUTE_ALLOCATION_TTL_MS
  · -- the allocation is replaced by itself
    have hvalue : { allocation with expiresAtMs := state.daemon.nowMs + ROUTE_ALLOCATION_TTL_MS } = allocation := by
      rw [← hsame]
    have hentries : ∀ entry, entry ∈ (state.refreshed allocation).daemon.pending.entries ↔
        entry ∈ state.daemon.pending.entries := by
      intro entry
      refine mem_set.trans ?_
      rw [hvalue]
      constructor
      · rintro (rfl | ⟨hentry, -⟩)
        · exact hmem
        · exact hentry
      · intro hentry
        by_cases hid : entry.1 = allocation.id
        · exact .inl (Prod.ext hid (value_unique (hid ▸ hentry) hmem))
        · exact .inr ⟨hentry, hid⟩
    have hfollows : (state.refreshed allocation).Follows setting before :=
      h.waits rfl rfl hentries rfl (Int.le_refl _) fun _ hlistens => hlistens
    refine settled_publish (hfollows.cleaned.untouched_iff.trans (and_iff_left ?_).symm) refused
    exact decide_eq_true hsame
  · have hharmful : (CallError.publication (.refreshed allocation.expiresAtMs
        (state.daemon.nowMs + ROUTE_ALLOCATION_TTL_MS))).harmless = false := decide_eq_false hsame
    refine settled_changed (fun huntouched => ?_) hharmful refused
    have hbefore := huntouched.kept _ (mem_cleaned_of_fresh hkeyed (mem_set.mpr (.inl rfl))
      (lt_renewed state.daemon.nowMs))
    rcases h.origin _ hmem with hold | ⟨-, old, hold, hexpired⟩
    · exact hsame (congrArg PendingRouteAllocation.expiresAtMs (value_unique hold hbefore))
    · rw [value_unique hold hbefore] at hexpired
      exact absurd (lt_renewed _) (Int.not_lt.mpr hexpired)

lemma Follows.publish_reserved
    (hfresh : setting.uuid before.uuids ∉ before.pending.keys) (request : AllocateRouteRequest) (port : Nat)
    (refused : Bool) : Settled before ((state.reserved setting request port).publish setting refused .reserved) := by
  refine settled_changed (fun huntouched => ?_) rfl refused
  have hkeyed : Keyed (state.reserved setting request port).daemon.pending := by
    intro entry hentry
    rcases mem_set.mp hentry with rfl | ⟨hold, -⟩
    · rfl
    · exact h.keyed entry hold
  have hnew := huntouched.kept _ (mem_cleaned_of_fresh hkeyed (mem_set.mpr (.inl rfl))
    (lt_renewed state.daemon.nowMs))
  exact hfresh (h.uuids ▸ mem_keys_iff.mpr ⟨_, hnew⟩)

lemma Follows.publish_registered (profile : LaunchProfile) (port : Nat) (pid : Int) (refused : Bool) :
    Settled before ((state.registered setting profile port pid).publish setting refused .registered) := by
  refine settled_changed (fun huntouched => ?_) rfl refused
  have hrows : (state.registered setting profile port pid).daemon.routes.registry.processesById =
      state.daemon.routes.registry.processesById := huntouched.rows.trans h.rows.symm
  refine state.daemon.routes.registry.newId_not_mem ?_
  rw [← hrows]
  exact mem_keys_set.mpr (.inl rfl)

variable (hfresh : setting.uuid before.uuids ∉ before.pending.keys) (request : AllocateRouteRequest)
include hfresh

lemma Follows.allocateNew
        (answers : CallAnswers) : Settled before (state.allocateNew setting request answers) := by
  have hroute := h.route request.routing answers.probe
  unfold CallState.allocateNew
  split
  next failure after heq =>
    rw [heq] at hroute
    exact hroute.settled rfl
  next port after heq =>
    rw [heq] at hroute
    exact hroute.publish_reserved hfresh request port answers.refused

lemma Follows.allocateRoute
        (answers : CallAnswers) : Settled before (state.allocateRoute setting request answers) := by
  have hcleaned := h.cleaned
  unfold CallState.allocateRoute
  generalize state.cleaned setting = state at hcleaned
  simp only
  split
  · exact hcleaned.publish_attached answers.refused
  split
  next allocation hfound =>
    exact hcleaned.publish_refreshed (backed_of_found hcleaned.keyed hfound).1 answers.refused
  next =>
    split_ifs
    · exact (hcleaned.scanned answers.scan).publish_attached answers.refused
    · exact (hcleaned.scanned answers.scan).allocateNew hfresh request answers
    · exact hcleaned.allocateNew hfresh request answers

omit hfresh

lemma Follows.startManagedProcess (profile : LaunchProfile)
    (answers : CallAnswers) : Settled before (state.startManagedProcessExclusive setting profile answers) := by
  have hroute := (h.scanned answers.scan).route profile.routing answers.probe
  unfold CallState.startManagedProcessExclusive
  split
  next failure after heq =>
    rw [heq] at hroute
    exact hroute.settled rfl
  next port after heq =>
    rw [heq] at hroute
    have hlaunched := hroute.elapsed answers.launch.2
    cases answers.launch.1 with
    | none => exact hlaunched.settled rfl
    | some pid => exact hlaunched.publish_registered profile port pid answers.refused

omit h

end CallState

def refusedAnswers : CallAnswers := ⟨(some [], 0), fun _ => (.free, 0), (some 7, 0), true⟩

end PortManager.Node
