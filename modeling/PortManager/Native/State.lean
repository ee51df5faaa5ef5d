import PortManager.Native.Json

/-!
# The native daemon's registry

The data model of `native/agent/portmanager_agent.h` and the lookups and updates of
`native/agent/portmanager_agent_state.c` that the request handlers share: network normalisation,
route and endpoint identities, the bidirectional observations, the pending allocations with their
expiry and their hint slots, and the choice of an actual port.

Arrays are lists in array order and a pointer into an array is an index. The fixed texts that the
daemon itself writes into `status`, `source` and `route_direction` fields are inductive types. What
the daemon reads of the operating system while it handles one request is the record `Os`.
-/

namespace PortManager.Native
open CText

/-- The texts of a row's `status` field. -/
inductive Status where
  | starting | running | stopped
deriving DecidableEq, Repr

/-- The texts of a row's `source` field. -/
inductive Source where
  | managed | registered | hooked | compose | detected | allocated
deriving DecidableEq, Repr

/-- The texts of a stored `route_direction` field. -/
inductive Direction where
  | listen | send
deriving DecidableEq, Repr

def Direction.text : Direction → Text
  | .listen => ascii "listen"
  | .send => ascii "send"

structure Route where
  logicalPort : Int
  actualPort : Int
  routeDirection : Direction
  host : Text
  cwd : Text
  networkId : Text
  terminalSessionId : Text
  processGroupId : Int
  processId : Text
  processName : Text
  status : Status
  source : Source
deriving DecidableEq

/-- C `pm_process`, without the launch profile of managed rows. -/
structure Process where
  id : Text
  pid : Int
  name : Text
  command : Text
  cwd : Text
  networkId : Text
  terminalSessionId : Text
  processGroupId : Int
  requestedPort : Int
  actualPort : Int
  host : Text
  status : Status
  startedAt : Text
  stoppedAt : Text
  url : Text
  errorMessage : Text
  source : Source
  childOwned : Bool
  missingListenerSince : Int
  missingListenerCount : Int
  registrationRevision : Nat
deriving DecidableEq

structure PendingRoute where
  id : Text
  route : Route
  expiresAt : Int
deriving DecidableEq

/-- C `pm_bidirectional_route_refresh`. -/
structure BidirectionalRefresh where
  logicalPort : Int
  networkId : Text
  observedAt : Int
deriving DecidableEq

/-- C `pm_listener`, as far as the request handlers read it. -/
structure Listener where
  localAddress : Text
  port : Int
  pid : Int
  processName : Text
  command : Text
deriving DecidableEq

/-- C `pm_agent_state`: the registry part. A hint is a one-based index, `0` when never observed;
`none` stands for a hint table that could not be allocated. -/
structure AgentState where
  processes : List Process
  pendingRoutes : List PendingRoute
  pendingEndpointHints : Option (Nat → Nat)
  pendingActualPortHints : Option (Int → Nat)
  nextPendingExpiryScanAt : Int
  bidirectionalRefreshes : List BidirectionalRefresh
  listenerObservationGeneration : Nat
  listenerCacheItems : List Listener
  listenerCacheExpiresAt : Int
  listenerCacheUpdatedAt : Text
  registrationRevision : Nat
  routeTablesDirty : Bool
  routeDirtyRevision : Nat
  routeDirtySinceMs : Int
  routeSubmittedRevision : Nat
  nextProcessId : Nat
  nextAllocationId : Nat
  agentPid : Int

/-- What the daemon reads of the operating system while it handles one request: the clock, the
process table, private files, sockets, listener scans, and whether memory and the publication
queue accept more. -/
structure Os where
  now : Int
  /-- C `pm_publication_now_ms`. -/
  nowMs : Int
  isoNow : Text
  /-- C `pm_auth_process_birth`; `0` for a process that cannot be read. -/
  processBirth : Int → Nat
  /-- C `pm_auth_process_parent`; `0` when there is none. -/
  processParent : Int → Int
  getpgid : Int → Int
  /-- C `pm_auth_read_key` with the 83-byte buffer its callers pass. -/
  readKey : Text → Option Text
  /-- C `pm_auth_owns_tcp_endpoint`. -/
  ownsTcpEndpoint : Int → Text → Int → Bool
  /-- The probe of C `pm_bind_available` on a valid port. -/
  bind : Int → Text → Bool
  /-- C `inet_pton(AF_INET, ..)`, as the host-order address. -/
  inetPton4 : Text → Option Nat
  /-- C `inet_pton(AF_INET6, ..)` succeeds. -/
  inetPton6 : Text → Bool
  /-- The dotted text of an IPv4-mapped IPv6 address. -/
  v4Mapped : Text → Option Text
  /-- C `pm_scan_lsof`. -/
  scanLsof : Option (List Listener)
  /-- C `pm_scan_lsof_for_port` on a valid port. -/
  scanLsofForPort : Int → Option (List Listener)
  /-- C `pm_scan_registration_revision` of the scan for one port. -/
  scanRegistrationRevision : Int → Nat
  /-- Whether a growing array gets its memory (C `realloc`). -/
  reserve : Bool
  /-- Whether the publication lane accepts another snapshot (C `pm_state_flush_route_tables`). -/
  flush : Bool

/-- The registry of a daemon that has just started (C `pm_state_init`). -/
def initialState (agentPid : Int) : AgentState where
  processes := []
  pendingRoutes := []
  pendingEndpointHints := some fun _ => 0
  pendingActualPortHints := some fun _ => 0
  nextPendingExpiryScanAt := 0
  bidirectionalRefreshes := []
  listenerObservationGeneration := 0
  listenerCacheItems := []
  listenerCacheExpiresAt := 0
  listenerCacheUpdatedAt := []
  registrationRevision := 0
  routeTablesDirty := false
  routeDirtyRevision := 0
  routeDirtySinceMs := 0
  routeSubmittedRevision := 0
  nextProcessId := 1
  nextAllocationId := 1
  agentPid := agentPid

def PM_ROUTE_TTL_SECONDS : Int := 300

def PM_LISTENER_SCAN_CACHE_SECONDS : Int := 300

def PM_PENDING_HINT_SLOT_COUNT : Nat := 65536

/-! ## Identities -/

def normalizeNetwork (value : Text) (size : Nat) : Text := truncate size (trim value)

def routeIdentity (route : Route) : Text :=
  truncate PM_TEXT
    (route.networkId ++ 58 :: decimal route.logicalPort ++ 58 :: route.routeDirection.text)

def endpointIdentity (logicalPort : Int) (networkId : Text) : Text :=
  truncate PM_SMALL (networkId ++ 58 :: decimal logicalPort)

def scopedRouteOwnershipMode (mode : Text) : Bool :=
  mode = ascii "terminal-scope-listener" ∨ mode = ascii "loopback-address-only"

def normalizedProcessGroupId (processGroupId : Int) : Int :=
  if 0 < processGroupId then processGroupId else 0

def processMatchesTerminalScope (process : Process) (terminalSessionId : Text)
    (processGroupId : Int) : Bool :=
  (terminalSessionId ≠ [] ∧ process.terminalSessionId = terminalSessionId) ∨
    (0 < normalizedProcessGroupId processGroupId ∧
      process.processGroupId = normalizedProcessGroupId processGroupId)

def isValidPort (port : Int) : Bool := 1 ≤ port ∧ port ≤ 65535

def url (host : Text) (port : Int) : Text :=
  truncate PM_TEXT (ascii "http://" ++ (if host = [] then ascii "localhost" else host) ++
    58 :: decimal port)

/-! ## Bidirectional observations -/

/-- The sign of C `strcmp`. -/
def strcmp : Text → Text → Ordering
  | [], [] => .eq
  | [], _ :: _ => .lt
  | _ :: _, [] => .gt
  | a :: as, b :: bs => if a < b then .lt else if b < a then .gt else strcmp as bs

def compareBidirectionalEndpointIdentity (leftPort : Int) (leftNetwork : Text) (rightPort : Int)
    (rightNetwork : Text) : Ordering :=
  (strcmp leftNetwork rightNetwork).then (compare leftPort rightPort)

/-- The search loop of C `pm_bidirectional_refresh_lower_bound`. -/
def bidirectionalRefreshLowerBoundLoop (items : List BidirectionalRefresh) (port : Int)
    (networkId : Text) : Nat → Nat → Nat → Nat
  | 0, low, _ => low
  | fuel + 1, low, high =>
    if low < high then
      let mid := low + (high - low) / 2
      match items[mid]? with
      | none => low
      | some item =>
        if compareBidirectionalEndpointIdentity item.logicalPort item.networkId port networkId = .lt
        then bidirectionalRefreshLowerBoundLoop items port networkId fuel (mid + 1) high
        else bidirectionalRefreshLowerBoundLoop items port networkId fuel low mid
    else low

def bidirectionalRefreshLowerBound (items : List BidirectionalRefresh) (port : Int)
    (networkId : Text) : Nat :=
  bidirectionalRefreshLowerBoundLoop items port networkId (items.length + 1) 0 items.length

variable (os : Os)

def markBidirectionalRouteObserved (s : AgentState) (logicalPort : Int) (networkId : Text) : AgentState :=
  let items := s.bidirectionalRefreshes
  let index := bidirectionalRefreshLowerBound items logicalPort networkId
  let refresh : BidirectionalRefresh := ⟨logicalPort, truncate PM_SMALL networkId, os.now⟩
  let fresh : AgentState :=
    if os.reserve then
      { s with bidirectionalRefreshes := items.take index ++ refresh :: items.drop index }
    else s
  match items[index]? with
  | none => fresh
  | some item =>
    if compareBidirectionalEndpointIdentity item.logicalPort item.networkId logicalPort networkId = .eq
    then { s with bidirectionalRefreshes := items.set index { item with observedAt := os.now } }
    else fresh

/-! ## Routes -/

def routeListAddDedupe (routes : List Route) (route : Route) : List Route :=
  routes.eraseP (fun candidate => routeIdentity route = routeIdentity candidate) ++ [route]

def processToRoute (process : Process) : Route :=
  { logicalPort := process.requestedPort
    actualPort := process.actualPort
    routeDirection := .listen
    host := if process.host = [] then ascii "localhost" else process.host
    cwd := process.cwd
    networkId := process.networkId
    terminalSessionId := process.terminalSessionId
    processGroupId := process.processGroupId
    processId := process.id
    processName := process.name
    status := process.status
    source := process.source }

variable (s : AgentState)

def buildRoutes (extra : Option Route) : List Route :=
  let pending := s.pendingRoutes.map (·.route)
  let pending := match extra with
    | none => pending
    | some route => routeListAddDedupe pending route
  (s.processes.filter fun process => process.status = .running ∧ process.source ≠ .detected).foldl
    (fun routes process => routeListAddDedupe routes (processToRoute process)) pending

def findActiveRoute (logicalPort : Int) (networkId : Text) : Option Route :=
  (buildRoutes s none).find? fun route =>
    endpointIdentity logicalPort networkId = endpointIdentity route.logicalPort route.networkId ∧
      route.routeDirection = .listen

/-! ## Pending allocations -/

def hashText (t : Text) : UInt32 :=
  t.foldl (fun hash c => (hash ^^^ c.toUInt32) * 0x01000193) 0x811c9dc5

def pendingEndpointHintSlot (logicalPort : Int) (networkId : Text) : Nat :=
  ((hashText networkId) ^^^ (UInt32.ofInt logicalPort * 0x9e3779b1)).toNat %
    PM_PENDING_HINT_SLOT_COUNT

def rememberPendingRouteHints (index : Nat) : AgentState :=
  match s.pendingRoutes[index]? with
  | none => s
  | some pending =>
    if 2 ^ 32 - 1 ≤ index then
      { s with pendingEndpointHints := none, pendingActualPortHints := none }
    else
      let slot := pendingEndpointHintSlot pending.route.logicalPort pending.route.networkId
      { s with
        pendingEndpointHints := s.pendingEndpointHints.map fun hints k =>
          if k = slot then index + 1 else hints k
        pendingActualPortHints :=
          if isValidPort pending.route.actualPort then
            s.pendingActualPortHints.map fun hints k =>
              if k = pending.route.actualPort then index + 1 else hints k
          else s.pendingActualPortHints }

/-- The scan of C `pm_find_pending_endpoint`: hash collisions and stale indexes end here. -/
def scanPendingEndpoint (logicalPort : Int) (networkId : Text) : Option Nat × AgentState :=
  match s.pendingRoutes.findIdx? fun pending =>
      endpointIdentity logicalPort networkId =
        endpointIdentity pending.route.logicalPort pending.route.networkId with
  | none => (none, s)
  | some index => (some index, rememberPendingRouteHints s index)

/-- C `pm_find_pending_endpoint`: the index of the allocation, and the state with its hints. -/
def findPendingEndpoint (logicalPort : Int) (networkId : Text) : Option Nat × AgentState :=
  match s.pendingEndpointHints with
  | none => scanPendingEndpoint s logicalPort networkId
  | some hints =>
    let hint := hints (pendingEndpointHintSlot logicalPort networkId)
    if hint = 0 then (none, s)
    else
      match s.pendingRoutes[hint - 1]? with
      | none => scanPendingEndpoint s logicalPort networkId
      | some pending =>
        if pending.route.logicalPort = logicalPort ∧ pending.route.networkId = networkId
        then (some (hint - 1), s) else scanPendingEndpoint s logicalPort networkId

def findPendingAllocation (allocationId : Text) : Option PendingRoute :=
  if allocationId = [] then none
  else s.pendingRoutes.find? fun pending => pending.id = allocationId

def notePendingExpiry (expiresAt : Int) : AgentState :=
  if s.nextPendingExpiryScanAt = 0 ∨ expiresAt < s.nextPendingExpiryScanAt
  then { s with nextPendingExpiryScanAt := expiresAt } else s

/-- What C `pm_cleanup_pending` does with one allocation: keep it, keep it with a new expiry, or
drop it. -/
def cleanupPendingRoute (pending : PendingRoute) : Option PendingRoute :=
  if os.now < pending.expiresAt then some pending
  else
    match os.scanLsof with
    -- a failed scan is no proof that the listener disappeared
    | none => some { pending with expiresAt := os.now + 1 }
    | some listeners =>
      if listeners.any fun listener => listener.port = pending.route.actualPort
      then some { pending with expiresAt := os.now + PM_ROUTE_TTL_SECONDS }
      else none

/-- The earliest expiry of the kept allocations, `0` for none (C `pm_cleanup_pending`). -/
def nextExpiryScanAt (kept : List PendingRoute) : Int :=
  kept.foldl (fun next pending =>
    if next = 0 ∨ pending.expiresAt < next then pending.expiresAt else next) 0

def listenerCacheStore (s : AgentState) (listeners : List Listener) : AgentState :=
  if listeners = [] ∨ os.reserve then
    { s with
      listenerCacheItems := listeners
      listenerCacheExpiresAt := os.now + PM_LISTENER_SCAN_CACHE_SECONDS
      listenerCacheUpdatedAt := os.isoNow }
  else s

def listenerCacheInvalidate : AgentState :=
  { s with
    listenerObservationGeneration := s.listenerObservationGeneration + 1
    listenerCacheExpiresAt := 0
    listenerCacheUpdatedAt := [] }

def cleanupPending (s : AgentState) : AgentState :=
  if s.pendingRoutes = [] then { s with nextPendingExpiryScanAt := 0 }
  else if os.now < s.nextPendingExpiryScanAt then s
  else
    let kept := s.pendingRoutes.filterMap (cleanupPendingRoute os)
    let s' :=
      -- the scan runs once, for the first expired allocation
      if s.pendingRoutes.any fun pending => pending.expiresAt ≤ os.now then
        match os.scanLsof with
        | none => s
        | some listeners => listenerCacheStore os s listeners
      else s
    { s' with pendingRoutes := kept, nextPendingExpiryScanAt := nextExpiryScanAt kept }

def removePendingAllocation (allocationId : Text) : AgentState :=
  let kept := s.pendingRoutes.eraseP fun pending => pending.id = allocationId
  { s with
    pendingRoutes := kept
    nextPendingExpiryScanAt :=
      if kept = [] ∧ s.pendingRoutes ≠ [] then 0 else s.nextPendingExpiryScanAt }

def removePendingEndpoint (logicalPort : Int) (networkId : Text) : AgentState :=
  let kept := s.pendingRoutes.filter fun pending =>
    endpointIdentity logicalPort networkId ≠
      endpointIdentity pending.route.logicalPort pending.route.networkId
  { s with
    pendingRoutes := kept
    nextPendingExpiryScanAt := if kept = [] then 0 else s.nextPendingExpiryScanAt }

/-! ## Publication requests -/

def markRouteTablesDirty (s : AgentState) : AgentState :=
  { s with
    routeDirtyRevision := s.routeDirtyRevision + 1
    routeDirtySinceMs := if s.routeDirtySinceMs = 0 then os.nowMs else s.routeDirtySinceMs
    routeTablesDirty := true }

/-- C `pm_prune_bidirectional_refreshes_for_routes`: the sorted index and its binary search decide
membership. -/
def pruneBidirectionalRefreshesForRoutes (routes : List Route) : AgentState :=
  { s with
    bidirectionalRefreshes := s.bidirectionalRefreshes.filter fun refresh =>
      routes.any fun route =>
        route.logicalPort = refresh.logicalPort ∧ route.networkId = refresh.networkId }

/-- C `pm_state_flush_route_tables`: whether the snapshot was queued, and the state. -/
def stateFlushRouteTables : Bool × AgentState :=
  let s := pruneBidirectionalRefreshesForRoutes s (buildRoutes s none)
  if os.flush then
    (true, { s with routeSubmittedRevision := s.routeDirtyRevision, routeDirtySinceMs := 0 })
  else (false, s)

def flushRouteTablesForAllocation (compactResponse : Bool) : Bool × AgentState :=
  let s := markRouteTablesDirty os s
  if compactResponse then (true, s) else stateFlushRouteTables os s

/-! ## Actual ports -/

/-- The registry half of C `pm_actual_port_reserved`. -/
def processPortReserved (port : Int) : Bool :=
  s.processes.any fun process =>
    process.status = .running ∧ process.source ≠ .detected ∧ process.actualPort = port

/-- A completed miss clears the slot of a port (C `pm_actual_port_reserved`). -/
def clearActualPortHint (port : Int) : AgentState :=
  { s with
    pendingActualPortHints :=
      if isValidPort port then
        s.pendingActualPortHints.map fun hints k => if k = port then 0 else hints k
      else s.pendingActualPortHints }

/-- The scan of C `pm_actual_port_reserved`. -/
def scanActualPort (port : Int) : Bool × AgentState :=
  match s.pendingRoutes.findIdx? fun pending => pending.route.actualPort = port with
  | some index => (true, rememberPendingRouteHints s index)
  | none => (processPortReserved s port, clearActualPortHint s port)

/-- C `pm_actual_port_reserved`, with the hints it leaves. -/
def actualPortReserved (port : Int) : Bool × AgentState :=
  match s.pendingActualPortHints with
  | none => scanActualPort s port
  | some hints =>
    if isValidPort port then
      if hints port = 0 then (processPortReserved s port, s)
      else
        match s.pendingRoutes[hints port - 1]? with
        | none => scanActualPort s port
        | some pending => if pending.route.actualPort = port then (true, s) else scanActualPort s port
    else scanActualPort s port

def portAvailable (s : AgentState) (port : Int) (host : Text) : Bool × AgentState :=
  match actualPortReserved s port with
  | (true, s) => (false, s)
  | (false, s) => (isValidPort port && os.bind port host, s)

/-- The first of the candidate ports that is available, `0` for none. -/
def firstAvailable (os : Os) (host : Text) : AgentState → List Int → Int × AgentState
  | s, [] => (0, s)
  | s, port :: ports =>
    match portAvailable os s port host with
    | (true, s) => (port, s)
    | (false, s) => firstAvailable os host s ports

/-- The ports C `pm_route_nearest` tries after the requested one, in order. -/
def nearestCandidates (input : AllocateInput) : List Int :=
  (List.range input.scanRange.toNat).flatMap fun offset =>
    let up := input.requestedPort + (offset + 1)
    let down := input.requestedPort - (offset + 1)
    let both := input.scanDirection = ascii "both"
    (if (input.scanDirection = ascii "up" ∨ both) ∧ isValidPort up then [up] else []) ++
      (if (input.scanDirection = ascii "down" ∨ both) ∧ isValidPort down then [down] else [])

def routeNearest (s : AgentState) (input : AllocateInput) : Int × AgentState :=
  firstAvailable os input.host s (input.requestedPort :: nearestCandidates input)

/-- The ports C `pm_route_hashed` tries, in order. -/
def hashedCandidates (input : AllocateInput) : List Int :=
  let first := if input.virtualStart ≤ 0 then 53000 else input.virtualStart
  let last := if input.virtualEnd ≤ 0 then 59999 else input.virtualEnd
  if isValidPort first ∧ isValidPort last ∧ first ≤ last then
    let scope := truncate (PM_TEXT + PM_SMALL)
      (if input.networkId = [] then input.cwd else input.networkId)
    let hashInput := truncate (PM_TEXT + PM_SMALL + 32) (scope ++ 58 :: decimal input.requestedPort)
    let rangeSize := last - first + 1
    let startOffset := (hashText hashInput).toNat % rangeSize.toNat
    (List.range (min (input.scanRange + 1) rangeSize).toNat).map fun (offset : Nat) =>
      first + (startOffset + offset) % rangeSize
  else []

def routeHashed (input : AllocateInput) : Int × AgentState :=
  firstAvailable os input.host s (hashedCandidates input)

/-- The choice of an actual port in C `pm_state_allocate_route`, `0` for none. -/
def chooseActualPort (input : AllocateInput) : Int × AgentState :=
  if input.routingMode = ascii "hashed" then routeHashed os s input else routeNearest os s input

end PortManager.Native
