import PortManager.Native.Authorization

/-!
# The workload methods

Embeds the four registry operations a network credential reaches
(`native/agent/portmanager_agent_state.c`): `pm_state_allocate_route`, `pm_state_register_process`,
`pm_state_release_process_route` and `pm_state_release_allocation`, with the listener matching they
use and their branch of C `pm_dispatch`. A result of `none` is the C `-1`.
-/

namespace PortManager.Native
open CText

/-- The payload of C `pm_build_allocation_payload`; a compact response carries no routes. -/
structure AllocationPayload where
  allocationId : Text
  requestedPort : Int
  actualPort : Int
  host : Text
  routed : Bool
  logicalRoutes : Option (List Route)
  logicalRoutesNetwork : Text
  expiresAt : Int

inductive Response where
  | allocation (payload : AllocationPayload)
  | process (row : Process)
  | bool (value : Bool)

/-! ## Listeners -/

variable (os : Os)

def normalizeEndpointHostKey (host : Text) : Text :=
  let host := trim host
  let host := if host.head? = some 91 ∧ host.getLast? = some 93 then host.tail.dropLast else host
  if isOneOf host ["", "*", "0.0.0.0", "::"] then ascii "*"
  else if host.map tolower = ascii "localhost" then ascii "127.0.0.1"
  else
    let key := (truncate PM_SMALL host).map tolower
    -- the hook rewrites a bind to an IPv4-mapped loopback; both spellings are one host
    (os.v4Mapped key).getD key

def isNonDefaultLoopbackHost (host : Text) : Bool :=
  (os.inetPton4 host).any fun ip => ip / 2 ^ 24 = 127 ∧ ip ≠ 0x7f000001

def endpointHostsMatch (listenerHost routeHost : Text) : Bool :=
  let listener := normalizeEndpointHostKey os listenerHost
  let route := normalizeEndpointHostKey os routeHost
  if isNonDefaultLoopbackHost os route then listener = route
  else
    listener = ascii "*" ∨ route = ascii "*" ∨
      (route = ascii "127.0.0.1" ∧ listener = ascii "::1") ∨
      (route = ascii "::1" ∧ listener = ascii "127.0.0.1") ∨ listener = route

/-- The listener of an endpoint in a scan: the first with a known owner, otherwise the last one
(the loops of C `pm_find_listener_for_port_host` and `pm_find_listener_by_process_endpoint`). -/
def findListener (listeners : List Listener) (port : Int) (host : Text) : Option Listener :=
  let found := listeners.filter fun listener =>
    listener.port = port ∧ endpointHostsMatch os listener.localAddress host
  (found.find? fun listener => 0 < listener.pid).or found.getLast?

/-- The scan of one port; none for an invalid port (C `pm_scan_lsof_for_port`). -/
def scanLsofForPort (os : Os) (port : Int) : Option (List Listener) :=
  if isValidPort port then os.scanLsofForPort port else none

def findListenerForPortHost (port : Int) (host : Text) : Option Listener := do
  let listeners ← scanLsofForPort os port
  findListener os listeners port host

def findListenerByProcessEndpoint (listeners : List Listener) (process : Process) : Option Listener :=
  findListener os listeners process.actualPort process.host

def listenerAddressIsRouteable (address : Text) : Bool :=
  let inner := if 2 < address.length ∧ address.head? = some 91 ∧ address.getLast? = some 93
    then address.tail.dropLast else address
  isOneOf address ["", "*", "0.0.0.0", "::", "[::]"] = false ∧
    (address = ascii "localhost" ∨ (os.inetPton4 inner).isSome ∨ os.inetPton6 inner)

def listenerRouteHost (listener : Listener) (fallbackHost : Text) : Text :=
  truncate PM_SMALL
    (if listenerAddressIsRouteable os listener.localAddress then listener.localAddress else fallbackHost)

variable (process : Process)

def clearMissingListenerState : Process :=
  { process with missingListenerSince := 0, missingListenerCount := 0 }

def adoptListenerOwner (listener : Listener) : Process :=
  clearMissingListenerState { process with
    pid := if 0 < listener.pid then listener.pid else process.pid
    name := if listener.processName = [] then process.name else listener.processName
    command := if listener.command = [] then process.command else listener.command }

/-! ## `allocateRoute` -/

variable (s : AgentState)

def buildAllocationPayload (input : AllocateInput) (allocationId : Text)
    (actualPort : Int) (host networkId : Text) (expiresAt : Int) : AllocationPayload where
  allocationId := allocationId
  requestedPort := input.requestedPort
  actualPort := actualPort
  host := host
  routed := input.requestedPort ≠ actualPort
  logicalRoutes := if input.compactResponse then none else some (buildRoutes s none)
  logicalRoutesNetwork := networkId
  expiresAt := expiresAt

/-- The publication and the answer every allocation that uses a route ends with. -/
def answerAllocation (s : AgentState) (input : AllocateInput) (allocationId : Text)
    (actualPort : Int) (host networkId : Text) (expiresAt : Int) : AgentState × Option Response :=
  match flushRouteTablesForAllocation os s input.compactResponse with
  | (false, s) => (s, none)
  | (true, s) => (s, some (.allocation
      (buildAllocationPayload s input allocationId actualPort host networkId expiresAt)))

def extendPending (index : Nat) (pending : PendingRoute) (expiresAt : Int) : AgentState :=
  notePendingExpiry { s with
    pendingRoutes := s.pendingRoutes.set index { pending with expiresAt := expiresAt } } expiresAt

def appendPending (pending : PendingRoute) : AgentState :=
  notePendingExpiry (rememberPendingRouteHints
    { s with pendingRoutes := s.pendingRoutes ++ [pending] } s.pendingRoutes.length) pending.expiresAt

/-- The branch of C `pm_state_allocate_route` that reuses the allocation at `index`. -/
def reusePendingRoute (s : AgentState) (input : AllocateInput) (networkId : Text)
    (index : Nat) (pending : PendingRoute) : AgentState × Option Response :=
  let s := if pending.route.routeDirection.text ≠ input.routeDirection
    then markBidirectionalRouteObserved os s input.requestedPort networkId else s
  let expiresAt := os.now + PM_ROUTE_TTL_SECONDS
  answerAllocation os (extendPending s index pending expiresAt) input pending.id
    pending.route.actualPort pending.route.host networkId expiresAt

def allocationId (agentPid : Int) (n : Nat) : Text :=
  truncate PM_ID (ascii "allocation:native:" ++ decimal agentPid ++ 58 :: decimal n)

/-- The route a new allocation carries (C `pm_state_allocate_route` and
`pm_copy_terminal_scope_to_route`). -/
def newPendingRoute (input : AllocateInput) (networkId actualHost : Text) (actualPort : Int) : Route :=
  let inScope := scopedRouteOwnershipMode input.experimentalRouteOwnershipMode
  { logicalPort := input.requestedPort
    actualPort := actualPort
    routeDirection := if input.routeDirection = ascii "send" then .send else .listen
    host := actualHost
    cwd := input.cwd
    networkId := networkId
    terminalSessionId := if inScope then input.terminalSessionId else []
    processGroupId := if inScope then normalizedProcessGroupId input.processGroupId else 0
    processId := []
    processName := truncate PM_SMALL (if input.name = [] then input.command else input.name)
    status := .starting
    source := .allocated }

/-- The branch of C `pm_state_allocate_route` that makes a new allocation. -/
def createPendingRoute (input : AllocateInput) (networkId actualHost : Text)
    (actualPort : Int) : AgentState × Option Response :=
  let expiresAt := os.now + PM_ROUTE_TTL_SECONDS
  let pending : PendingRoute :=
    ⟨allocationId s.agentPid s.nextAllocationId, newPendingRoute input networkId actualHost actualPort,
      expiresAt⟩
  -- the number is used up even when the allocation then finds no room
  let s := { s with nextAllocationId := s.nextAllocationId + 1 }
  if os.reserve then
    answerAllocation os (appendPending s pending) input pending.id actualPort actualHost networkId
      expiresAt
  else (s, none)

/-- The part of C `pm_state_allocate_route` after no route could be reused. -/
def allocateFreshRoute (input : AllocateInput) (networkId actualHost : Text) : AgentState × Option Response :=
  -- an unscoped sender that finds the requested port listening already uses that listener
  match (if input.routeDirection = ascii "send" ∧ networkId = []
      then findListenerForPortHost os input.requestedPort input.host else none) with
  | some listener =>
    (s, some (.allocation (buildAllocationPayload s input [] input.requestedPort
      (listenerRouteHost os listener input.host) networkId os.now)))
  | none =>
    let (actualPort, s) := chooseActualPort os s { input with networkId := networkId, host := actualHost }
    if actualPort ≤ 0 then (s, none)
    else createPendingRoute os s input networkId actualHost actualPort

def stateAllocateRoute (input : AllocateInput) : AgentState × Option Response :=
  let s := cleanupPending os s
  let networkId := normalizeNetwork input.networkId PM_SMALL
  let actualHost := truncate PM_SMALL (if input.actualHost = [] then input.host else input.actualHost)
  match (if input.routeDirection = ascii "send"
      then findActiveRoute s input.requestedPort networkId else none) with
  | some active =>
    answerAllocation os (markBidirectionalRouteObserved os s input.requestedPort networkId) input []
      active.actualPort active.host networkId os.now
  | none =>
    match findPendingEndpoint s input.requestedPort networkId with
    | (none, s) => allocateFreshRoute os s input networkId actualHost
    | (some index, s) =>
      match s.pendingRoutes[index]? with
      | none => (s, none)
      | some pending => reusePendingRoute os s input networkId index pending

/-! ## `registerExistingProcess` -/

def normalizedSource (source : Text) : Source :=
  if source = ascii "hooked" then .hooked
  else if source = ascii "compose" then .compose else .registered

variable (input : RegisterInput)

def findRegisteredRoute (source : Source) (networkId : Text) : Option Nat :=
  s.processes.findIdx? fun process =>
    process.status = .running ∧ process.source = source ∧
      process.requestedPort = input.requestedPort ∧ process.actualPort = input.actualPort ∧
      process.networkId = networkId

/-- The row C `pm_state_register_process` writes, with the fields it keeps of the previous one:
a duplicate report of the same owner preserves start time and observation progress. -/
def registeredRow (source : Source) (networkId id : Text) (previous : Option Process) : Process :=
  let inScope := scopedRouteOwnershipMode input.experimentalRouteOwnershipMode
  let kept := previous.filter fun row => row.pid = input.pid ∧ row.host = input.host
  { id := id
    pid := input.pid
    name := input.name
    command := input.command
    cwd := input.cwd
    networkId := networkId
    terminalSessionId := if inScope then input.terminalSessionId else []
    processGroupId := if inScope then normalizedProcessGroupId input.processGroupId else 0
    requestedPort := input.requestedPort
    actualPort := input.actualPort
    host := input.host
    status := .running
    startedAt := (kept.map (·.startedAt)).getD os.isoNow
    stoppedAt := []
    url := url input.host input.actualPort
    errorMessage := []
    source := source
    childOwned := false
    missingListenerSince := (kept.map (·.missingListenerSince)).getD 0
    missingListenerCount := (kept.map (·.missingListenerCount)).getD 0
    registrationRevision := (previous.map (·.registrationRevision)).getD 0 }

def managedProcessId (n : Nat) : Text := truncate PM_ID (ascii "managed-process-" ++ decimal n)

/-- The row update of C `pm_state_register_process`; a changed row gets a new registration
revision. -/
def upsertRegisteredRow (s : AgentState) (input : RegisterInput) (source : Source)
    (networkId : Text) : AgentState × Option Process :=
  let revision := s.registrationRevision + 1
  match findRegisteredRoute s input source networkId with
  | none =>
    if os.reserve then
      let row := registeredRow os input source networkId (managedProcessId s.nextProcessId) none
      let row := { row with registrationRevision := revision }
      ({ s with
          processes := s.processes ++ [row]
          nextProcessId := s.nextProcessId + 1
          registrationRevision := revision }, some row)
    else (s, none)
  | some index =>
    match s.processes[index]? with
    | none => (s, none)
    | some previous =>
      let row := registeredRow os input source networkId previous.id (some previous)
      if row = previous then (s, some row)
      else
        let row := { row with registrationRevision := revision }
        ({ s with processes := s.processes.set index row, registrationRevision := revision }, some row)

/-- The network C `pm_state_register_process` registers in: an unscoped report takes the network of
its allocation. -/
def registrationNetwork : Text :=
  let networkId := normalizeNetwork input.networkId PM_SMALL
  if networkId = [] then
    ((findPendingAllocation s input.allocationId).map fun pending => pending.route.networkId).getD []
  else networkId

def claimAllocation (allocationId : Text) : AgentState :=
  if allocationId ≠ [] then removePendingAllocation s allocationId else s

/-- The registration of a port that was allocated to a sender shows both sides
(C `pm_state_register_process`). -/
def observeClaimedSender (input : RegisterInput) : AgentState :=
  if (findPendingAllocation s input.allocationId).any fun pending => pending.route.routeDirection = .send
  then markBidirectionalRouteObserved os s input.requestedPort (registrationNetwork s input) else s

def stateRegisterProcess (input : RegisterInput) : AgentState × Option Response :=
  let networkId := registrationNetwork s input
  let s := claimAllocation (observeClaimedSender os s input) input.allocationId
  match upsertRegisteredRow os s input (normalizedSource input.source) networkId with
  | (s, none) => (s, none)
  | (s, some row) => (removePendingEndpoint s input.requestedPort networkId, some (.process row))

/-! ## Releases -/

def stateReleaseAllocation (allocationId : Text) : AgentState × Option Response :=
  let s' := removePendingAllocation s allocationId
  (s', some (.bool (s'.pendingRoutes.length ≠ s.pendingRoutes.length)))

def processRouteOwnerMatchesRelease (input : ReleaseProcessInput) : Bool :=
  process.pid = input.pid ∨ (scopedRouteOwnershipMode input.experimentalRouteOwnershipMode ∧
    processMatchesTerminalScope process input.terminalSessionId input.processGroupId)

/-- What the loop of C `pm_state_release_process_route` did with a row. -/
inductive Released where
  | untouched | retained | released
deriving DecidableEq

/-- The loop body of C `pm_state_release_process_route`. -/
def releaseRow (input : ReleaseProcessInput) (networkId : Text)
    (listeners : Option (List Listener)) (process : Process) : Process × Released :=
  if process.status = .running ∧ process.source ≠ .detected ∧
      processRouteOwnerMatchesRelease process input ∧ process.requestedPort = input.requestedPort ∧
      process.actualPort = input.actualPort ∧ (networkId = [] ∨ process.networkId = networkId) then
    match listeners with
    -- a failed scan is no evidence that the server stopped listening
    | none => (process, .retained)
    | some listeners =>
      if os.scanRegistrationRevision input.actualPort < process.registrationRevision then
        (process, .retained)
      else
        match findListenerByProcessEndpoint os listeners process with
        | some listener => (adoptListenerOwner process listener, .retained)
        | none =>
          if scopedRouteOwnershipMode input.experimentalRouteOwnershipMode then
            ({ process with
                missingListenerSince :=
                  if process.missingListenerSince = 0 then os.now else process.missingListenerSince
                missingListenerCount := process.missingListenerCount + 1 }, .retained)
          else
            (clearMissingListenerState
              { process with status := .stopped, stoppedAt := os.isoNow, url := [] }, .released)
  else (process, .untouched)

def stateReleaseProcessRoute (s : AgentState) (input : ReleaseProcessInput) : AgentState × Option Response :=
  let networkId := normalizeNetwork input.networkId PM_SMALL
  let listeners := scanLsofForPort os input.actualPort
  let s' := claimAllocation s input.allocationId
  let rows := s'.processes.map (releaseRow os input networkId listeners)
  let released := s'.pendingRoutes.length ≠ s.pendingRoutes.length ∨
    rows.any (·.2 = .released)
  let s' := { s' with processes := rows.map (·.1) }
  let s' := if released ∨ rows.any (·.2 = .retained) then listenerCacheInvalidate s' else s'
  (s', some (.bool released))

/-! ## Dispatch -/

/-- The scope C `pm_dispatch` holds a registration against. -/
def registrationScope (auth : Authorization) (pid : Int) : Option AuthenticatedScope × Authorization :=
  if 1 < pid then authControllerScope os auth pid (os.processBirth pid) else (none, auth)

/-- The workload methods of C `pm_dispatch`; the rest of them is not reached by a network
credential. -/
def dispatch (auth : Authorization) (s : AgentState) (request : Request) :
    Authorization × AgentState × Option Response :=
  if request.method = ascii "allocateRoute" then
    match parseAllocateInput request.payload with
    | none => (auth, s, none)
    | some input => (auth, stateAllocateRoute os s input)
  else if request.method = ascii "registerExistingProcess" then
    match parseRegisterInput request.payload with
    | none => (auth, s, none)
    | some input =>
      let (scope, auth) := registrationScope os auth input.pid
      if scope.any fun scope => scope.networkId ≠ input.networkId then (auth, s, none)
      else (auth, stateRegisterProcess os s input)
  else if request.method = ascii "releaseRouteAllocation" then
    match jsonGetString request.payload (ascii "allocationId") PM_ID with
    | (false, _) => (auth, s, none)
    | (true, allocationId) => (auth, stateReleaseAllocation s allocationId)
  else if request.method = ascii "releaseProcessRoute" then
    match parseReleaseProcessInput request.payload with
    | none => (auth, s, none)
    | some input => (auth, stateReleaseProcessRoute os s input)
  else (auth, s, none)

end PortManager.Native
