import PortManager.Node.PortRouting
import PortManager.Node.Registry

/-!
# Route allocation of the Node daemon

Embeds `allocateRoute`, `releaseRouteAllocation`, `registerExistingProcess` and the expiry of allocations
(`src/agent/port-manager-agent.ts`) as one state machine. `runExclusiveRouteOperation` runs queued calls one at
a time in the order of their invocation. `allocateRoute` awaits a listener scan and one probe for each
candidate port; every place where it can be suspended is a phase of the running call, and between two of its
steps anything else can happen: new calls, expiry, background scans, the clock.

The availability provider reports the port it was asked about, so its answer is whether that port is
available. The marks of bidirectional observation do not take part and are left out.
-/

namespace PortManager.Node
open JsonText

/-! ## Requests and answers -/

inductive ExperimentalRouteOwnershipMode where
  | process | terminalScopeListener | loopbackAddressOnly
deriving DecidableEq

/-- `AgentAllocateRouteRequest` -/
structure AllocateRouteRequest where
  name : Option (List Nat)
  command : Option (List Nat)
  cwd : List Nat
  requestedPort : Nat
  host : List Nat
  actualHost : Option (List Nat)
  networkId : Option (List Nat)
  experimentalRouteOwnershipMode : Option ExperimentalRouteOwnershipMode
  terminalSessionId : Option (List Nat)
  processGroupId : Option Int
  routeDirection : Option RouteDirection
  scanRange : Int
  scanDirection : ScanDirection
  routingMode : Option PortRoutingMode
  virtualPortRangeStart : Option Nat
  virtualPortRangeEnd : Option Nat

structure PortRouteAllocation where
  allocationId : List Nat
  requestedPort : Nat
  actualPort : Nat
  host : List Nat
  routed : Bool
  logicalRoutes : List LogicalPortRoute
  logicalRoutesFile : List Nat
  expiresAtMs : Int
deriving DecidableEq

structure ListeningPortEndpoint where
  localAddress : List Nat
  port : Nat
deriving DecidableEq

def normalizeOptionalHost (host : Option (List Nat)) : Option (List Nat) := (host.map trim).filter fun h => h ≠ []

def usesScopedRouteOwnership (mode : Option ExperimentalRouteOwnershipMode) : Bool :=
  mode = some .terminalScopeListener ∨ mode = some .loopbackAddressOnly

namespace AllocateRouteRequest

variable (request : AllocateRouteRequest)

/-- `networkRouteScope` -/
def network : Option (List Nat) := normalizeNetworkId request.networkId

/-- `actualHost` -/
def bindHost : List Nat := (normalizeOptionalHost request.actualHost).getD request.host

def direction : RouteDirection := normalizeRouteDirection request.routeDirection

/-- `buildAllocatedLogicalRoute` of the input with the actual host. -/
def allocatedRoute (actualPort : Nat) : LogicalPortRoute where
  logicalPort := request.requestedPort
  actualPort := actualPort
  routeDirection := some request.direction
  host := request.bindHost
  cwd := some request.cwd
  networkId := normalizeNetworkId request.networkId
  terminalSessionId := if usesScopedRouteOwnership request.experimentalRouteOwnershipMode
    then normalizeTerminalSessionId request.terminalSessionId else none
  processGroupId := if usesScopedRouteOwnership request.experimentalRouteOwnershipMode
    then normalizeProcessGroupId request.processGroupId else none
  processId := none
  processName := request.name.or request.command
  status := .starting
  source := .allocated

/-- The request `allocateRoute` passes to the routing service. -/
def routing : PortRoutingRequest where
  requestedPort := request.requestedPort
  host := request.bindHost
  scanRange := request.scanRange
  scanDirection := request.scanDirection
  routingMode := request.routingMode
  routeScope := some (request.network.getD request.cwd)
  virtualPortRangeStart := request.virtualPortRangeStart
  virtualPortRangeEnd := request.virtualPortRangeEnd

end AllocateRouteRequest

/-! ## Pending allocations -/

abbrev PendingRoutes := InsertionMap (List Nat) PendingRouteAllocation

def ROUTE_ALLOCATION_TTL_MS : Int := 300000

def refreshPendingRouteAllocation (pending : PendingRoutes) (allocation : PendingRouteAllocation) (nowMs : Int) :
    PendingRoutes :=
  pending.set allocation.id { allocation with expiresAtMs := nowMs + ROUTE_ALLOCATION_TTL_MS }

/-- One entry in the loop of `cleanupExpiredRouteAllocations`. -/
def cleanupExpiredEntry (lower : List Nat → List Nat) (nowMs : Int) (listeners : List ListeningPortEndpoint)
    (pending : PendingRoutes) (entry : List Nat × PendingRouteAllocation) : PendingRoutes :=
  if nowMs < entry.2.expiresAtMs then pending
  else if listeners.any fun listener =>
      listener.port = entry.2.route.actualPort && endpointHostMatches lower listener.localAddress entry.2.route.host then
    refreshPendingRouteAllocation pending entry.2 nowMs
  else pending.delete entry.1

def cleanupExpiredRouteAllocations (lower : List Nat → List Nat) (nowMs : Int)
    (listeners : List ListeningPortEndpoint) (pending : PendingRoutes) : PendingRoutes :=
  pending.entries.foldl (cleanupExpiredEntry lower nowMs listeners) pending

def findReusablePendingRouteAllocation (pending : PendingRoutes) (logicalPort : Nat) (networkId : Option (List Nat)) :
    Option PendingRouteAllocation :=
  pending.values.find? fun allocation =>
    buildLogicalEndpointIdentity allocation.route.networkId allocation.route.logicalPort =
      buildLogicalEndpointIdentity networkId logicalPort

/-! ## The daemon -/

/-- The parts that are not the daemon's own code. -/
structure AllocationSetting extends RegistrySetting where
  lower : List Nat → List Nat
  routeTablePath : List Nat
  /-- `allocation:${randomUUID()}` -/
  uuid : Nat → List Nat
  uuid_injective : ∀ {m n}, uuid m = uuid n → m = n

inductive RouteCall where
  | allocate (request : AllocateRouteRequest)
  | release (allocationId : List Nat)
  | register (input : RegisteredProcessInput)

inductive AllocationPhase where
  /-- in `findSamePortExternalListener` -/
  | scanning
  /-- before the check of the next candidate -/
  | choosing (candidates : List Nat)
  /-- the candidate is not reserved, and its probe runs -/
  | probing (candidate : Nat) (rest : List Nat)
  /-- the routing service has decided -/
  | decided (port : Nat)
deriving DecidableEq

structure RunningAllocation where
  ticket : Nat
  request : AllocateRouteRequest
  phase : AllocationPhase

inductive RouteAnswer where
  /-- by a running receiver or an external listener -/
  | attached (allocation : PortRouteAllocation)
  /-- by a pending allocation, made or reused, for a request in the network -/
  | reserved (networkId : Option (List Nat)) (allocation : PortRouteAllocation)
  | routingFailed (error : PortRoutingError)
  | probeFailed
  | released (found : Bool)
  | registered (id : List Nat)
deriving DecidableEq

structure AllocationDaemon where
  routes : RouteRegistry
  reservedListeningEndpoints : List ListeningPortEndpoint
  nowMs : Int
  /-- how many ids `randomUUID` has made -/
  uuids : Nat
  /-- how many calls were invoked -/
  tickets : Nat
  queue : List (Nat × RouteCall)
  running : Option RunningAllocation
  answers : List (Nat × RouteAnswer)

inductive AllocationEvent where
  | call (call : RouteCall)
  /-- the first queued call starts -/
  | begin
  | scanned (listeners : List ListeningPortEndpoint)
  | check
  | probed (available : Bool)
  | probeFailed
  | reserve
  /-- somebody runs `cleanupExpiredRouteAllocations` -/
  | expire
  | clock (nowMs : Int)
  /-- a background scan ends -/
  | listeners (endpoints : List ListeningPortEndpoint)

namespace AllocationDaemon

variable (setting : AllocationSetting) (daemon : AllocationDaemon)

def start : AllocationDaemon := ⟨⟨.empty, .empty⟩, [], 0, 0, 0, [], none, []⟩

def pending : PendingRoutes := daemon.routes.pendingRouteAllocations

def withPending (pending : PendingRoutes) : AllocationDaemon :=
  { daemon with routes.pendingRouteAllocations := pending }

def cleaned : AllocationDaemon :=
  daemon.withPending (cleanupExpiredRouteAllocations setting.lower daemon.nowMs daemon.reservedListeningEndpoints
    daemon.pending)

/-- `listPendingRoutes` and `buildLogicalRoutes` after the cleanup of `buildCurrentLogicalRoutes`. -/
def logicalRoutes : List LogicalPortRoute :=
  buildLogicalRoutes setting.hostOf daemon.routes.registry.processesById.entries
    ((setting.sortPending daemon.pending.values).map (·.route))

variable (ticket : Nat)

def answered (answer : RouteAnswer) : AllocationDaemon :=
  { daemon with running := none, answers := daemon.answers ++ [(ticket, answer)] }

variable (request : AllocateRouteRequest)

/-- The answer of `allocateRoute` by a pending allocation. -/
def reservedAnswer (id : List Nat) (actualPort : Nat)
    (host : List Nat) (expiresAtMs : Int) : AllocationDaemon :=
  let cleaned := daemon.cleaned setting
  cleaned.answered ticket (.reserved request.network
    { allocationId := id
      requestedPort := request.requestedPort
      actualPort := actualPort
      host := host
      routed := actualPort ≠ request.requestedPort
      logicalRoutes := cleaned.logicalRoutes setting
      logicalRoutesFile := getRouteTablePathForNetwork request.network setting.routeTablePath
      expiresAtMs := expiresAtMs })

/-- The answer of `allocateRoute` by a live endpoint. -/
def attachedAnswer (actualPort : Nat) (host : List Nat) : AllocationDaemon :=
  let cleaned := daemon.cleaned setting
  cleaned.answered ticket (.attached
    { allocationId := []
      requestedPort := request.requestedPort
      actualPort := actualPort
      host := host
      routed := actualPort ≠ request.requestedPort
      logicalRoutes := cleaned.logicalRoutes setting
      logicalRoutesFile := getRouteTablePathForNetwork request.network setting.routeTablePath
      expiresAtMs := daemon.nowMs })

def findReusableActiveRoute : Option LogicalPortRoute :=
  (buildLogicalRoutes setting.hostOf daemon.routes.registry.processesById.entries []).find? fun route =>
    buildLogicalEndpointIdentity route.networkId route.logicalPort =
        buildLogicalEndpointIdentity request.network request.requestedPort ∧
      normalizeRouteDirection route.routeDirection = .listen ∧
      (normalizeOptionalHost request.actualHost = none ∨
        normalizeOptionalHost (some route.host) = normalizeOptionalHost request.actualHost)

/-- The start of `routingService.route`. -/
def route : AllocationDaemon :=
  match request.routing.candidates with
  | .error error => daemon.answered ticket (.routingFailed error)
  | .ok candidates => { daemon with running := some ⟨ticket, request, .choosing candidates⟩ }

/-- `allocateRoute` up to its first suspension. -/
def allocate : AllocationDaemon :=
  let daemon := daemon.cleaned setting
  match if request.direction = .send then daemon.findReusableActiveRoute setting request else none with
  | some route => daemon.attachedAnswer setting ticket request route.actualPort route.host
  | none =>
    match findReusablePendingRouteAllocation daemon.pending request.requestedPort request.network with
    | some allocation =>
      (daemon.withPending (refreshPendingRouteAllocation daemon.pending allocation daemon.nowMs)).reservedAnswer setting
        ticket request allocation.id allocation.route.actualPort allocation.route.host
        (daemon.nowMs + ROUTE_ALLOCATION_TTL_MS)
    | none =>
      if request.direction = .send ∧ request.network = none then
        { daemon with running := some ⟨ticket, request, .scanning⟩ }
      else daemon.route ticket request

def samePortListenerMatchesHost (listenerHost targetHost : List Nat) : Bool :=
  let listener := normalizeEndpointHostKey setting.lower listenerHost
  let target := normalizeEndpointHostKey setting.lower targetHost
  listener = codes "*" ∨ target = codes "*" ∨ (target = codes "127.0.0.1" ∧ listener = codes "::1") ∨
    (target = codes "::1" ∧ listener = codes "127.0.0.1") ∨ listener = target

def samePortListenerMatchesRoutedHosts (listenerHost requestedHost : List Nat) : Option (List Nat) → Bool
  | none => true
  | some actualHost =>
    samePortListenerMatchesHost setting listenerHost requestedHost ||
      samePortListenerMatchesHost setting listenerHost actualHost

def normalizeListenerHost (localAddress defaultHost : List Nat) : List Nat :=
  if trim localAddress ∈ [[], codes "*", codes "0.0.0.0", codes "::", codes "[::]"] then defaultHost
  else trim localAddress

def rememberReservedListeningPorts (listeners : List ListeningPortEndpoint) : List ListeningPortEndpoint :=
  ((daemon.reservedListeningEndpoints ++ listeners.filter fun listener => isValidPort listener.port).foldl
    (fun (endpoints : InsertionMap (List Nat) ListeningPortEndpoint) endpoint =>
      endpoints.set (endpoint.localAddress ++ 58 :: decimal endpoint.port) endpoint) .empty).values

/-- `allocateRoute` after the scan of `findSamePortExternalListener`. -/
def afterScan (listeners : List ListeningPortEndpoint) : AllocationDaemon :=
  let daemon := { daemon with reservedListeningEndpoints := daemon.rememberReservedListeningPorts listeners }
  let samePort := listeners.find? fun listener =>
    listener.port = request.requestedPort &&
      samePortListenerMatchesRoutedHosts setting listener.localAddress request.host
        (normalizeOptionalHost request.actualHost)
  match samePort with
  | some listener =>
    daemon.attachedAnswer setting ticket request request.requestedPort
      (normalizeListenerHost listener.localAddress request.host)
  | none => daemon.route ticket request

/-- `isActualPortReserved` after its cleanup. -/
def isActualPortReserved (port : Nat) (host : List Nat) : Bool :=
  (daemon.pending.values.any fun allocation =>
      allocation.route.actualPort = port && endpointHostMatches setting.lower allocation.route.host host) ||
    (daemon.routes.registry.processesById.values.any fun process =>
      process.routed && process.actualPort = port &&
        endpointHostMatches setting.lower (setting.hostOf process.url) host) ||
    daemon.reservedListeningEndpoints.any fun listener =>
      listener.port = port && endpointHostMatches setting.lower listener.localAddress host

/-- The check of the next candidate up to its probe. -/
def checkNext : List Nat → AllocationDaemon
  | [] => daemon.answered ticket (.routingFailed request.routing.exhausted)
  | candidate :: rest =>
    let daemon := daemon.cleaned setting
    if daemon.isActualPortReserved setting candidate request.bindHost then
      { daemon with running := some ⟨ticket, request, .choosing rest⟩ }
    else { daemon with running := some ⟨ticket, request, .probing candidate rest⟩ }

/-- The end of `allocateRoute`: the pending allocation is made. -/
def reserve (port : Nat) : AllocationDaemon :=
  let id := setting.uuid daemon.uuids
  let expiresAtMs := daemon.nowMs + ROUTE_ALLOCATION_TTL_MS
  ({ daemon.withPending (daemon.pending.set id ⟨id, request.allocatedRoute port, expiresAtMs⟩) with
      uuids := daemon.uuids + 1 }).reservedAnswer setting ticket request id port request.bindHost expiresAtMs

def begin : RouteCall → AllocationDaemon
  | .allocate request => daemon.allocate setting ticket request
  | .release allocationId =>
    (daemon.withPending (daemon.pending.delete allocationId)).answered ticket
      (.released (allocationId ∈ daemon.pending.keys))
  | .register input =>
    let (id, routes) := daemon.routes.registerExistingProcess setting.defaultHost input
    ({ daemon with routes }).answered ticket (.registered id)

/-- One event. An event that is not due does nothing. -/
def step : AllocationEvent → AllocationDaemon
  | .call call => { daemon with queue := daemon.queue ++ [(daemon.tickets, call)], tickets := daemon.tickets + 1 }
  | .begin =>
    match daemon.running, daemon.queue with
    | none, (ticket, call) :: queue => begin setting { daemon with queue } ticket call
    | _, _ => daemon
  | .scanned listeners =>
    match daemon.running with
    | some ⟨ticket, request, .scanning⟩ => daemon.afterScan setting ticket request listeners
    | _ => daemon
  | .check =>
    match daemon.running with
    | some ⟨ticket, request, .choosing candidates⟩ => daemon.checkNext setting ticket request candidates
    | _ => daemon
  | .probed available =>
    match daemon.running with
    | some ⟨ticket, request, .probing candidate rest⟩ =>
      { daemon with running := some ⟨ticket, request, if available then .decided candidate else .choosing rest⟩ }
    | _ => daemon
  | .probeFailed =>
    match daemon.running with
    | some ⟨ticket, _, .probing _ _⟩ => daemon.answered ticket .probeFailed
    | _ => daemon
  | .reserve =>
    match daemon.running with
    | some ⟨ticket, request, .decided port⟩ => daemon.reserve setting ticket request port
    | _ => daemon
  | .expire => daemon.cleaned setting
  | .clock nowMs => { daemon with nowMs }
  | .listeners endpoints => { daemon with reservedListeningEndpoints := endpoints }

end AllocationDaemon

end PortManager.Node
