import PortManager.Node.RouteTable

/-!
# The registry of the Node daemon

Embeds the process registry (`src/core/process-registry.ts`), the pending route allocations beside it, the
registration of external processes and the route list built from both (`src/agent/port-manager-agent.ts`).
Timestamps and error texts of rows are left out; no modelled function reads them.
-/

namespace PortManager.Node
open JsonText List

/-! ## Rows -/

/-- `ManagedProcess` without its id, which is the key of its entry. -/
structure ManagedProcess where
  pid : Int
  name : List Nat
  command : List Nat
  cwd : List Nat
  networkId : Option (List Nat)
  terminalSessionId : Option (List Nat)
  processGroupId : Option Int
  requestedPort : Nat
  actualPort : Nat
  status : ProcessStatus
  url : Option (List Nat)
  source : ProcessSource
deriving DecidableEq

structure RegisteredProcessInput where
  pid : Int
  name : List Nat
  command : List Nat
  cwd : List Nat
  requestedPort : Nat
  actualPort : Nat
  host : List Nat
  networkId : Option (List Nat)
  terminalSessionId : Option (List Nat)
  processGroupId : Option Int
  allocationId : Option (List Nat)
  source : Option ProcessSource
deriving DecidableEq

def buildUrl (host : List Nat) (actualPort : Nat) : List Nat :=
  let normalizedHost := if trim host = [] then codes "localhost" else trim host
  codes "http://" ++ normalizedHost ++ 58 :: decimal actualPort

/-- A member that is only present when its text is not empty. -/
def presentText (text : Option (List Nat)) : Option (List Nat) := text.filter fun t => t ≠ []

def normalizeTerminalSessionId (terminalSessionId : Option (List Nat)) : Option (List Nat) :=
  normalizeNetworkId terminalSessionId

def normalizeProcessGroupId (processGroupId : Option Int) : Option Int := processGroupId.filter fun id => 0 < id

def normalizeRegisteredProcessSource (source : Option ProcessSource) : ProcessSource :=
  if source = some .hooked then .hooked else if source = some .compose then .compose else .registered

/-- The row `register` makes of its input. -/
def RegisteredProcessInput.process (input : RegisteredProcessInput) (source : ProcessSource)
    (defaultHost : List Nat) : ManagedProcess where
  pid := input.pid
  name := input.name
  command := input.command
  cwd := input.cwd
  networkId := presentText input.networkId
  terminalSessionId := presentText input.terminalSessionId
  processGroupId := input.processGroupId
  requestedPort := input.requestedPort
  actualPort := input.actualPort
  status := .running
  url := some (buildUrl (if input.host = [] then defaultHost else input.host) input.actualPort)
  source := source

/-! ## The registry -/

/-- The default `idFactory`. -/
def processId (n : Nat) : List Nat := codes "managed-process-" ++ decimal n

lemma processId_injective {m n : Nat} (h : processId m = processId n) : m = n :=
  decimal_injective (append_cancel_left h)

/-- `ManagedProcessRegistry`. Every id was generated, so the next one is new and `ensureIdAvailable` never
throws. -/
structure ManagedProcessRegistry where
  processesById : InsertionMap (List Nat) ManagedProcess
  generatedIdSequence : Nat
  generated : ∀ id ∈ processesById.keys, ∃ n < generatedIdSequence, id = processId n

namespace ManagedProcessRegistry

def empty : ManagedProcessRegistry := ⟨.empty, 1, nofun⟩

variable (registry : ManagedProcessRegistry)

lemma newId_not_mem : processId registry.generatedIdSequence ∉ registry.processesById.keys := by
  intro hmem
  obtain ⟨n, hlt, heq⟩ := registry.generated _ hmem
  exact absurd (processId_injective heq) (ne_of_gt hlt)

/-- `add` under the next id. -/
def add (process : ManagedProcess) : ManagedProcessRegistry where
  processesById := registry.processesById.set (processId registry.generatedIdSequence) process
  generatedIdSequence := registry.generatedIdSequence + 1
  generated := by
    intro id hid
    rcases InsertionMap.mem_keys_set.mp hid with rfl | hold
    · exact ⟨_, Nat.lt_succ_self _, rfl⟩
    · obtain ⟨n, hlt, heq⟩ := registry.generated id hold
      exact ⟨n, Nat.lt_succ_of_lt hlt, heq⟩

def register (input : RegisteredProcessInput) (source : ProcessSource)
    (defaultHost : List Nat) : ManagedProcessRegistry :=
  registry.add (input.process source defaultHost)

variable (id : List Nat)

/-- The row of an id is replaced, if there is one (`update` and `stop`; their callers have looked the row up). -/
def replace (change : ManagedProcess → ManagedProcess) : ManagedProcessRegistry :=
  match h : registry.processesById.get? id with
  | none => registry
  | some process =>
    { registry with
      processesById := registry.processesById.set id (change process)
      generated := by
        intro other hother
        rcases InsertionMap.mem_keys_set.mp hother with rfl | hold
        · exact registry.generated _ (InsertionMap.mem_keys_iff.mpr ⟨process, InsertionMap.get?_eq_some_iff.mp h⟩)
        · exact registry.generated other hold }

lemma mem_replace {registry : ManagedProcessRegistry} {id : List Nat} {change : ManagedProcess → ManagedProcess}
    {entry : List Nat × ManagedProcess} :
    entry ∈ (registry.replace id change).processesById.entries ↔
      (∃ process, (id, process) ∈ registry.processesById.entries ∧ entry = (id, change process)) ∨
        (entry ∈ registry.processesById.entries ∧ entry.1 ≠ id) := by
  unfold replace
  split
  next hnone =>
    have hmissing : ∀ process, (id, process) ∉ registry.processesById.entries := by
      intro process hentry
      rw [InsertionMap.get?_eq_some_iff.mpr hentry] at hnone
      cases hnone
    constructor
    · exact fun hentry => .inr ⟨hentry, fun heq => hmissing entry.2 (heq ▸ hentry)⟩
    rintro (⟨process, hentry, -⟩ | ⟨hentry, -⟩)
    · exact absurd hentry (hmissing process)
    · exact hentry
  next process hfound =>
    have hrow := InsertionMap.get?_eq_some_iff.mp hfound
    rw [InsertionMap.mem_set]
    constructor
    · rintro (rfl | hother)
      · exact .inl ⟨process, hrow, rfl⟩
      · exact .inr hother
    · rintro (⟨other, hother, rfl⟩ | hother)
      · rw [InsertionMap.value_unique hother hrow]
        exact .inl rfl
      · exact .inr hother

def stop : ManagedProcessRegistry :=
  registry.replace id fun process => { process with status := .stopped, url := none }

def remove : ManagedProcessRegistry where
  processesById := registry.processesById.delete id
  generatedIdSequence := registry.generatedIdSequence
  generated := by
    intro other hother
    obtain ⟨process, hentry⟩ := InsertionMap.mem_keys_iff.mp hother
    exact registry.generated other (InsertionMap.mem_keys_iff.mpr ⟨process, (InsertionMap.mem_delete.mp hentry).1⟩)

end ManagedProcessRegistry

/-! ## Routes -/

structure PendingRouteAllocation where
  id : List Nat
  route : LogicalPortRoute
  expiresAtMs : Int
deriving DecidableEq

lemma colon_not_mem_decimal (n : Nat) : 58 ∉ decimal n := by
  intro h
  have := mem_decimal h
  omega

lemma buildLogicalEndpointIdentity_eq_iff {networkId networkId' : Option (List Nat)} {port port' : Nat} :
    buildLogicalEndpointIdentity networkId port = buildLogicalEndpointIdentity networkId' port' ↔
      networkId.getD [] = networkId'.getD [] ∧ port = port' := by
  constructor
  · intro h
    obtain ⟨hnetwork, hport⟩ := split_at_last (colon_not_mem_decimal _) (colon_not_mem_decimal _) h
    exact ⟨hnetwork, decimal_injective hport⟩
  · rintro ⟨hnetwork, rfl⟩
    rw [buildLogicalEndpointIdentity, buildLogicalEndpointIdentity, hnetwork]

def RouteDirection.text : RouteDirection → List Nat
  | .listen => codes "listen"
  | .send => codes "send"

def buildLogicalRouteIdentity (route : LogicalPortRoute) : List Nat :=
  buildLogicalEndpointIdentity route.networkId route.logicalPort ++
    58 :: (normalizeRouteDirection route.routeDirection).text

def dedupeLogicalRoutes (routes : List LogicalPortRoute) : List LogicalPortRoute :=
  (InsertionMap.lastOfEach (routes.map fun route => (buildLogicalRouteIdentity route, route))).values

/-- The rows `buildLogicalRoutes` takes. -/
def ManagedProcess.routed (process : ManagedProcess) : Bool :=
  process.status = .running ∧ process.source ≠ .detected

variable (hostOf : Option (List Nat) → List Nat)

/-- The route of a row in `buildLogicalRoutes`; `hostOf` is `routeHostFromUrl`. -/
def processRoute (entry : List Nat × ManagedProcess) : LogicalPortRoute where
  logicalPort := entry.2.requestedPort
  actualPort := entry.2.actualPort
  routeDirection := some .listen
  host := hostOf entry.2.url
  cwd := some entry.2.cwd
  networkId := presentText entry.2.networkId
  terminalSessionId := presentText entry.2.terminalSessionId
  processGroupId := entry.2.processGroupId
  processId := some entry.1
  processName := some entry.2.name
  status := entry.2.status
  source := entry.2.source

def buildLogicalRoutes (processes : List (List Nat × ManagedProcess))
    (pendingRoutes : List LogicalPortRoute) : List LogicalPortRoute :=
  dedupeLogicalRoutes
    (pendingRoutes.map (fun route =>
        { route with routeDirection := some (normalizeRouteDirection route.routeDirection) }) ++
      (processes.filter fun entry => entry.2.routed).map (processRoute hostOf))

/-! ## Registration -/

/-- The parts of the daemon that are not its own code: the host of a URL, the order in which
`listPendingRoutes` sorts, and the configured default host. -/
structure RegistrySetting where
  defaultHost : List Nat
  hostOf : Option (List Nat) → List Nat
  sortPending : List PendingRouteAllocation → List PendingRouteAllocation
  perm : ∀ allocations, (sortPending allocations).Perm allocations

structure RouteRegistry where
  registry : ManagedProcessRegistry
  pendingRouteAllocations : InsertionMap (List Nat) PendingRouteAllocation

variable (registry : ManagedProcessRegistry)

def findRegisteredProcessForRoute (input : RegisteredProcessInput)
    (source : ProcessSource) : Option (List Nat × ManagedProcess) :=
  registry.processesById.entries.find? fun entry =>
    entry.2.status = .running ∧ entry.2.source = source ∧ entry.2.requestedPort = input.requestedPort ∧
      entry.2.actualPort = input.actualPort ∧ normalizeNetworkId entry.2.networkId = normalizeNetworkId input.networkId

/-- The update of a found row in `upsertRegisteredProcess`. -/
def ManagedProcess.reregistered (process : ManagedProcess) (input : RegisteredProcessInput) (source : ProcessSource)
    (defaultHost : List Nat) : ManagedProcess :=
  { process with
    pid := input.pid
    name := input.name
    command := input.command
    cwd := input.cwd
    networkId := normalizeNetworkId input.networkId
    terminalSessionId := normalizeTerminalSessionId input.terminalSessionId
    processGroupId := normalizeProcessGroupId input.processGroupId
    actualPort := input.actualPort
    status := .running
    url := some (buildUrl (if input.host = [] then defaultHost else input.host) input.actualPort)
    source := source }

/-- `upsertRegisteredProcess`: the id of the row, and the registry. -/
def upsertRegisteredProcess (input : RegisteredProcessInput)
    (source : ProcessSource) (defaultHost : List Nat) : List Nat × ManagedProcessRegistry :=
  match findRegisteredProcessForRoute registry input source with
  | none => (processId registry.generatedIdSequence, registry.register input source defaultHost)
  | some entry => (entry.1, registry.replace entry.1 (·.reregistered input source defaultHost))

def removePendingRouteAllocationsForIdentity (pending : InsertionMap (List Nat) PendingRouteAllocation)
    (logicalPort : Nat) (networkId : Option (List Nat)) : InsertionMap (List Nat) PendingRouteAllocation :=
  let routeIdentity := buildLogicalEndpointIdentity networkId logicalPort
  pending.entries.foldl (fun kept entry =>
    if buildLogicalEndpointIdentity entry.2.route.networkId entry.2.route.logicalPort = routeIdentity
    then kept.delete entry.1 else kept) pending

/-- The input `registerExistingProcessExclusive` registers: the network of the consumed allocation stands in
for a missing one. -/
def RouteRegistry.registeredInput (state : RouteRegistry) (input : RegisteredProcessInput) : RegisteredProcessInput :=
  let allocation := input.allocationId.bind state.pendingRouteAllocations.get?
  let registeredNetworkId := (normalizeNetworkId input.networkId).or
    (normalizeNetworkId (allocation.bind (·.route.networkId)))
  if registeredNetworkId = none then input else { input with networkId := registeredNetworkId }

/-- `registerExistingProcessExclusive`: the id of the row, and the state. -/
def RouteRegistry.registerExistingProcess (defaultHost : List Nat) (state : RouteRegistry)
    (input : RegisteredProcessInput) : List Nat × RouteRegistry :=
  let pending := match input.allocationId with
    | some id => state.pendingRouteAllocations.delete id
    | none => state.pendingRouteAllocations
  let registeredInput := state.registeredInput input
  let (id, registry) := upsertRegisteredProcess state.registry registeredInput
    (normalizeRegisteredProcessSource input.source) defaultHost
  let networkId := normalizeNetworkId ((registry.processesById.get? id).bind (·.networkId))
  (id, ⟨registry, removePendingRouteAllocationsForIdentity pending input.requestedPort networkId⟩)

end PortManager.Node
