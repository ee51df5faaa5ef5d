import PortManager.Base.Eviction
import PortManager.Base.Method
import PortManager.Networks.Addresses

/-!
# The registry of logical networks

Embeds `LogicalNetworkRegistry` (`src/core/networks/logical-network-registry.ts`): five tables in insertion order,
the operations on them, the load of a persisted document and the cached snapshot. A call that throws keeps what it
had changed before; listeners of changes run outside.

Members of rows that the registry only stores are one text. The runtime descriptors and discovery results, which no
table depends on, are one value of any type. `Date.parse` is an argument.
-/

namespace PortManager.Networks
open JsonText PortManager.Node

/-! ## Rows -/

inductive NetworkPortProtocol where
  | tcp | udp
deriving DecidableEq

def NetworkPortProtocol.text : NetworkPortProtocol → List Nat
  | .tcp => codes "tcp"
  | .udp => codes "udp"

inductive ComposeRuntime where
  | docker | podman
deriving DecidableEq

def ComposeRuntime.text : ComposeRuntime → List Nat
  | .docker => codes "docker"
  | .podman => codes "podman"

inductive ComposeAttachmentStatus where
  | attached | detached | error
deriving DecidableEq

structure LogicalNetwork where
  id : List Nat
  otherMembers : List Nat
deriving DecidableEq

structure TerminalAttachment where
  id : List Nat
  networkId : List Nat
  terminalSessionId : Option (List Nat)
  rootPid : Int
  processGroupId : Option Int
  terminalWindowId : Option (List Nat)
  attachedAt : List Nat
  otherMembers : List Nat
deriving DecidableEq

structure HostPortExposure where
  id : List Nat
  networkId : List Nat
  hostAddress : List Nat
  hostPort : Int
  protocol : NetworkPortProtocol
  otherMembers : List Nat
deriving DecidableEq

structure HostAccessBinding where
  id : List Nat
  networkId : List Nat
  logicalPort : Int
  protocol : NetworkPortProtocol
  otherMembers : List Nat
deriving DecidableEq

structure ComposePublishedPort where
  logicalPort : Int
  protocol : NetworkPortProtocol
  otherMembers : List Nat
deriving DecidableEq

structure ComposePortMutationState where
  runtime : ComposeRuntime
  attachedProjectName : List Nat
  otherMembers : List Nat
deriving DecidableEq

structure ComposeAttachment where
  id : List Nat
  networkId : List Nat
  projectName : List Nat
  runtime : Option ComposeRuntime
  ports : List ComposePublishedPort
  mutation : Option ComposePortMutationState
  status : ComposeAttachmentStatus
  attachedAt : List Nat
  otherMembers : List Nat
deriving DecidableEq

structure LogicalNetworkRegistryState where
  networks : List LogicalNetwork
  attachments : List TerminalAttachment
  exposures : List HostPortExposure
  hostAccessBindings : Option (List HostAccessBinding)
  composeAttachments : Option (List ComposeAttachment)

def HostPortExposure.coordinates (exposure : HostPortExposure) : NetworkPortProtocol × List Nat × Int :=
  (exposure.protocol, exposure.hostAddress, exposure.hostPort)

/-! ## Identities -/

def terminalAttachmentsShareIdentity (left right : TerminalAttachment) : Bool :=
  if left.terminalSessionId ≠ none ∧ right.terminalSessionId ≠ none ∧
      left.terminalSessionId = right.terminalSessionId then true
  else if left.terminalWindowId ≠ none ∧ left.terminalWindowId = right.terminalWindowId then true
  else if left.rootPid = right.rootPid then true
  else left.processGroupId ≠ none ∧ left.processGroupId = right.processGroupId

def composeRuntimeOwnerKey (runtime : ComposeRuntime) (projectName : List Nat) : List Nat :=
  runtime.text ++ 58 :: projectName

def composeRuntimeOwnerKeys (attachment : ComposeAttachment) : List (List Nat) :=
  if attachment.status ≠ .attached ∧ attachment.status ≠ .error then []
  else
    match attachment.mutation.filter fun mutation => trim mutation.attachedProjectName ≠ [] with
    | some mutation => [composeRuntimeOwnerKey mutation.runtime mutation.attachedProjectName]
    | none =>
      if trim attachment.projectName = [] then []
      else
        match attachment.runtime with
        | some runtime => [composeRuntimeOwnerKey runtime attachment.projectName]
        | none => [composeRuntimeOwnerKey .docker attachment.projectName,
            composeRuntimeOwnerKey .podman attachment.projectName]

def formatComposeRuntimeOwnerKey (ownerKey : List Nat) : List Nat :=
  match ownerKey.findIdx? (· = 58) with
  | none => ownerKey
  | some separatorIndex =>
    ownerKey.take separatorIndex ++ codes " compose project \"" ++ ownerKey.drop (separatorIndex + 1) ++ codes "\""

/-! ## Errors -/

inductive RegistryError where
  | storageKey
  | emptyIdentity
  | networkExists (id : List Nat)
  | sharedAddress (id collision : List Nat)
  | invalidIdentity (id : List Nat)
  | unknownNetwork (id : List Nat)
  | exposureExists (exposure : HostPortExposure)
  | unknownExposure (id : List Nat)
  | bindingExists (logicalPort : Int)
  | composeExists (id : List Nat)
  | unknownCompose (id : List Nat)
  | duplicatePort (logicalPort : Int)
  | routeExists (logicalPort : Int)
  | ownerElsewhere (ownerKey : List Nat)
deriving DecidableEq

def intText (n : Int) : List Nat := if n < 0 then 45 :: decimal n.natAbs else decimal n.natAbs

def RegistryError.message : RegistryError → List Nat
  | .storageKey => codes "Logical network identity must contain 1–124 valid UTF-8 bytes without NUL."
  | .emptyIdentity => codes "Logical network identity must not be empty."
  | .networkExists id => codes "Logical network already exists: " ++ id
  | .sharedAddress id collision =>
    codes "Logical networks " ++ id ++ codes " and " ++ collision ++ codes " share a loopback address."
  | .invalidIdentity id => codes "Invalid or duplicate logical network identity: " ++ id
  | .unknownNetwork id => codes "Unknown logical network: " ++ id
  | .exposureExists exposure =>
    codes "Host exposure already exists: " ++ exposure.hostAddress ++ 58 :: intText exposure.hostPort ++
      47 :: exposure.protocol.text
  | .unknownExposure id => codes "Unknown host exposure: " ++ id
  | .bindingExists logicalPort =>
    codes "Host access binding already exists for logical port " ++ intText logicalPort ++ codes "."
  | .composeExists id => codes "Compose attachment already exists: " ++ id
  | .unknownCompose id => codes "Unknown compose attachment: " ++ id
  | .duplicatePort logicalPort =>
    codes "Compose attachment has duplicate logical port " ++ intText logicalPort ++ codes "."
  | .routeExists logicalPort =>
    codes "Compose route already exists for logical port " ++ intText logicalPort ++ codes "."
  | .ownerElsewhere ownerKey =>
    codes "Compose project is already attached to another logical network: " ++
      formatComposeRuntimeOwnerKey ownerKey ++ codes "."

/-! ## The registry -/

structure NetworkSnapshot (τ : Type) where
  networks : List LogicalNetwork
  attachments : List TerminalAttachment
  exposures : List HostPortExposure
  hostAccessBindings : List HostAccessBinding
  composeAttachments : List ComposeAttachment
  transient : τ
  updatedAt : Int

structure LogicalNetworkRegistry (τ : Type) where
  networks : InsertionMap (List Nat) LogicalNetwork
  attachments : InsertionMap (List Nat) TerminalAttachment
  exposures : InsertionMap (List Nat) HostPortExposure
  hostAccessBindings : InsertionMap (List Nat) HostAccessBinding
  composeAttachments : InsertionMap (List Nat) ComposeAttachment
  /-- `runtimes`, `terminalCandidates`, `terminalWindows` and `containerServiceCandidates` -/
  transient : τ
  cachedSnapshot : Option (NetworkSnapshot τ)

/-- A method: what it throws or returns, and the registry it leaves. -/
abbrev RegistryM (τ : Type) : Type → Type := ExceptT RegistryError (StateM (LogicalNetworkRegistry τ))

namespace LogicalNetworkRegistry

variable {τ : Type}

def empty (transient : τ) : LogicalNetworkRegistry τ := ⟨.empty, .empty, .empty, .empty, .empty, transient, none⟩

def emitChange : RegistryM τ Unit := modify fun registry => { registry with cachedSnapshot := none }

/-- `getSnapshot`; `updatedAt` is the time of the call. -/
def getSnapshot (updatedAt : Int) : RegistryM τ (NetworkSnapshot τ) := do
  let registry ← get
  match registry.cachedSnapshot with
  | some snapshot => return snapshot
  | none =>
    let snapshot : NetworkSnapshot τ :=
      { networks := registry.networks.values
        attachments := registry.attachments.values
        exposures := registry.exposures.values
        hostAccessBindings := registry.hostAccessBindings.values
        composeAttachments := registry.composeAttachments.values
        transient := registry.transient
        updatedAt := updatedAt }
    set { registry with cachedSnapshot := some snapshot }
    return snapshot

/-! ## Loading -/

/-- The loop of `validateNetworkIdentities` behind the networks `ids`. -/
def validateBehind : List (List Nat) → List LogicalNetwork → RegistryM τ Unit
  | _, [] => return
  | ids, network :: networks => do
    if networkStorageKey network.id = none then throw .storageKey
    if network.id = [] ∨ network.id ∈ ids then throw (.invalidIdentity network.id)
    match addressCollision network.id ids with
    | some collision => throw (.sharedAddress network.id collision)
    | none => validateBehind (ids ++ [network.id]) networks

def validateNetworkIdentities (networks : List LogicalNetwork) : RegistryM τ Unit := validateBehind [] networks

variable (dateParse : List Nat → Option Int)

/-- `parseAttachmentTime`; `Date.parse` gives `none` for what is not a number. -/
def parseAttachmentTime (attachedAt : List Nat) : Int :=
  (dateParse attachedAt).getD 0

def setAttachment (attachments : InsertionMap (List Nat) TerminalAttachment) (attachment : TerminalAttachment) :
    InsertionMap (List Nat) TerminalAttachment :=
  Eviction.insert TerminalAttachment.id terminalAttachmentsShareIdentity attachments attachment

def composeOwnersConflict (existing attachment : ComposeAttachment) : Bool :=
  existing.networkId ≠ attachment.networkId &&
    (composeRuntimeOwnerKeys existing).any fun ownerKey => ownerKey ∈ composeRuntimeOwnerKeys attachment

def setPersistedComposeAttachment (attachments : InsertionMap (List Nat) ComposeAttachment)
    (attachment : ComposeAttachment) : InsertionMap (List Nat) ComposeAttachment :=
  Eviction.insert ComposeAttachment.id composeOwnersConflict attachments attachment

/-- Rows stored under their ids, one after the other. -/
def storeAll {υ : Type} (id : υ → List Nat) (rows : List υ) : InsertionMap (List Nat) υ :=
  rows.foldl (fun stored row => stored.set (id row) row) .empty

/-- `sortTerminalAttachmentsByAttachedAt`, and the loop that stores them. -/
def loadAttachments (attachments : List TerminalAttachment) : InsertionMap (List Nat) TerminalAttachment :=
  (attachments.insertionSort fun a b =>
    parseAttachmentTime dateParse a.attachedAt ≤ parseAttachmentTime dateParse b.attachedAt).foldl setAttachment .empty

/-- `sortComposeAttachmentsByAttachedAt`, and the loop that stores them. -/
def loadComposeAttachments (attachments : List ComposeAttachment) :
    InsertionMap (List Nat) ComposeAttachment :=
  (attachments.insertionSort fun a b =>
    parseAttachmentTime dateParse a.attachedAt ≤ parseAttachmentTime dateParse b.attachedAt).foldl
      setPersistedComposeAttachment .empty

variable (state : LogicalNetworkRegistryState)

def filled (registry : LogicalNetworkRegistry τ) : LogicalNetworkRegistry τ :=
  { registry with
    networks := storeAll LogicalNetwork.id state.networks
    attachments := loadAttachments dateParse state.attachments
    exposures := storeAll HostPortExposure.id state.exposures
    hostAccessBindings := storeAll HostAccessBinding.id (state.hostAccessBindings.getD [])
    composeAttachments := loadComposeAttachments dateParse (state.composeAttachments.getD []) }

def replacePersistedState :
    RegistryM τ Unit := do
  validateNetworkIdentities state.networks
  modify (filled dateParse state)
  emitChange

/-- The constructor with a document, run on a registry without rows. -/
def construct : RegistryM τ Unit := do
  validateNetworkIdentities state.networks
  modify (filled dateParse state)

/-- One of the setters of runtimes and candidates. -/
def setTransient [DecidableEq τ] (transient : τ) : RegistryM τ Unit := do
  if (← get).transient = transient then return
  modify fun registry => { registry with transient := transient }
  emitChange

/-! ## Networks -/

def addNetwork (network : LogicalNetwork) : RegistryM τ LogicalNetwork := do
  if networkStorageKey network.id = none then throw .storageKey
  if network.id = [] then throw .emptyIdentity
  let registry ← get
  if network.id ∈ registry.networks.keys then throw (.networkExists network.id)
  match addressCollision network.id registry.networks.keys with
  | some collision => throw (.sharedAddress network.id collision)
  | none =>
    modify fun registry => { registry with networks := registry.networks.set network.id network }
    emitChange
    return network

def removeNetwork (networkId : List Nat) : RegistryM τ (Option LogicalNetwork) := do
  let registry ← get
  match registry.networks.get? networkId with
  | none => return none
  | some network =>
    modify fun registry =>
      { registry with
        networks := registry.networks.delete networkId
        attachments := registry.attachments.filter fun entry => entry.2.networkId ≠ networkId
        exposures := registry.exposures.filter fun entry => entry.2.networkId ≠ networkId
        hostAccessBindings := registry.hostAccessBindings.filter fun entry => entry.2.networkId ≠ networkId
        composeAttachments := registry.composeAttachments.filter fun entry => entry.2.networkId ≠ networkId }
    emitChange
    return some network

/-! ## Terminal attachments -/

def addAttachment (attachment : TerminalAttachment) : RegistryM τ TerminalAttachment := do
  if attachment.networkId ∉ (← get).networks.keys then throw (.unknownNetwork attachment.networkId)
  modify fun registry => { registry with attachments := setAttachment registry.attachments attachment }
  emitChange
  return attachment

def removeAttachment (attachmentId : List Nat) : RegistryM τ (Option TerminalAttachment) := do
  match (← get).attachments.get? attachmentId with
  | none => return none
  | some attachment =>
    modify fun registry => { registry with attachments := registry.attachments.delete attachmentId }
    emitChange
    return some attachment

/-! ## Host exposures -/

def addExposure (exposure : HostPortExposure) : RegistryM τ HostPortExposure := do
  let registry ← get
  if exposure.networkId ∉ registry.networks.keys then throw (.unknownNetwork exposure.networkId)
  let conflictingExposure := registry.exposures.values.find? fun item =>
    item.id ≠ exposure.id && item.coordinates = exposure.coordinates
  if conflictingExposure.isSome then throw (.exposureExists exposure)
  modify fun registry => { registry with exposures := registry.exposures.set exposure.id exposure }
  emitChange
  return exposure

def updateExposure (exposure : HostPortExposure) : RegistryM τ HostPortExposure := do
  if exposure.id ∉ (← get).exposures.keys then throw (.unknownExposure exposure.id)
  modify fun registry => { registry with exposures := registry.exposures.set exposure.id exposure }
  emitChange
  return exposure

def removeExposure (exposureId : List Nat) : RegistryM τ (Option HostPortExposure) := do
  match (← get).exposures.get? exposureId with
  | none => return none
  | some exposure =>
    modify fun registry => { registry with exposures := registry.exposures.delete exposureId }
    emitChange
    return some exposure

/-! ## Host access bindings -/

def addHostAccessBinding (binding : HostAccessBinding) : RegistryM τ HostAccessBinding := do
  let registry ← get
  if binding.networkId ∉ registry.networks.keys then throw (.unknownNetwork binding.networkId)
  let conflictingBinding := registry.hostAccessBindings.values.find? fun item =>
    item.id ≠ binding.id && item.networkId = binding.networkId && item.protocol = binding.protocol &&
      item.logicalPort = binding.logicalPort
  if conflictingBinding.isSome then throw (.bindingExists binding.logicalPort)
  modify fun registry => { registry with hostAccessBindings := registry.hostAccessBindings.set binding.id binding }
  emitChange
  return binding

def removeHostAccessBinding (bindingId : List Nat) : RegistryM τ (Option HostAccessBinding) := do
  match (← get).hostAccessBindings.get? bindingId with
  | none => return none
  | some binding =>
    modify fun registry => { registry with hostAccessBindings := registry.hostAccessBindings.delete bindingId }
    emitChange
    return some binding

/-! ## Compose attachments -/

/-- The first port whose protocol and number stand before it in the list. -/
def duplicatePort? : List ComposePublishedPort → List ComposePublishedPort → Option ComposePublishedPort
  | _, [] => none
  | seen, port :: ports =>
    if seen.any fun other => other.protocol = port.protocol && other.logicalPort = port.logicalPort then some port
    else duplicatePort? (port :: seen) ports

/-- The port of the attachment that an existing attachment of its network has. -/
def portConflict? (existing : List ComposeAttachment) (attachment : ComposeAttachment) :
    Option ComposePublishedPort :=
  existing.findSome? fun other =>
    if other.id = attachment.id ∨ other.networkId ≠ attachment.networkId then none
    else other.ports.findSome? fun existingPort => attachment.ports.find? fun port =>
      port.protocol = existingPort.protocol && port.logicalPort = existingPort.logicalPort

variable (attachment : ComposeAttachment)

def ensureNoComposePortConflict : RegistryM τ Unit := do
  match duplicatePort? [] attachment.ports with
  | some port => throw (.duplicatePort port.logicalPort)
  | none =>
    match portConflict? (← get).composeAttachments.values attachment with
    | some port => throw (.routeExists port.logicalPort)
    | none => return

/-- The owner key of the attachment that an attachment of another network has. -/
def ownerConflict? (existing : List ComposeAttachment) (attachment : ComposeAttachment) : Option (List Nat) :=
  existing.findSome? fun other =>
    if other.id = attachment.id ∨ other.networkId = attachment.networkId then none
    else (composeRuntimeOwnerKeys other).find? fun ownerKey => ownerKey ∈ composeRuntimeOwnerKeys attachment

def ensureNoComposeRuntimeOwnerConflict : RegistryM τ Unit := do
  match ownerConflict? (← get).composeAttachments.values attachment with
  | some ownerKey => throw (.ownerElsewhere ownerKey)
  | none => return

def addComposeAttachment : RegistryM τ ComposeAttachment := do
  let registry ← get
  if attachment.networkId ∉ registry.networks.keys then throw (.unknownNetwork attachment.networkId)
  if attachment.id ∈ registry.composeAttachments.keys then throw (.composeExists attachment.id)
  ensureNoComposePortConflict attachment
  ensureNoComposeRuntimeOwnerConflict attachment
  modify fun registry =>
    { registry with composeAttachments := registry.composeAttachments.set attachment.id attachment }
  emitChange
  return attachment

/-- `updateComposeAttachment`; rows with the same JSON text are equal. -/
def updateComposeAttachment : RegistryM τ ComposeAttachment := do
  match (← get).composeAttachments.get? attachment.id with
  | none => throw (.unknownCompose attachment.id)
  | some currentAttachment =>
    ensureNoComposePortConflict attachment
    ensureNoComposeRuntimeOwnerConflict attachment
    if currentAttachment = attachment then return currentAttachment
    modify fun registry =>
      { registry with composeAttachments := registry.composeAttachments.set attachment.id attachment }
    emitChange
    return attachment

def removeComposeAttachment (attachmentId : List Nat) : RegistryM τ (Option ComposeAttachment) := do
  match (← get).composeAttachments.get? attachmentId with
  | none => return none
  | some attachment =>
    modify fun registry => { registry with composeAttachments := registry.composeAttachments.delete attachmentId }
    emitChange
    return some attachment

end LogicalNetworkRegistry

/-! ## Operations -/

/-- An operation that adds, updates or removes a row. -/
inductive RowOperation where
  | addNetwork (network : LogicalNetwork)
  | removeNetwork (networkId : List Nat)
  | addAttachment (attachment : TerminalAttachment)
  | removeAttachment (attachmentId : List Nat)
  | addExposure (exposure : HostPortExposure)
  | updateExposure (exposure : HostPortExposure)
  | removeExposure (exposureId : List Nat)
  | addHostAccessBinding (binding : HostAccessBinding)
  | removeHostAccessBinding (bindingId : List Nat)
  | addComposeAttachment (attachment : ComposeAttachment)
  | updateComposeAttachment (attachment : ComposeAttachment)
  | removeComposeAttachment (attachmentId : List Nat)

inductive RegistryOperation (τ : Type) where
  | row (operation : RowOperation)
  | replacePersistedState (state : LogicalNetworkRegistryState)
  | setTransient (transient : τ)
  | getSnapshot (updatedAt : Int)

namespace LogicalNetworkRegistry

variable {τ : Type} [DecidableEq τ]

def performRow : RowOperation → RegistryM τ Unit
  | .addNetwork network => discard (addNetwork network)
  | .removeNetwork networkId => discard (removeNetwork networkId)
  | .addAttachment attachment => discard (addAttachment attachment)
  | .removeAttachment attachmentId => discard (removeAttachment attachmentId)
  | .addExposure exposure => discard (addExposure exposure)
  | .updateExposure exposure => discard (updateExposure exposure)
  | .removeExposure exposureId => discard (removeExposure exposureId)
  | .addHostAccessBinding binding => discard (addHostAccessBinding binding)
  | .removeHostAccessBinding bindingId => discard (removeHostAccessBinding bindingId)
  | .addComposeAttachment attachment => discard (addComposeAttachment attachment)
  | .updateComposeAttachment attachment => discard (updateComposeAttachment attachment)
  | .removeComposeAttachment attachmentId => discard (removeComposeAttachment attachmentId)

def perform (dateParse : List Nat → Option Int) : RegistryOperation τ → RegistryM τ Unit
  | .row operation => performRow operation
  | .replacePersistedState state => replacePersistedState dateParse state
  | .setTransient transient => setTransient transient
  | .getSnapshot updatedAt => discard (getSnapshot updatedAt)

def after {α : Type} (method : RegistryM τ α) (registry : LogicalNetworkRegistry τ) : LogicalNetworkRegistry τ :=
  (Method.call method registry).2

def rejects {α : Type} (method : RegistryM τ α) (registry : LogicalNetworkRegistry τ) : Bool :=
  match (Method.call method registry).1 with
  | .error _ => true
  | .ok _ => false

def step (dateParse : List Nat → Option Int) (registry : LogicalNetworkRegistry τ) (operation : RegistryOperation τ) :
    LogicalNetworkRegistry τ := after (perform dateParse operation) registry

end LogicalNetworkRegistry

end PortManager.Networks
