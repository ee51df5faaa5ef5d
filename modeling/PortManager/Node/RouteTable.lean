import PortManager.Base.InsertionMap
import PortManager.Node.RoutePaths

/-!
# Route files of the Node daemon

Embeds the publication of a route list by the Node daemon (`src/agent/port-manager-agent.ts`): one file with
its signature, freshness and generation guard (`writeRouteTableFile`), the endpoint entries and compose
claims with their cleanup (`writeRouteEntryFiles`, `writeComposeClaimFiles`), and a whole pass
(`writeRouteTable`).

A file is modelled by the members its readers use; a file that cannot be parsed has none of them. What the
system answers to a file operation (the time, which processes live, whether the calls succeed) is an
argument. A pass writes each path at most once for each kind of file and removes it at most once, so the
answers are given by kind and path.
-/

namespace PortManager.Node
open PosixPath JsonText

/-! ## Routes -/

inductive ProcessStatus where
  | starting | running | stopped | error
deriving DecidableEq

inductive ProcessSource where
  | managed | registered | hooked | compose | detected | allocated
deriving DecidableEq

inductive RouteDirection where
  | listen | send
deriving DecidableEq

/-- `LogicalPortRoute`; a member that is `undefined` is `none`. -/
structure LogicalPortRoute where
  logicalPort : Nat
  actualPort : Nat
  routeDirection : Option RouteDirection
  host : List Nat
  cwd : Option (List Nat)
  networkId : Option (List Nat)
  terminalSessionId : Option (List Nat)
  processGroupId : Option Int
  processId : Option (List Nat)
  processName : Option (List Nat)
  status : ProcessStatus
  source : ProcessSource
deriving DecidableEq

def normalizeRouteDirection (direction : Option RouteDirection) : RouteDirection :=
  if direction = some .send then .send else .listen

def normalizeNetworkId (networkId : Option (List Nat)) : Option (List Nat) :=
  (networkId.map trim).filter fun id => id ≠ []

def buildLogicalEndpointIdentity (networkId : Option (List Nat)) (logicalPort : Nat) : List Nat :=
  networkId.getD [] ++ 58 :: decimal logicalPort

/-- A row of `buildRouteSignatureRows`. -/
structure SignatureRow where
  logicalPort : Nat
  actualPort : Nat
  routeDirection : RouteDirection
  host : List Nat
  cwd : List Nat
  networkId : List Nat
  processId : List Nat
  status : ProcessStatus
  source : ProcessSource
deriving DecidableEq

def signatureRow (route : LogicalPortRoute) : SignatureRow where
  logicalPort := route.logicalPort
  actualPort := route.actualPort
  routeDirection := normalizeRouteDirection route.routeDirection
  host := route.host
  cwd := route.cwd.getD []
  networkId := route.networkId.getD []
  processId := route.processId.getD []
  status := route.status
  source := route.source

/-- The sort by `localeCompare` of the serialized rows. It only depends on the rows and only moves them. -/
structure RowSort where
  sort : List SignatureRow → List SignatureRow
  perm : ∀ rows, (sort rows).Perm rows

/-- `buildRouteTableSignature`; the text of the sorted rows stands for them. -/
def buildRouteTableSignature (rowSort : RowSort) (routes : List LogicalPortRoute) : List SignatureRow :=
  rowSort.sort (routes.map signatureRow)

/-! ## Time to live -/

/-- A value of `normalizeRouteTableTtlMs`. -/
structure RouteTtlMs where
  ms : Int
  min_le : 5000 ≤ ms
  le_max : ms ≤ 3600000

/-- `normalizeRouteTableTtlMs`; `none` is `undefined` or not finite, and a finite number is a rational. -/
def normalizeRouteTableTtlMs (value : Option ℚ) (fallback : ℚ) : RouteTtlMs where
  ms := min 3600000 (max 5000 ((value.getD fallback) + 1 / 2).floor)
  min_le := le_min (by decide) (le_max_left ..)
  le_max := min_le_left ..

variable (ttl : RouteTtlMs)

/-- `routeTableRefreshMarginMs`; normalizing the TTL again does not change it. -/
def routeTableRefreshMarginMs : Int := min 10000 (max 1000 (ttl.ms / 2))

def routeTableHeartbeatIntervalMs : Int :=
  max 1000 (max 1000 (ttl.ms - routeTableRefreshMarginMs ttl) / 2)

def PRE_HANDSHAKE_ROUTE_TABLE_LEASE_MS : Int := 300000

structure RouteTableTtlMetadata where
  expiresAtMs : Int
  waitsForFirstHandshake : Bool

/-- `routeTableTtlMetadata`; `observed` are the keys of `bidirectionalRouteObservedAtMsByEndpoint`. -/
def routeTableTtlMetadata (observed : List (List Nat)) (routes : List LogicalPortRoute)
    (writtenAtMs : Int) : RouteTableTtlMetadata :=
  let isObserved := fun route : LogicalPortRoute =>
    decide (buildLogicalEndpointIdentity route.networkId route.logicalPort ∈ observed)
  let lease := fun route => if isObserved route then ttl.ms else PRE_HANDSHAKE_ROUTE_TABLE_LEASE_MS
  ⟨writtenAtMs + (routes.map lease).min?.getD ttl.ms, routes.any fun route => !isObserved route⟩

/-! ## Generations -/

structure RouteTableGeneration where
  writerId : List Nat
  writerStartedAtMs : Int
  sequence : Int
  pid : Int
deriving DecidableEq

/-- A route file as its readers see it. -/
structure RouteTableFile where
  expiresAtMs : Option Int
  ttlStartsAfterFirstHandshake : Bool
  generation : Option RouteTableGeneration
  routes : List LogicalPortRoute
deriving DecidableEq

structure FileAnswer where
  nowMs : Int
  /-- `process.kill(pid, 0)` finds the process -/
  alive : Int → Bool
  /-- the directory, write, rename and delete calls succeed -/
  ok : Bool

def isRouteTableGenerationNewer (current candidate : RouteTableGeneration) : Bool :=
  if current.writerStartedAtMs ≠ candidate.writerStartedAtMs then
    candidate.writerStartedAtMs < current.writerStartedAtMs
  else if current.writerId ≠ candidate.writerId then candidate.writerId < current.writerId
  else candidate.sequence < current.sequence

/-- `routeTableGenerationOwnerIsAlive` in the process of the candidate generation. -/
def routeTableGenerationOwnerIsAlive (processPid : Int) (answer : FileAnswer) (pid : Int) : Bool :=
  0 < pid && (pid = processPid || answer.alive pid)

/-- `isRouteTablePathNewerThanGeneration` on the file at a path. -/
def isRouteTablePathNewerThanGeneration (file : Option RouteTableFile) (generation : RouteTableGeneration)
    (answer : FileAnswer) : Bool :=
  (file.bind (·.generation)).any fun current =>
    isRouteTableGenerationNewer current generation &&
      routeTableGenerationOwnerIsAlive generation.pid answer current.pid

/-! ## One file -/

inductive RouteFileKind where
  | entry | claim | network
deriving DecidableEq

/-- What a pass does not change: the writer's settings, its generation, the observed endpoints, and the
answers of the system. -/
structure RoutePass where
  rowSort : RowSort
  ttl : RouteTtlMs
  observed : List (List Nat)
  generation : RouteTableGeneration
  onWrite : RouteFileKind → List Nat → FileAnswer
  onRemove : RouteFileKind → List Nat → FileAnswer

/-- The files and the daemon's `routeTableSignaturesByPath`. `authored` has the kind of the file that the
daemon last wrote at a path; no function of the source reads it. -/
structure FileState where
  disk : List Nat → Option RouteTableFile
  signatures : List Nat → Option (List SignatureRow)
  authored : List Nat → Option RouteFileKind

/-- The document of `writeRouteTableFile`. -/
def RoutePass.document (pass : RoutePass) (routes : List LogicalPortRoute) (nowMs : Int) : RouteTableFile where
  expiresAtMs := some (routeTableTtlMetadata pass.ttl pass.observed routes nowMs).expiresAtMs
  ttlStartsAfterFirstHandshake :=
    (routeTableTtlMetadata pass.ttl pass.observed routes nowMs).waitsForFirstHandshake
  generation := some pass.generation
  routes := routes

/-- `routeTableFileNeedsRefresh` on the file at the path. -/
def routeTableFileNeedsRefresh (file : RouteTableFile) (nowMs : Int) (next : RouteTableTtlMetadata) : Bool :=
  match file.expiresAtMs with
  | none => true
  | some expiresAtMs =>
    file.ttlStartsAfterFirstHandshake ≠ next.waitsForFirstHandshake ||
      expiresAtMs - nowMs ≤ routeTableRefreshMarginMs ttl

/-- The `try` block of `writeRouteTableFile`. -/
def RoutePass.replaceFile (pass : RoutePass) (st : FileState) (kind : RouteFileKind) (path : List Nat)
    (routes : List LogicalPortRoute) : Bool × FileState :=
  let answer := pass.onWrite kind path
  if isRouteTablePathNewerThanGeneration (st.disk path) pass.generation answer ∨ answer.ok = false then
    (false, st)
  else
    (true,
      { disk := Function.update st.disk path (some (pass.document routes answer.nowMs))
        signatures := Function.update st.signatures path (some (buildRouteTableSignature pass.rowSort routes))
        authored := Function.update st.authored path (some kind) })

def RoutePass.writeRouteTableFile (pass : RoutePass) (st : FileState) (kind : RouteFileKind) (path : List Nat)
    (routes : List LogicalPortRoute) : Bool × FileState :=
  let answer := pass.onWrite kind path
  match st.disk path with
  | none => pass.replaceFile st kind path routes
  | some file =>
    if st.signatures path = some (buildRouteTableSignature pass.rowSort routes) then
      if isRouteTablePathNewerThanGeneration (some file) pass.generation answer then (false, st)
      else if ¬ routeTableFileNeedsRefresh pass.ttl file answer.nowMs
          (routeTableTtlMetadata pass.ttl pass.observed routes answer.nowMs) then (true, st)
      -- canRefreshUnchangedRouteTable
      else if routes = [] then (true, st)
      else pass.replaceFile st kind path routes
    else pass.replaceFile st kind path routes

/-- The cleanup of one path: whether the file is gone. -/
def RoutePass.removeFile (pass : RoutePass) (st : FileState) (kind : RouteFileKind) (path : List Nat) :
    Bool × FileState :=
  let answer := pass.onRemove kind path
  if isRouteTablePathNewerThanGeneration (st.disk path) pass.generation answer ∨ answer.ok = false then
    (false, st)
  else
    (true,
      { st with
        disk := Function.update st.disk path none
        signatures := Function.update st.signatures path none })

/-! ## Entries and claims -/

/-- The write loop: whether all writes succeeded, the paths that did, and the files. -/
def RoutePass.writeGroups (pass : RoutePass) (kind : RouteFileKind) :
    List (List Nat × List LogicalPortRoute) → FileState → Bool × List (List Nat) × FileState
  | [], st => (true, [], st)
  | (path, routes) :: groups, st =>
    let (written, st) := pass.writeRouteTableFile st kind path routes
    let (ok, current, st) := pass.writeGroups kind groups st
    (written && ok, if written then path :: current else current, st)

/-- The cleanup loop. -/
def RoutePass.removeStale (pass : RoutePass) (kind : RouteFileKind) (current : List (List Nat)) :
    List (List Nat) → FileState → Bool × FileState
  | [], st => (true, st)
  | path :: tracked, st =>
    if path ∈ current then pass.removeStale kind current tracked st
    else
      let (removed, st) := pass.removeFile st kind path
      let (ok, st) := pass.removeStale kind current tracked st
      (removed && ok, st)

/-- The body that `writeRouteEntryFiles` and `writeComposeClaimFiles` share: write the groups, then remove
the tracked paths that were not written. The paths that were written are tracked next. -/
def RoutePass.writeTrackedFiles (pass : RoutePass) (kind : RouteFileKind)
    (groups : List (List Nat × List LogicalPortRoute)) (tracked : List (List Nat)) (st : FileState) :
    Bool × List (List Nat) × FileState :=
  let (written, current, st) := pass.writeGroups kind groups st
  let (removed, st) := pass.removeStale kind current tracked st
  (written && removed, current, st)

/-- The groups of `writeRouteEntryFiles`. -/
def entryGroups (base : List Nat) (routes : List LogicalPortRoute) : List (List Nat × List LogicalPortRoute) :=
  (InsertionMap.group (routes.map fun route =>
    (getRouteTablePathForLogicalPort route.logicalPort (normalizeNetworkId route.networkId) base, route))).entries

/-- The claims of one route, for the set of its two ports. -/
def claimItems (base : List Nat) (route : LogicalPortRoute) : List (List Nat × LogicalPortRoute) :=
  if route.source ≠ .compose then []
  else [route.logicalPort, route.actualPort].eraseDups.map fun port =>
    (getRouteTablePathForComposeClaimPort port base, route)

/-- The groups of `writeComposeClaimFiles`. -/
def claimGroups (base : List Nat) (routes : List LogicalPortRoute) : List (List Nat × List LogicalPortRoute) :=
  (InsertionMap.group (routes.flatMap (claimItems base))).entries

def networkGroups (routes : List LogicalPortRoute) : InsertionMap (List Nat) (List LogicalPortRoute) :=
  InsertionMap.group (routes.filterMap fun route => (normalizeNetworkId route.networkId).map fun id => (id, route))

/-! ## A pass -/

structure RouteFileDaemon where
  base : List Nat
  rowSort : RowSort
  ttl : RouteTtlMs
  writerId : List Nat
  writerStartedAtMs : Int
  agentPid : Int
  sequence : Nat
  writtenNetworkIds : List (List Nat)
  writtenEntryPaths : List (List Nat)
  writtenClaimPaths : List (List Nat)
  files : FileState

variable (daemon : RouteFileDaemon)

def RouteFileDaemon.writeRouteEntryFiles (pass : RoutePass)
    (routes : List LogicalPortRoute) : Bool × RouteFileDaemon :=
  let (ok, current, files) :=
    pass.writeTrackedFiles .entry (entryGroups daemon.base routes) daemon.writtenEntryPaths daemon.files
  (ok, { daemon with files := files, writtenEntryPaths := current })

def RouteFileDaemon.writeComposeClaimFiles (pass : RoutePass)
    (routes : List LogicalPortRoute) : Bool × RouteFileDaemon :=
  let (ok, current, files) :=
    pass.writeTrackedFiles .claim (claimGroups daemon.base routes) daemon.writtenClaimPaths daemon.files
  (ok, { daemon with files := files, writtenClaimPaths := current })

def RouteFileDaemon.writeNetworks (pass : RoutePass) (groups : InsertionMap (List Nat) (List LogicalPortRoute)) :
    List (List Nat) → RouteFileDaemon → Bool × RouteFileDaemon
  | [], daemon => (true, daemon)
  | networkId :: ids, daemon =>
    let (written, files) := pass.writeRouteTableFile daemon.files .network
      (getNetworkRouteTablePath networkId daemon.base) ((groups.get? networkId).getD [])
    let tracked :=
      if written = false then daemon.writtenNetworkIds
      else if networkId ∈ groups.keys then
        if networkId ∈ daemon.writtenNetworkIds then daemon.writtenNetworkIds
        else daemon.writtenNetworkIds ++ [networkId]
      else daemon.writtenNetworkIds.filter (· ≠ networkId)
    let (ok, daemon) := RouteFileDaemon.writeNetworks pass groups ids
      { daemon with files := files, writtenNetworkIds := tracked }
    (written && ok, daemon)

structure RoutePublication where
  routes : List LogicalPortRoute
  observed : List (List Nat)
  onWrite : RouteFileKind → List Nat → FileAnswer
  onRemove : RouteFileKind → List Nat → FileAnswer
  /-- the answers while `canPublishRouteTableGeneration` reads the owner paths -/
  onCheck : FileAnswer

variable (publication : RoutePublication)

/-- The pass of a publication, with `createNextRouteTableGeneration`. -/
def RouteFileDaemon.pass : RoutePass where
  rowSort := daemon.rowSort
  ttl := daemon.ttl
  observed := publication.observed
  generation := ⟨daemon.writerId, daemon.writerStartedAtMs, daemon.sequence + 1, daemon.agentPid⟩
  onWrite := publication.onWrite
  onRemove := publication.onRemove

/-- `canPublishRouteTableGeneration` -/
def RouteFileDaemon.canPublish : Bool :=
  let networkIds := daemon.writtenNetworkIds ++ (networkGroups publication.routes).keys
  let unscoped := publication.routes.any fun route => (normalizeNetworkId route.networkId).isNone
  let ownerPaths := networkIds.map (fun id => getNetworkRouteTablePath id daemon.base) ++
    if unscoped then [daemon.base] else []
  !ownerPaths.any fun path => isRouteTablePathNewerThanGeneration (daemon.files.disk path)
    (daemon.pass publication).generation publication.onCheck

/-- `writeRouteTable`: whether it returned `true`, with `writeRouteTableGeneration`. A refused pass throws
and only uses up a sequence number. -/
def RouteFileDaemon.writeRouteTable : Bool × RouteFileDaemon :=
  let pass := daemon.pass publication
  let counted := { daemon with sequence := daemon.sequence + 1 }
  if daemon.canPublish publication = false then (false, counted)
  else
    let groups := networkGroups publication.routes
    let (entries, counted) := counted.writeRouteEntryFiles pass publication.routes
    let (claims, counted) := counted.writeComposeClaimFiles pass publication.routes
    let ids := counted.writtenNetworkIds ++ groups.keys.filter (· ∉ counted.writtenNetworkIds)
    let (networks, counted) := RouteFileDaemon.writeNetworks pass groups ids counted
    (entries && claims && networks, counted)

end PortManager.Node
