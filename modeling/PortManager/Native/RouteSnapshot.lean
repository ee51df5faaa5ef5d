import PortManager.Base.Search
import PortManager.Native.RoutePaths
import PortManager.Native.State

/-!
# Route snapshots on disk

Embeds the publication of a route list by the native daemon (`native/agent/portmanager_agent_state.c`):
the metadata of a route file, the generation guard, the write that an unchanged signature skips
(`pm_write_route_table_file_if_changed`), and a whole pass over network tables, endpoint entries and
compose claims with its cleanup (`pm_write_route_snapshot`).

A file is modelled by what its readers take from it, and the `routes` array by the members of its
objects, so two arrays are equal exactly when their texts are. What the system answers to each file
operation of a pass (the time, which processes live, whether the calls succeed and the job is not
canceled) is an argument, one answer for each operation. Memory allocation succeeds.
-/

namespace PortManager.Native
open CText

/-! ## Documents -/

/-- The object C `pm_append_route_json` writes; an omitted member is `none`. -/
structure RouteJson where
  logicalPort : Int
  actualPort : Int
  routeDirection : Direction
  host : Text
  cwd : Option Text
  networkId : Option Text
  terminalSessionId : Option Text
  processGroupId : Option Int
  processId : Option Text
  processName : Option Text
  status : Status
  source : Source
deriving DecidableEq

/-- A text member that is left out when it is empty. -/
def textMember (t : Text) : Option Text := if t = [] then none else some t

/-- C `pm_append_route_json`. -/
def routeJson (route : Route) : RouteJson where
  logicalPort := route.logicalPort
  actualPort := route.actualPort
  routeDirection := route.routeDirection
  host := route.host
  cwd := textMember route.cwd
  networkId := textMember route.networkId
  terminalSessionId := textMember route.terminalSessionId
  processGroupId := if 0 < route.processGroupId then some route.processGroupId else none
  processId := textMember route.processId
  processName := textMember route.processName
  status := route.status
  source := route.source

/-- C `pm_append_routes_json`, which is also the signature of a file. -/
def routesJson (routes : List Route) : List RouteJson := routes.map routeJson

/-- The member `generation`, with the defaults C `pm_json_get_long` reads for missing members. -/
structure RouteGeneration where
  writerId : Text
  writerStartedAtMs : Int
  sequence : Int
  pid : Int
deriving DecidableEq

/-- A route file as its readers see it. -/
structure RouteFile where
  expiresAtMs : Int
  ttlStartsAfterFirstHandshake : Bool
  generation : RouteGeneration
  routes : List RouteJson
deriving DecidableEq

abbrev Disk := Text → Option RouteFile

/-! ## Generations -/

structure RouteWriter where
  routeTablePath : Text
  writerId : Text
  writerStartedMs : Int
  agentPid : Int
deriving DecidableEq

def readRouteTableGeneration (file : RouteFile) : Option RouteGeneration :=
  if file.generation.writerId = [] ∨ PM_ID ≤ file.generation.writerId.length ∨
      file.generation.writerStartedAtMs ≤ 0 ∨ file.generation.pid ≤ 0 then none
  else some file.generation

/-- C `pm_route_table_generation_is_newer` on the file at a path; `alive` is
C `pm_route_table_generation_owner_alive`. -/
def routeTableGenerationIsNewer (alive : Int → Bool) (writer : RouteWriter) (file : Option RouteFile)
    (candidateSequence : Nat) : Bool :=
  match file.bind readRouteTableGeneration with
  | none => false
  | some current =>
    if current.writerStartedAtMs ≠ writer.writerStartedMs then
      writer.writerStartedMs < current.writerStartedAtMs && alive current.pid
    else
      match strcmp current.writerId writer.writerId with
      | .gt => alive current.pid
      | .lt => false
      | .eq => candidateSequence < current.sequence

/-! ## Expiry -/

/-- C `pm_route_table_ttl_seconds` returns a value in this range. -/
structure RouteTtl where
  seconds : Int
  five_le : 5 ≤ seconds
  le_hour : seconds ≤ 3600

/-- `strtol` reads the whole value. -/
def isNumeral (value : Text) : Bool :=
  let t := value.dropWhile isspace
  let t := if t.head? = some 45 ∨ t.head? = some 43 then t.tail else t
  t ≠ [] ∧ t.all isdigit

/-- C `pm_route_table_ttl_seconds` on the value of its environment variable. -/
def routeTableTtlSeconds (value : Option Text) : RouteTtl :=
  match value.filter (fun value => isNumeral value) with
  | none => ⟨15, by decide, by decide⟩
  | some value =>
    ⟨min 3600 (max 5 ((strtol value).getD 0)), le_min (by decide) (le_max_left ..), min_le_left ..⟩

variable (ttl : RouteTtl)

/-- C `pm_route_table_refresh_margin_seconds`. -/
def RouteTtl.margin : Int := min 10 (max 1 (ttl.seconds / 2))

variable (refreshes : List BidirectionalRefresh)

def routeHasBidirectionalObservation (route : Route) : Bool :=
  (refreshes[bidirectionalRefreshLowerBound refreshes route.logicalPort route.networkId]?).any fun item =>
    compareBidirectionalEndpointIdentity item.logicalPort item.networkId route.logicalPort
      route.networkId = .eq

/-- The flag `waits_for_first_handshake` of C `pm_route_table_expires_at_ms`. -/
def waitsForFirstHandshake (routes : List Route) : Bool :=
  routes.any fun route => !routeHasBidirectionalObservation refreshes route

/-- The lease of one route in C `pm_route_table_expires_at_ms`. -/
def routeLeaseSeconds (route : Route) : Int :=
  if routeHasBidirectionalObservation refreshes route then ttl.seconds else PM_ROUTE_TTL_SECONDS

/-- C `pm_route_table_expires_at_ms`: the first lease to end. -/
def routeTableExpiresAtMs (routes : List Route) (updatedAtMs : Int) : Int :=
  updatedAtMs + 1000 * ((routes.map (routeLeaseSeconds ttl refreshes)).min?.getD ttl.seconds)

def routeTableFileFreshForReuse (file : RouteFile) (waits : Bool) (nowMs : Int) : Bool :=
  file.ttlStartsAfterFirstHandshake = waits ∧ 0 < file.expiresAtMs ∧
    ttl.margin * 1000 < file.expiresAtMs - nowMs

/-! ## One file -/

/-- What the system answers while one file is written or unlinked. -/
structure FileAttempt where
  nowMs : Int
  alive : Int → Bool
  /-- no system call fails and the job is not canceled -/
  ok : Bool

/-- What a pass does not change. -/
structure SnapshotPass where
  writer : RouteWriter
  ttl : RouteTtl
  refreshes : List BidirectionalRefresh
  sequence : Nat
  attempt : Nat → FileAttempt

/-- What the file operations of a pass change; `operations` counts them. -/
structure PassState where
  disk : Disk
  signatures : Text → Option (List RouteJson)
  operations : Nat

/-- The document C `pm_write_route_table_file` writes. -/
def SnapshotPass.document (pass : SnapshotPass) (routes : List Route) (nowMs : Int) : RouteFile where
  expiresAtMs := routeTableExpiresAtMs pass.ttl pass.refreshes routes nowMs
  ttlStartsAfterFirstHandshake := waitsForFirstHandshake pass.refreshes routes
  generation := ⟨pass.writer.writerId, pass.writer.writerStartedMs, pass.sequence, pass.writer.agentPid⟩
  routes := routesJson routes

def SnapshotPass.next (pass : SnapshotPass) (st : PassState) : FileAttempt := pass.attempt st.operations

def SnapshotPass.newer (pass : SnapshotPass) (st : PassState) (path : Text) : Bool :=
  routeTableGenerationIsNewer (pass.next st).alive pass.writer (st.disk path) pass.sequence

def PassState.counted (st : PassState) : PassState := { st with operations := st.operations + 1 }

/-- C `pm_write_route_table_file`, and the signature its caller remembers afterwards. The guard of the
commit sees what the first test has seen. -/
def SnapshotPass.writeFile (pass : SnapshotPass) (st : PassState) (path : Text) (routes : List Route) :
    Bool × PassState :=
  if pass.newer st path ∨ (pass.next st).ok = false then (false, st.counted)
  else
    (true, { st.counted with
      disk := Function.update st.disk path (some (pass.document routes (pass.next st).nowMs))
      signatures := Function.update st.signatures path (some (routesJson routes)) })

/-- C `pm_write_route_table_file_if_changed`. -/
def SnapshotPass.writeFileIfChanged (pass : SnapshotPass) (st : PassState) (path : Text)
    (routes : List Route) : Bool × PassState :=
  match st.disk path with
  | none => pass.writeFile st path routes
  | some file =>
    if st.signatures path = some (routesJson routes) then
      if pass.newer st path then (false, st.counted)
      else if routeTableFileFreshForReuse pass.ttl file (waitsForFirstHandshake pass.refreshes routes)
          (pass.next st).nowMs then (true, st.counted)
      -- C pm_routes_can_refresh_unchanged_table
      else if routes = [] then (true, st.counted)
      else pass.writeFile st path routes
    else pass.writeFile st path routes

/-- The cleanup of one path: C `pm_unlink_route_table_file_if_not_newer` and
C `pm_forget_route_table_signature`. A missing file counts as removed. -/
def SnapshotPass.unlink (pass : SnapshotPass) (st : PassState) (path : Text) : Bool × PassState :=
  if pass.newer st path ∨ (pass.next st).ok = false then (false, st.counted)
  else
    (true, { st.counted with
      disk := Function.update st.disk path none
      signatures := Function.update st.signatures path none })

/-- A loop over file operations: whether all succeeded, and the state. -/
def runOperations {α : Type} (operation : PassState → α → Bool × PassState) (st : PassState)
    (items : List α) : Bool × PassState :=
  items.foldl (fun (result, st) item => ((operation st item).1 && result, (operation st item).2)) (true, st)

/-! ## Sorting -/

/-- The C library's `qsort`: it sorts, and leaves the order of equal elements open. -/
structure Qsort where
  sort : {α : Type} → (α → α → Ordering) → List α → List α
  perm : ∀ {α : Type} (cmp : α → α → Ordering) (items : List α), (sort cmp items).Perm items
  sorted : ∀ {α : Type} (cmp : α → α → Ordering) (items : List α),
    (∀ a b, cmp a b = .gt → cmp b a ≠ .gt) →
    (∀ a b c, cmp a b ≠ .gt → cmp b c ≠ .gt → cmp a c ≠ .gt) →
    (sort cmp items).Pairwise fun a b => cmp a b ≠ .gt

def stringArrayBinaryContains (items : List Text) (value : Text) : Bool :=
  items[Search.lowerBound (fun index => (items[index]?).any fun item => strcmp item value = .lt)
    items.length]? = some value

def stringArrayAdd (items : List Text) (value : Text) : List Text :=
  if value ∈ items then items else items ++ [value]

/-! ## The pass -/

/-- The order of C `pm_compare_network_route_identity`. -/
def compareNetworkRouteIdentity (a b : Route × Nat) : Ordering :=
  (compare a.1.logicalPort b.1.logicalPort).then
    ((strcmp a.1.routeDirection.text b.1.routeDirection.text).then (compare a.2 b.2))

/-- The test that two neighbours share port and direction. -/
def sameNetworkRouteIdentity (a b : Route × Nat) : Bool :=
  a.1.logicalPort = b.1.logicalPort ∧ a.1.routeDirection = b.1.routeDirection

variable (qsort : Qsort)

/-- C `pm_build_network_route_snapshot`: of the network's routes with one port and direction the last. -/
def buildNetworkRouteSnapshot (routes : List Route) (network : Text) : List Route :=
  let positions := routes.zipIdx.filter fun item => item.1.networkId = network
  let runs := (qsort.sort compareNetworkRouteIdentity positions).splitBy sameNetworkRouteIdentity
  let selected := runs.filterMap List.getLast?
  (qsort.sort (fun a b => compare a.2 b.2) selected).map (·.1)

variable (base : Text)

/-- The claim items of one route: a compose route claims its logical and its actual port. -/
def claimItems (route : Route) : List (Text × Route) :=
  if route.source = .compose then
    (routeComposeClaimPath base route.logicalPort, route) ::
      (if route.actualPort ≠ route.logicalPort then [(routeComposeClaimPath base route.actualPort, route)]
       else [])
  else []

/-- The runs of items with one path, in the order `qsort` leaves them: the files to write. -/
def pathRuns (items : List (Text × Route)) : List (Text × List Route) :=
  ((qsort.sort (fun a b => strcmp a.1 b.1) items).splitBy fun a b => a.1 = b.1).filterMap fun run =>
    run.head?.map fun first => (first.1, run.map (·.2))

/-- The sorted set of the networks with a route. -/
def currentNetworks (routes : List Route) : List Text :=
  qsort.sort strcmp
    ((routes.filter fun route => route.networkId ≠ []).foldl (fun ids route => stringArrayAdd ids route.networkId) [])

def entryRuns (routes : List Route) : List (Text × List Route) :=
  pathRuns qsort (routes.map fun route => (routeEntryPath base route.logicalPort route.networkId, route))

def claimRuns (routes : List Route) : List (Text × List Route) :=
  pathRuns qsort (routes.flatMap (claimItems base))

structure RouteFiles where
  sequence : Nat
  writtenNetworkIds : List Text
  writtenEntryPaths : List Text
  writtenClaimPaths : List Text
  signatures : Text → Option (List RouteJson)
  refreshedAt : Int

variable (files : RouteFiles)

/-- The written networks that have no route any more. -/
def staleNetworks (routes : List Route) : List Text :=
  files.writtenNetworkIds.filter fun id => !stringArrayBinaryContains (currentNetworks qsort routes) id

/-- C `pm_route_table_generation_is_newer_for_publish`. -/
def generationIsNewerForPublish (pass : SnapshotPass) (st : PassState) (files : RouteFiles)
    (routes : List Route) : Bool :=
  (routes.any (fun route => route.networkId = []) && (st.disk pass.writer.routeTablePath).isSome &&
      pass.newer st pass.writer.routeTablePath) ||
    (currentNetworks qsort routes ++ staleNetworks qsort files routes).any fun id =>
      pass.newer st (scopedRouteTablePath pass.writer.routeTablePath id)

/-- The files a pass writes, in its order: network tables, emptied tables, entries and claims. -/
def snapshotWrites (routes : List Route) : List (Text × List Route) :=
  (currentNetworks qsort routes).map (fun id =>
      (scopedRouteTablePath base id, buildNetworkRouteSnapshot qsort routes id)) ++
    (staleNetworks qsort files routes).map (fun id => (scopedRouteTablePath base id, [])) ++
    entryRuns qsort base routes ++ claimRuns qsort base routes

def runPaths (runs : List (Text × List Route)) : List Text :=
  qsort.sort strcmp (runs.map (·.1))

/-- The paths a pass unlinks: written entries and claims that the snapshot does not have. -/
def snapshotUnlinks (routes : List Route) : List Text :=
  (files.writtenEntryPaths.filter fun path =>
      !stringArrayBinaryContains (runPaths qsort (entryRuns qsort base routes)) path) ++
    files.writtenClaimPaths.filter fun path =>
      !stringArrayBinaryContains (runPaths qsort (claimRuns qsort base routes)) path

/-- The bookkeeping after the file operations of a pass: a failed pass keeps both sets. -/
def RouteFiles.finished (routes : List Route)
    (ok : Bool) (signatures : Text → Option (List RouteJson)) (nowMs : Int) : RouteFiles :=
  let networks := currentNetworks qsort routes
  let entries := runPaths qsort (entryRuns qsort base routes)
  let claims := runPaths qsort (claimRuns qsort base routes)
  if ok then
    { files with
      writtenNetworkIds := networks
      writtenEntryPaths := entries
      writtenClaimPaths := claims
      signatures := signatures
      refreshedAt := nowMs / 1000 }
  else
    { files with
      writtenNetworkIds := networks.foldl stringArrayAdd files.writtenNetworkIds
      writtenEntryPaths := entries.foldl stringArrayAdd files.writtenEntryPaths
      writtenClaimPaths := claims.foldl stringArrayAdd files.writtenClaimPaths
      signatures := signatures }

structure SnapshotCall where
  writer : RouteWriter
  ttl : RouteTtl
  refreshes : List BidirectionalRefresh
  routes : List Route
  attempt : Nat → FileAttempt

variable (call : SnapshotCall)

def SnapshotCall.pass (files : RouteFiles) : SnapshotPass :=
  ⟨call.writer, call.ttl, call.refreshes, files.sequence + 1, call.attempt⟩

/-- The writes and unlinks of C `pm_write_route_snapshot`: whether all succeeded, and the state. -/
def SnapshotCall.operations (files : RouteFiles) (disk : Disk) : Bool × PassState :=
  let pass := call.pass files
  let base := call.writer.routeTablePath
  let written := runOperations (fun st item => pass.writeFileIfChanged st item.1 item.2)
    ⟨disk, files.signatures, 1⟩ (snapshotWrites qsort base files call.routes)
  let unlinked := runOperations pass.unlink written.2 (snapshotUnlinks qsort base files call.routes)
  (written.1 && unlinked.1, unlinked.2)

/-- C `pm_write_route_snapshot`: whether it returned 0, the bookkeeping and the files. -/
def writeRouteSnapshot (files : RouteFiles) (disk : Disk) : Bool × RouteFiles × Disk :=
  let base := call.writer.routeTablePath
  if generationIsNewerForPublish qsort (call.pass files) ⟨disk, files.signatures, 0⟩ files call.routes then
    (false, { files with sequence := files.sequence + 1 }, disk)
  else
    let (ok, st) := call.operations qsort files disk
    (ok, ({ files with sequence := files.sequence + 1 } : RouteFiles).finished qsort base call.routes ok
      st.signatures (call.attempt st.operations).nowMs, st.disk)

end PortManager.Native
