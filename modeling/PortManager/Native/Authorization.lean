import PortManager.Native.State

/-!
# Request authorization

Embeds `native/agent/portmanager_agent_authorization.h`. A request is admitted as the controller,
as a network credential or for anonymous readiness, or it is denied. A network credential is bound
to the process that first used it (`pm_auth_pin_scope`), and a process under a controller scope
inherits that scope from its nearest scoped ancestor (`pm_auth_controller_scope`).

The bounded array of pinned identities is `ScopeTable`: at most `PM_AUTH_MAX_PROCESS_SCOPES` rows
and never two rows of one pid. Both facts are fields, so a lookup by exact `(pid, birth)` has one
possible answer and the order of rows, which reclaiming changes, does not matter.
-/

namespace PortManager.Native
open CText List

def PM_AUTH_MAX_PROCESS_SCOPES : Nat := 8192

structure AuthenticatedScope where
  pid : Int
  birth : Nat
  networkId : Text
  /-- Set only by a controller before exec or by observed trusted ancestry. -/
  controllerScope : Bool
deriving DecidableEq

/-- The array `scopes` of C `pm_authorization` with its `count`. -/
structure ScopeTable where
  items : List AuthenticatedScope
  pids_nodup : (items.map (·.pid)).Nodup
  bounded : items.length ≤ PM_AUTH_MAX_PROCESS_SCOPES

structure Authorization where
  controllerPath : Text
  controllerToken : Text
  scopes : ScopeTable
  hasControllerScopes : Bool

/-- What C `pm_auth_request` returns: `-1`, `0`, `1`, `2`. -/
inductive Role where
  | denied | anonymous | network | controller
deriving DecidableEq, Repr

/-! ## The scope table -/

namespace ScopeTable

/-- The reclaim loop of C `pm_auth_pin_scope`: a dead row is overwritten by the last one. -/
def reclaimLoop (alive : AuthenticatedScope → Bool) :
    Nat → Nat → List AuthenticatedScope → List AuthenticatedScope
  | 0, _, items => items
  | fuel + 1, index, items =>
    match items[index]?, items.getLast? with
    | some scope, some last =>
      if alive scope then reclaimLoop alive fuel (index + 1) items
      else reclaimLoop alive fuel index (items.set index last).dropLast
    | _, _ => items

lemma set_last_dropLast {α : Type} (front rest : List α) (x last : α)
    (hlast : (front ++ x :: rest).getLast? = some last) :
    ∃ rest', ((front ++ x :: rest).set front.length last).dropLast = front ++ rest' ∧
      rest'.Perm rest := by
  rw [List.set_append_right _ _ (Nat.le_refl _), Nat.sub_self, set_cons_zero,
    dropLast_append_of_ne_nil (by simp)]
  refine ⟨_, rfl, ?_⟩
  rcases eq_nil_or_concat rest with rfl | ⟨init, z, rfl⟩
  · simp
  rw [concat_eq_append] at hlast ⊢
  rw [← cons_append, ← append_assoc, getLast?_concat, Option.some.injEq] at hlast
  rw [← cons_append, dropLast_concat, hlast]
  exact (perm_append_singleton last init).symm

variable (alive : AuthenticatedScope → Bool)

lemma reclaimLoop_perm :
    ∀ fuel front rest, rest.length ≤ fuel →
      (reclaimLoop alive fuel front.length (front ++ rest)).Perm (front ++ rest.filter alive) := by
  intro fuel
  induction fuel with
  | zero =>
    intro front rest hlen
    obtain rfl : rest = [] := length_eq_zero_iff.mp (by omega)
    simp [reclaimLoop]
  | succ fuel ih =>
    intro front rest hlen
    cases rest with
    | nil => simp [reclaimLoop]
    | cons x rest =>
      rw [length_cons] at hlen
      obtain ⟨last, hlast⟩ : ∃ last, (front ++ x :: rest).getLast? = some last :=
        ⟨_, getLast?_eq_some_getLast (by simp)⟩
      have hx : (front ++ x :: rest)[front.length]? = some x := by simp
      simp only [reclaimLoop, hx, hlast]
      split
      · next hlive =>
        have step := ih (front ++ [x]) rest (by omega)
        simpa [hlive] using step
      · next hdead =>
        obtain ⟨rest', e, hperm⟩ := set_last_dropLast front rest x last hlast
        have hrest : ((x :: rest).filter alive) = rest.filter alive := by simp [hdead]
        rw [e, hrest]
        exact (ih front rest' (by rw [hperm.length_eq]; omega)).trans
          ((hperm.filter alive).append_left front)

/-- The table after C `pm_auth_pin_scope` has dropped the rows that are not `alive`. -/
def reclaim (table : ScopeTable) : ScopeTable :=
  have perm : (reclaimLoop alive table.items.length 0 table.items).Perm
      (table.items.filter alive) := reclaimLoop_perm alive _ [] table.items (Nat.le_refl _)
  { items := reclaimLoop alive table.items.length 0 table.items
    pids_nodup := ((perm.map _).nodup_iff).mpr
      (table.pids_nodup.sublist (List.filter_sublist.map _))
    bounded := perm.length_eq ▸ Nat.le_trans (List.length_filter_le ..) table.bounded }

lemma mem_reclaim {alive : AuthenticatedScope → Bool} {table : ScopeTable} {scope : AuthenticatedScope} :
    scope ∈ (table.reclaim alive).items ↔ scope ∈ table.items ∧ alive scope := by
  have perm := reclaimLoop_perm alive _ [] table.items (le_refl _)
  exact perm.mem_iff.trans mem_filter

def mapRows (f : AuthenticatedScope → AuthenticatedScope) (hf : ∀ scope, (f scope).pid = scope.pid)
    (table : ScopeTable) : ScopeTable where
  items := table.items.map f
  pids_nodup := by
    rw [List.map_map, show ((·.pid) ∘ f) = (·.pid) from funext hf]
    exact table.pids_nodup
  bounded := by rw [List.length_map]; exact table.bounded

variable (table : ScopeTable)

/-- The row of a pid starts over as another process without a controller scope. -/
def renew (pid : Int) (birth : Nat) (networkId : Text) : ScopeTable :=
  table.mapRows (fun scope => if scope.pid = pid then ⟨scope.pid, birth, networkId, false⟩ else scope)
    fun scope => by split <;> rfl

/-- The row of an exact identity becomes a controller scope. -/
def markController (pid : Int) (birth : Nat) : ScopeTable :=
  table.mapRows (fun scope =>
      if scope.pid = pid ∧ scope.birth = birth then { scope with controllerScope := true } else scope)
    fun scope => by split <;> rfl

/-- A new row at the end; a table that is full or already has the pid is left alone. -/
def append (scope : AuthenticatedScope) : ScopeTable :=
  if h : scope.pid ∉ table.items.map (·.pid) ∧ table.items.length < PM_AUTH_MAX_PROCESS_SCOPES then
    { items := table.items ++ [scope]
      pids_nodup := by
        rw [List.map_append]
        refine List.nodup_append.mpr ⟨table.pids_nodup, by simp, fun pid hpid pid' hpid' e => ?_⟩
        rw [e, List.mem_singleton.mp hpid'] at hpid
        exact h.1 hpid
      bounded := by rw [List.length_append]; exact h.2 }
  else table

end ScopeTable

/-! ## Tokens and keys -/

/-- C `pm_auth_token_matches`; both texts of a comparison have at least 64 bytes, which are compared
without an early exit. -/
def authTokenMatches (expected supplied : Text) : Bool :=
  supplied.length = 64 ∧ (supplied.all fun ch => isdigit ch || (97 ≤ ch && ch ≤ 102)) ∧
    expected.take 64 = supplied

def PM_NETWORK_NAMESPACE_MAX_ID_BYTES : Nat := 124

def networkNamespaceKey (networkId : Text) : Option Text :=
  if 0 < networkId.length ∧ networkId.length ≤ PM_NETWORK_NAMESPACE_MAX_ID_BYTES
  then some (ascii "id-" ++ networkId.flatMap hexByte) else none

/-! ## Pins and controller scopes -/

/-- The room for a network id in a scope row and in C `pm_auth_request`. -/
def SCOPE_NETWORK : Nat := 128

variable (os : Os)

/-- The table C `pm_auth_pin_scope` adds a row to: exited identities are reclaimed only when it is
full. -/
def authMakeRoom (scopes : ScopeTable) : ScopeTable :=
  if scopes.items.length = PM_AUTH_MAX_PROCESS_SCOPES
  then scopes.reclaim fun scope => os.processBirth scope.pid = scope.birth
  else scopes

variable (auth : Authorization) (pid : Int)

/-- C `pm_auth_pin_scope`; `none` for a refusal, which leaves the table as it was. -/
def authPinScope (birth : Nat) (networkId : Text) : Option Authorization :=
  if birth = 0 ∨ os.processBirth pid ≠ birth then none
  else
    match auth.scopes.items.find? fun scope => scope.pid = pid with
    | some scope =>
      if scope.birth = birth then if scope.networkId = networkId then some auth else none
      else some { auth with scopes := auth.scopes.renew pid birth (truncate SCOPE_NETWORK networkId) }
    | none =>
      if (authMakeRoom os auth.scopes).items.length = PM_AUTH_MAX_PROCESS_SCOPES then none
      else
        some { auth with
          scopes := (authMakeRoom os auth.scopes).append
            ⟨pid, birth, truncate SCOPE_NETWORK networkId, false⟩ }

def authExactScope (birth : Nat) : Option AuthenticatedScope :=
  auth.scopes.items.find? fun scope => scope.pid = pid ∧ scope.birth = birth

/-- What C `pm_auth_controller_scope` does once the walk is at a controller scope: the process
itself inherits it. A conflicting earlier pin or a full registry does not erase the ancestor. -/
def authInheritScope (birth : Nat) (scope : AuthenticatedScope) : Option AuthenticatedScope × Authorization :=
  if scope.pid = pid then (some scope, auth)
  else if os.processBirth scope.pid ≠ scope.birth then (none, auth)
  else
    match authPinScope os auth pid birth scope.networkId with
    | none => (some scope, auth)
    | some auth =>
      let auth := { auth with scopes := auth.scopes.markController pid birth }
      (authExactScope auth pid birth, auth)

/-- The birth of a parent the walk may climb to, `0` for init and for none. -/
def authParentBirth (parent : Int) : Nat :=
  if 1 < parent then os.processBirth parent else 0

/-- The ancestry walk of C `pm_auth_controller_scope`; the first argument bounds its depth. -/
def authControllerScopeLoop (os : Os) (auth : Authorization) (pid : Int) (birth : Nat) :
    Nat → Int → Nat → Option AuthenticatedScope × Authorization
  | 0, _, _ => (none, auth)
  | depth + 1, current, currentBirth =>
    if current ≤ 1 ∨ currentBirth = 0 then (none, auth)
    else
      match (authExactScope auth current currentBirth).filter (·.controllerScope) with
      | some scope => authInheritScope os auth pid birth scope
      | none =>
        let parent := os.processParent current
        let parentBirth := authParentBirth os parent
        if parent = current ∨ parentBirth = 0 ∨ currentBirth < parentBirth ∨
            os.processBirth current ≠ currentBirth then (none, auth)
        else authControllerScopeLoop os auth pid birth depth parent parentBirth

/-- The depth bound in C `pm_auth_controller_scope`. -/
def CONTROLLER_SCOPE_DEPTH : Nat := 64

def authControllerScope (birth : Nat) : Option AuthenticatedScope × Authorization :=
  if auth.hasControllerScopes = false ∨ birth = 0 ∨ os.processBirth pid ≠ birth then (none, auth)
  else authControllerScopeLoop os auth pid birth CONTROLLER_SCOPE_DEPTH pid birth

/-- C `pm_auth_register_controller_scope`: whether it was registered, and the table. -/
def authRegisterControllerScope (birth : Nat) (networkId : Text) : Bool × Authorization :=
  if pid ≤ 1 ∨ networkNamespaceKey networkId = none ∨ birth = 0 ∨ os.processBirth pid ≠ birth
  then (false, auth)
  else
    let (inherited, auth) := authControllerScope os auth pid birth
    if inherited.any fun scope => scope.networkId ≠ networkId then (false, auth)
    else
      match authPinScope os auth pid birth networkId with
      | none => (false, auth)
      | some auth =>
        match authExactScope auth pid birth with
        | none => (false, auth)
        | some _ => (true, { auth with
            scopes := auth.scopes.markController pid birth, hasControllerScopes := true })

/-! ## Requests -/

def authHostAllowed (host networkHost : Text) : Bool :=
  host = networkHost ∨ isOneOf host ["localhost", "127.0.0.1", "0.0.0.0", "::1", "::"]

/-- The loopback host of a presented network credential, when its key file confirms it
(C `pm_auth_request`). -/
def authCredentialHost (request : Request) : Option Text := do
  let key ← networkNamespaceKey request.authorizationNetworkId
  let file := auth.controllerPath ++ ascii ".scopes/" ++ key ++ ascii ".key"
  if PM_TEXT ≤ file.length then none
  let contents ← os.readKey file
  if contents[64]? ≠ some 10 ∨ authTokenMatches contents request.authorization = false then none
  let host := contents.drop 65
  if host.getLast? ≠ some 10 then none
  let host := host.dropLast
  if host.take 4 ≠ ascii "127." then none
  return host

/-- The group check the three workload methods share: an absent group, or the peer's own. -/
def authGroupAllowed (processGroupId peerPid : Int) : Bool :=
  processGroupId = 0 ∨ processGroupId = os.getpgid peerPid

variable (s : AgentState)

/-- The per-method part of C `pm_auth_request`: the network the request is about, `none` for a
denial. -/
def authRequestNetwork (request : Request) (peerPid : Int) (host : Text) : Option Text :=
  let networkId := (jsonGetString request.payload (ascii "networkId") SCOPE_NETWORK).2
  if request.method = ascii "releaseRouteAllocation" then
    match jsonGetString request.payload (ascii "allocationId") PM_ID with
    | (false, _) => none
    | (true, id) =>
      some (s.pendingRoutes.foldl (fun networkId pending =>
        if pending.id = id then truncate SCOPE_NETWORK pending.route.networkId else networkId) [])
  else if request.method = ascii "allocateRoute" then
    (parseAllocateInput request.payload).bind fun input =>
      if authHostAllowed input.host host ∧ authHostAllowed input.actualHost host ∧
          authGroupAllowed os input.processGroupId peerPid then some networkId else none
  else if request.method = ascii "registerExistingProcess" then
    (parseRegisterInput request.payload).bind fun input =>
      if input.pid = peerPid ∧ input.source = ascii "hooked" ∧ authHostAllowed input.host host ∧
          os.ownsTcpEndpoint peerPid input.host input.actualPort ∧
          authGroupAllowed os input.processGroupId peerPid ∧
          (∀ process ∈ s.processes, process.pid = peerPid → process.networkId = networkId) ∧
          (∀ pending ∈ s.pendingRoutes,
            pending.id = input.allocationId → pending.route.networkId = networkId)
      then some networkId else none
  else if request.method = ascii "releaseProcessRoute" then
    (parseReleaseProcessInput request.payload).bind fun input =>
      if input.pid = peerPid ∧ authGroupAllowed os input.processGroupId peerPid ∧
          (∀ pending ∈ s.pendingRoutes,
            pending.id = input.allocationId → pending.route.networkId = networkId) ∧
          (∀ process ∈ s.processes, process.requestedPort = input.requestedPort →
            process.actualPort = input.actualPort → process.networkId = networkId)
      then some networkId else none
  else if request.method = ascii "controlChannel" then
    if jsonGetLong request.payload (ascii "pid") 0 = peerPid then some networkId else none
  else none

/-- The networks a credential for network `credential` speaks for (C `pm_auth_request`). -/
def networkPermitted (credential networkId : Text) : Bool :=
  networkId = credential ∨ (networkId = [] ∧ credential = ascii "network-global")

/-- The part of C `pm_auth_request` a network credential goes through. -/
def authNetworkRequest (request : Request)
    (peerPid : Int) (peerBirth : Nat) (host : Text) : Role × Authorization :=
  let credential := request.authorizationNetworkId
  let (trusted, auth) := authControllerScope os auth peerPid peerBirth
  if trusted.any fun scope => scope.networkId ≠ credential then (.denied, auth)
  else
    match authRequestNetwork os s request peerPid host with
    | none => (.denied, auth)
    | some networkId =>
      if networkPermitted credential networkId then
        match authPinScope os auth peerPid peerBirth credential with
        | none => (.denied, auth)
        | some auth => (.network, auth)
      else (.denied, auth)

def authRequest (request : Request) (peerPid : Int) (peerBirth : Nat) : Role × Authorization :=
  if authTokenMatches auth.controllerToken request.authorization then (.controller, auth)
  else if request.method = ascii "daemonStatus" ∧ request.authorization = [] then (.anonymous, auth)
  else
    match authCredentialHost os auth request with
    | none => (.denied, auth)
    | some host => authNetworkRequest os auth s request peerPid peerBirth host

end PortManager.Native
