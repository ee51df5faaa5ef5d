import PortManager.Native.ControllerScope
import PortManager.Native.Frame

/-!
# Isolation of networks

A request admitted with the credential of one network should touch rows and allocations of that
network only. Authorization (`authRequest`) and execution (`dispatch`) parse the payload separately:
authorization reads `networkId` into 128 bytes and compares it as it is, execution reads it into 256
bytes and trims it. The two agree on releases, which only touch what authorization has looked at,
and whenever the trimmed id is one the credential speaks for. `dispatch_isolated_iff` says that this
is exactly when a request stays in its network, whatever the registry holds.
-/

namespace PortManager.Native
open CText List SameRegistry

/-! ## What counts as staying in a network -/

/-- What a registry may do to the allocations of other networks: nothing, except to those that have
expired, which it may drop or give a new expiry. -/
inductive Keeps (now : Int) : List PendingRoute → List PendingRoute → Prop where
  | nil : Keeps now [] []
  | keep (pending : PendingRoute) {before after : List PendingRoute} :
      Keeps now before after → Keeps now (pending :: before) (pending :: after)
  | drop {pending : PendingRoute} {before after : List PendingRoute} :
      pending.expiresAt ≤ now → Keeps now before after → Keeps now (pending :: before) after
  | redate {pending : PendingRoute} (e : Int) {before after : List PendingRoute} :
      pending.expiresAt ≤ now → Keeps now before after →
      Keeps now (pending :: before) ({ pending with expiresAt := e } :: after)

lemma Keeps.refl (now : Int) (pending : List PendingRoute) : Keeps now pending pending := by
  induction pending with
  | nil => exact .nil
  | cons entry pending ih => exact .keep entry ih

def otherRows (credential : Text) (rows : List Process) : List Process :=
  rows.filter fun row => !networkPermitted credential row.networkId

def otherPending (credential : Text) (pending : List PendingRoute) : List PendingRoute :=
  pending.filter fun entry => !networkPermitted credential entry.route.networkId

/-- From `s` to `s'` only rows and allocations of the credential's network were added, changed or
removed, expired allocations apart. -/
structure OnlyNetwork (now : Int) (credential : Text) (s s' : AgentState) : Prop where
  rows : otherRows credential s'.processes = otherRows credential s.processes
  pending : Keeps now (otherPending credential s.pendingRoutes) (otherPending credential s'.pendingRoutes)

lemma OnlyNetwork.refl (now : Int) (credential : Text) (s : AgentState) :
    OnlyNetwork now credential s s := ⟨rfl, .refl now _⟩

/-! ## Lists with entries of one network changed -/

section Lists
variable {α : Type} {p : α → Bool} {items : List α} {q : α → Bool}

lemma filter_set_of_not {index : Nat} {old new : α} (hat : items[index]? = some old)
    (hold : p old = false) (hnew : p new = false) : (items.set index new).filter p = items.filter p := by
  induction items generalizing index with
  | nil => rfl
  | cons item items ih =>
    cases index with
    | zero =>
      obtain rfl : item = old := by simpa using hat
      simp [hold, hnew]
    | succ index =>
      have hat' : items[index]? = some old := by simpa using hat
      rw [set_cons_succ, filter_cons, filter_cons, ih hat']

lemma filter_eraseP_of_not (h : ∀ x ∈ items, q x → p x = false) : (items.eraseP q).filter p = items.filter p := by
  induction items with
  | nil => rfl
  | cons item items ih =>
    rw [forall_mem_cons] at h
    by_cases hq : q item
    · rw [eraseP_cons_of_pos hq, filter_cons_of_neg (by simp [h.1 hq])]
    · rw [eraseP_cons_of_neg hq, filter_cons, filter_cons, ih h.2]

lemma filter_filter_of_not (h : ∀ x ∈ items, q x = false → p x = false) :
    (items.filter q).filter p = items.filter p := by
  rw [filter_filter]
  refine filter_congr fun x hx => ?_
  cases hq : q x with
  | true => simp
  | false => simp [h x hx hq]

end Lists

/-! ## Identities of endpoints -/

variable {networkId : Text} {port now : Int} {auth : Authorization} {birth : Nat}
    {input : RegisterInput} {s₀ : AgentState}

lemma length_of_networkPermitted {credential : Text} (hc : credential.length ≤ PM_NETWORK_NAMESPACE_MAX_ID_BYTES)
    (h : networkPermitted credential networkId = true) : networkId.length ≤ PM_NETWORK_NAMESPACE_MAX_ID_BYTES := by
  simp only [networkPermitted, decide_eq_true_eq] at h
  rcases h with rfl | ⟨rfl, -⟩
  · exact hc
  · exact Nat.zero_le _

/-- An endpoint of a network with a short id shares its identity with endpoints of that network only;
a longer id might lose its port to truncation (C `pm_endpoint_identity`). -/
lemma network_eq_of_endpointIdentity {port' : Int} {networkId' : Text}
    (hport : port.natAbs ≤ 2 ^ 31) (hlen : networkId.length ≤ PM_NETWORK_NAMESPACE_MAX_ID_BYTES)
    (h : endpointIdentity port networkId = endpointIdentity port' networkId') : networkId' = networkId := by
  have hdigits := length_decimal_le (n := port) (k := 10) (by omega) (by omega)
  have hfits : (networkId ++ 58 :: decimal port).length < PM_SMALL - 1 := by
    simp only [length_append, length_cons, PM_SMALL, PM_NETWORK_NAMESPACE_MAX_ID_BYTES] at *
    omega
  have hshort : endpointIdentity port networkId = networkId ++ 58 :: decimal port :=
    truncate_of_length_lt (by omega)
  have hshort' : endpointIdentity port' networkId' = networkId' ++ 58 :: decimal port' := by
    refine truncate_eq_of_length_lt ?_
    change (endpointIdentity port' networkId').length < PM_SMALL - 1
    rw [← h, hshort]
    exact hfits
  rw [hshort, hshort'] at h
  exact (name_eq_of_joined_eq h).symm

lemma natAbs_jsonGetInt_le {json key : Text} {default : Int} (h : default.natAbs ≤ 2 ^ 31) :
    (jsonGetInt json key default).natAbs ≤ 2 ^ 31 := by
  unfold jsonGetInt
  split
  · exact h
  split
  · exact h
  · unfold toInt32
    omega

/-! ## The operations, each in its network -/

lemma Keeps.cleanup (os : Os) (credential : Text) (s : AgentState) :
    Keeps os.now (otherPending credential s.pendingRoutes)
      (otherPending credential (cleanupPending os s).pendingRoutes) := by
  rcases cleanupPending_pendingRoutes os s with h | h
  · rw [h]; exact .refl _ _
  rw [h]
  unfold otherPending
  induction s.pendingRoutes with
  | nil => exact .nil
  | cons entry pending ih =>
    rw [filterMap_cons]
    rcases cleanupPendingRoute_cases os entry with h | ⟨hexpired, h | ⟨e, h⟩⟩
    · rw [h]
      simp only [filter_cons]
      split
      · exact .keep entry ih
      · exact ih
    · rw [h]
      simp only [filter_cons]
      split
      · exact .drop hexpired ih
      · exact ih
    · rw [h]
      simp only [filter_cons]
      split
      · exact .redate e hexpired ih
      · exact ih

section Operations
variable {credential : Text} (hc : credential.length ≤ PM_NETWORK_NAMESPACE_MAX_ID_BYTES)
include hc

lemma stateAllocateRoute_isolated (os : Os) (s : AgentState) {input : AllocateInput}
    (hport : input.requestedPort.natAbs ≤ 2 ^ 31)
    (h : networkPermitted credential (normalizeNetwork input.networkId PM_SMALL) = true) :
    OnlyNetwork os.now credential s (stateAllocateRoute os s input).1 := by
  obtain ⟨effect, hrows, -⟩ := stateAllocateRoute_effect os s input
  refine ⟨by rw [hrows], ?_⟩
  have others : otherPending credential (stateAllocateRoute os s input).1.pendingRoutes =
      otherPending credential (cleanupPending os s).pendingRoutes := by
    cases effect with
    | same hp _ => rw [hp]
    | reuse index pending e hat hsame hp _ =>
      have hnet := network_eq_of_endpointIdentity hport (length_of_networkPermitted hc h) hsame
      rw [hp]
      exact filter_set_of_not hat (by rw [hnet, h]; rfl) (by simp only [hnet, h]; rfl)
    | create pending _ hroute _ _ hp _ =>
      obtain ⟨host, port, e⟩ := hroute
      rw [hp]
      simp [otherPending, e, newPendingRoute, h]
  rw [others]
  exact Keeps.cleanup os credential s

lemma stateRegisterProcess_isolated (os : Os) (s : AgentState) (hport : input.requestedPort.natAbs ≤ 2 ^ 31)
    (h : networkPermitted credential (registrationNetwork s input) = true)
    (hnamed : ∀ pending ∈ s.pendingRoutes, pending.id = input.allocationId →
      networkPermitted credential pending.route.networkId = true) :
    OnlyNetwork os.now credential s (stateRegisterProcess os s input).1 := by
  obtain ⟨effect, hpending, -⟩ := stateRegisterProcess_effect os s input
  have claimed : otherPending credential (withoutAllocation input.allocationId s.pendingRoutes) =
      otherPending credential s.pendingRoutes := by
    unfold withoutAllocation
    split
    · exact filter_eraseP_of_not fun pending hmem hid => by
        rw [hnamed pending hmem (by simpa using hid)]; rfl
    · rfl
  constructor
  · cases effect with
    | same hr => rw [hr]
    | insert row hrow _ hr =>
      rw [hr]
      simp [otherRows, hrow, h]
    | update index previous row hat hprevious hrow _ hr =>
      rw [hr]
      exact filter_set_of_not hat (by rw [hprevious, h]; rfl) (by rw [hrow, h]; rfl)
  · rw [← claimed]
    rcases hpending with ⟨-, hp⟩ | hp
    · rw [hp]; exact .refl _ _
    have others : otherPending credential (stateRegisterProcess os s input).1.pendingRoutes =
        otherPending credential (withoutAllocation input.allocationId s.pendingRoutes) := by
      rw [hp]
      refine filter_filter_of_not fun pending _ hsame => ?_
      have hnet := network_eq_of_endpointIdentity hport (length_of_networkPermitted hc h)
        (by simpa using hsame)
      rw [hnet, h]
      rfl
    rw [others]
    exact .refl _ _

omit hc in
lemma stateReleaseProcessRoute_isolated (os : Os) (s : AgentState) {input : ReleaseProcessInput}
    (hnamed : ∀ pending ∈ s.pendingRoutes, pending.id = input.allocationId →
      networkPermitted credential pending.route.networkId = true)
    (hrows : ∀ process ∈ s.processes, process.requestedPort = input.requestedPort →
      process.actualPort = input.actualPort → networkPermitted credential process.networkId = true) :
    OnlyNetwork os.now credential s (stateReleaseProcessRoute os s input).1 := by
  obtain ⟨⟨listeners, hr⟩, hp, -⟩ := stateReleaseProcessRoute_effect os s input
  constructor
  · rw [hr]
    unfold otherRows
    generalize s.processes = rows at hrows
    induction rows with
    | nil => rfl
    | cons row rows ih =>
      rw [forall_mem_cons] at hrows
      rw [map_cons, filter_cons, filter_cons, ih hrows.2]
      rcases releaseRow_cases os input (normalizeNetwork input.networkId PM_SMALL) listeners row with
        e | ⟨hreq, hact, hnet⟩
      · rw [e]
      · simp [hnet, hrows.1 hreq hact]
  · rw [hp]
    unfold withoutAllocation
    split
    · rw [show otherPending credential _ = otherPending credential s.pendingRoutes from
        filter_eraseP_of_not fun pending hmem hid => by
          rw [hnamed pending hmem (by simpa using hid)]; rfl]
      exact .refl _ _
    · exact .refl _ _

omit hc in
lemma stateReleaseAllocation_isolated (now : Int) (s : AgentState) {allocationId : Text}
    (hnamed : ∀ pending ∈ s.pendingRoutes, pending.id = allocationId →
      networkPermitted credential pending.route.networkId = true) :
    OnlyNetwork now credential s (stateReleaseAllocation s allocationId).1 := by
  refine ⟨rfl, ?_⟩
  rw [show otherPending credential (stateReleaseAllocation s allocationId).1.pendingRoutes =
      otherPending credential s.pendingRoutes from
    filter_eraseP_of_not fun pending hmem hid => by
      rw [hnamed pending hmem (by simpa using hid)]; rfl]
  exact .refl _ _

end Operations

/-! ## Admission -/

section Methods
variable {os : Os} {s : AgentState} {request : Request} {pid : Int} {host : Text}

lemma authRequestNetwork_allocate (h : request.method = ascii "allocateRoute") :
    authRequestNetwork os s request pid host =
      (parseAllocateInput request.payload).bind fun input =>
        if authHostAllowed input.host host ∧ authHostAllowed input.actualHost host ∧
            authGroupAllowed os input.processGroupId pid
        then some (jsonGetString request.payload (ascii "networkId") SCOPE_NETWORK).2 else none := by
  have hrelease : request.method ≠ ascii "releaseRouteAllocation" := by rw [h]; decide
  unfold authRequestNetwork
  simp only [if_neg hrelease, if_pos h]

lemma authRequestNetwork_register (h : request.method = ascii "registerExistingProcess") :
    authRequestNetwork os s request pid host =
      (parseRegisterInput request.payload).bind fun input =>
        let networkId := (jsonGetString request.payload (ascii "networkId") SCOPE_NETWORK).2
        if input.pid = pid ∧ input.source = ascii "hooked" ∧ authHostAllowed input.host host ∧
            os.ownsTcpEndpoint pid input.host input.actualPort ∧
            authGroupAllowed os input.processGroupId pid ∧
            (∀ process ∈ s.processes, process.pid = pid → process.networkId = networkId) ∧
            (∀ pending ∈ s.pendingRoutes,
              pending.id = input.allocationId → pending.route.networkId = networkId)
        then some networkId else none := by
  have hrelease : request.method ≠ ascii "releaseRouteAllocation" := by rw [h]; decide
  have hallocate : request.method ≠ ascii "allocateRoute" := by rw [h]; decide
  unfold authRequestNetwork
  simp only [if_neg hrelease, if_neg hallocate, if_pos h]

end Methods

/-- What an admitted network request has passed (C `pm_auth_request`). -/
structure Admission (os : Os) (auth : Authorization) (s : AgentState) (request : Request)
    (pid : Int) (birth : Nat) (host networkId : Text) (auth' : Authorization) : Prop where
  credential : request.authorizationNetworkId.length ≤ PM_NETWORK_NAMESPACE_MAX_ID_BYTES
  trusted : ∀ scope, (authControllerScope os auth pid birth).1 = some scope →
    scope.networkId = request.authorizationNetworkId
  network : authRequestNetwork os s request pid host = some networkId
  permitted : networkPermitted request.authorizationNetworkId networkId = true
  pinned : authPinScope os (authControllerScope os auth pid birth).2 pid birth
    request.authorizationNetworkId = some auth'

variable {request : Request} {os : Os}

lemma length_of_authCredentialHost {host : Text} (h : authCredentialHost os auth request = some host) :
    request.authorizationNetworkId.length ≤ PM_NETWORK_NAMESPACE_MAX_ID_BYTES := by
  unfold authCredentialHost at h
  cases hkey : networkNamespaceKey request.authorizationNetworkId with
  | none => simp [hkey] at h
  | some key => exact length_of_networkNamespaceKey hkey

variable {pid : Int}

lemma authNetworkRequest_network {s : AgentState}
    {host : Text} (hc : request.authorizationNetworkId.length ≤ PM_NETWORK_NAMESPACE_MAX_ID_BYTES)
    (h : (authNetworkRequest os auth s request pid birth host).1 = .network) :
    ∃ networkId, Admission os auth s request pid birth host networkId
      (authNetworkRequest os auth s request pid birth host).2 := by
  unfold authNetworkRequest at h ⊢
  dsimp only at h ⊢
  split at h
  · cases h
  next htrusted =>
  rw [if_neg htrusted]
  split at h
  · cases h
  next networkId hnetwork =>
  split at h
  · next hpermitted =>
    rw [if_pos hpermitted]
    split at h
    · cases h
    next auth' hpin =>
    refine ⟨networkId, hc, fun scope hscope => ?_, hnetwork, hpermitted, hpin⟩
    by_contra hne
    exact htrusted (by simp [hscope, hne])
  · cases h

lemma authRequest_network {s : AgentState} (h : (authRequest os auth s request pid birth).1 = .network) :
    ∃ host networkId, Admission os auth s request pid birth host networkId
      (authRequest os auth s request pid birth).2 := by
  unfold authRequest at h ⊢
  split at h
  · cases h
  next hcontroller =>
  split at h
  · cases h
  next hstatus =>
  rw [if_neg hcontroller, if_neg hstatus]
  split at h
  · cases h
  next host hhost =>
  obtain ⟨networkId, admission⟩ := authNetworkRequest_network (length_of_authCredentialHost hhost) h
  exact ⟨host, networkId, admission⟩

lemma authRequest_congr {s s' : AgentState}
    (h : ∀ host, authRequestNetwork os s' request pid host = authRequestNetwork os s request pid host) :
    authRequest os auth s' request pid birth = authRequest os auth s request pid birth := by
  unfold authRequest authNetworkRequest
  simp only [h]

lemma Admission.registrationScope {s : AgentState} {host networkId : Text} {auth' : Authorization}
    (admission : Admission os auth s request pid birth host networkId auth') :
    ((authControllerScope os auth pid birth).1 = none ∧ (registrationScope os auth' pid).1 = none) ∨
      ((authControllerScope os auth pid birth).1.isSome ∧
        ∃ scope, (registrationScope os auth' pid).1 = some scope ∧
          scope.networkId = request.authorizationNetworkId) := by
  have hlen : request.authorizationNetworkId.length < SCOPE_NETWORK :=
    lt_of_le_of_lt admission.credential (by decide)
  have pinned := admission.pinned
  have hbirth := (authPinScope_cases pinned).1
  have hbirth0 := (authPinScope_cases pinned).2.1
  cases hwalk : authControllerScope os auth pid birth with
  | mk trusted auth₁ =>
  rw [hwalk] at pinned
  cases trusted with
  | none =>
    refine .inl ⟨rfl, ?_⟩
    unfold PortManager.Native.registrationScope
    split
    · -- the pin adds no controller scope, so the second walk finds what the first one did
      obtain rfl : auth₁ = auth := by
        have same := authControllerScope_none_of_subset (fun _ h _ => h) rfl
          (show (authControllerScope os auth pid birth).1 = none by rw [hwalk])
        exact (congrArg Prod.snd (hwalk.symm.trans same))
      obtain ⟨hwalks, hsub⟩ : auth'.hasControllerScopes = auth₁.hasControllerScopes ∧
          ∀ scope ∈ auth'.scopes.items, scope.controllerScope = true → scope ∈ auth₁.scopes.items := by
        obtain ⟨-, -, ⟨rfl, -⟩ | ⟨old, hold, _, _, rfl⟩ | ⟨_, _, rfl⟩⟩ := authPinScope_cases pinned
        · exact ⟨rfl, fun _ h _ => h⟩
        · refine ⟨rfl, fun scope hscope hctl => ?_⟩
          obtain ⟨row, hrow, rfl⟩ := mem_map.mp hscope
          split at hctl
          · cases hctl
          · next hne => rw [if_neg hne]; exact hrow
        refine ⟨rfl, fun scope hscope hctl => ?_⟩
        unfold ScopeTable.append at hscope
        split at hscope
        · rcases mem_append.mp hscope with hold | hnew
          · exact mem_of_mem_authMakeRoom hold
          · rw [mem_singleton.mp hnew] at hctl
            cases hctl
        · exact mem_of_mem_authMakeRoom hscope
      rw [hbirth, authControllerScope_none_of_subset hsub hwalks (by rw [hwalk])]
    · rfl
  | some found =>
    obtain ⟨hpid, -, -, held⟩ := authControllerScope_some hwalk
    have hnet : found.networkId = request.authorizationNetworkId :=
      admission.trusted found (by rw [hwalk])
    rw [hnet] at held
    refine .inr ⟨rfl, ?_⟩
    rcases held with held | ⟨rfl, hfail⟩
    · have held' := held.advance hbirth (advances_pin pinned)
      unfold PortManager.Native.registrationScope
      rw [if_pos hpid]
      rw [← hbirth] at held'
      exact authControllerScope_network held' hlen (.self hpid (hbirth ▸ hbirth0)) (by decide)
        fun _ h => absurd h not_mem_nil
    · rw [hfail] at pinned
      cases pinned

/-! ## When a request stays in its network -/

/-- The network id of a payload as execution reads it, before it is trimmed. -/
def executionNetworkId (request : Request) : Text :=
  (jsonGetString request.payload (ascii "networkId") PM_SMALL).2

def actingNetwork (request : Request) : Text := normalizeNetwork (executionNetworkId request) PM_SMALL

lemma parseAllocateInput_network {input : AllocateInput} (h : parseAllocateInput request.payload = some input) :
    input.networkId = executionNetworkId request ∧ input.requestedPort.natAbs ≤ 2 ^ 31 := by
  unfold parseAllocateInput at h
  dsimp only at h
  split at h
  · cases h
    exact ⟨rfl, natAbs_jsonGetInt_le (by decide)⟩
  · cases h

lemma parseRegisterInput_network (h : parseRegisterInput request.payload = some input) :
    input.networkId = executionNetworkId request ∧ input.requestedPort.natAbs ≤ 2 ^ 31 := by
  unfold parseRegisterInput at h
  dsimp only at h
  split at h
  · cases h
    exact ⟨rfl, natAbs_jsonGetInt_le (by decide)⟩
  · cases h

/-- The network C `pm_auth_request` compares for the release of an allocation: that of the last
allocation with the id, which is the only one. -/
lemma foldl_network_of_mem {id : Text} {pending : List PendingRoute} {entry : PendingRoute}
    (hnodup : (pending.map (·.id)).Nodup) (hmem : entry ∈ pending) (hid : entry.id = id) (acc : Text) :
    pending.foldl (fun networkId pending =>
        if pending.id = id then truncate SCOPE_NETWORK pending.route.networkId else networkId) acc =
      truncate SCOPE_NETWORK entry.route.networkId := by
  have skip : ∀ (rest : List PendingRoute) (acc : Text), (∀ x ∈ rest, x.id ≠ id) →
      rest.foldl (fun networkId pending =>
        if pending.id = id then truncate SCOPE_NETWORK pending.route.networkId else networkId) acc = acc := by
    intro rest
    induction rest with
    | nil => exact fun _ _ => rfl
    | cons x rest ih =>
      intro acc h
      rw [forall_mem_cons] at h
      rw [foldl_cons, if_neg h.1]
      exact ih acc h.2
  induction pending generalizing acc with
  | nil => cases hmem
  | cons x rest ih =>
    rw [map_cons, nodup_cons] at hnodup
    rw [foldl_cons]
    rcases mem_cons.mp hmem with rfl | hmem
    · rw [if_pos hid]
      refine skip rest _ fun y hy e => hnodup.1 ?_
      exact mem_map.mpr ⟨y, hy, e.trans hid.symm⟩
    · exact ih hnodup.2 hmem _

lemma networkPermitted_of_truncate {credential : Text} (hc : credential.length ≤ PM_NETWORK_NAMESPACE_MAX_ID_BYTES)
    (h : networkPermitted credential (truncate SCOPE_NETWORK networkId) = true) :
    networkPermitted credential networkId = true := by
  have hlen := length_of_networkPermitted hc h
  rwa [truncate_eq_of_length_lt (lt_of_le_of_lt hlen (by decide))] at h

/-- The condition under which a request of a network credential stays in its network: it is a
release, or the network it acts on is one the credential speaks for, or it is a registration that is
refused because the process has a controller scope and the payload names another network. -/
def StaysInNetwork (os : Os) (auth : Authorization) (request : Request) (pid : Int) (birth : Nat) : Prop :=
  (request.method = ascii "allocateRoute" →
    networkPermitted request.authorizationNetworkId (actingNetwork request) = true) ∧
  (request.method = ascii "registerExistingProcess" →
    networkPermitted request.authorizationNetworkId (actingNetwork request) = true ∨
      ((authControllerScope os auth pid birth).1.isSome ∧
        executionNetworkId request ≠ request.authorizationNetworkId))

/-- In every well-formed registry in which the request is admitted with role `network`, dispatching
it stays in the network of its credential. -/
def Isolated (os : Os) (auth : Authorization) (request : Request) (pid : Int) (birth : Nat) : Prop :=
  ∀ s : AgentState, s.Wf → (authRequest os auth s request pid birth).1 = .network →
    OnlyNetwork os.now request.authorizationNetworkId s
      (dispatch os (authRequest os auth s request pid birth).2 s request).2.1

lemma isolated_of_staysInNetwork
    (stays : StaysInNetwork os auth request pid birth) : Isolated os auth request pid birth := by
  intro s wf hrole
  obtain ⟨host, networkId, admission⟩ := authRequest_network hrole
  generalize (authRequest os auth s request pid birth).2 = auth' at admission
  have hc := admission.credential
  have hnetwork := admission.network
  unfold dispatch
  split
  · next hmethod =>
    split
    · exact .refl ..
    next input hparse =>
    obtain ⟨hid, hport⟩ := parseAllocateInput_network hparse
    refine stateAllocateRoute_isolated hc os s hport ?_
    rw [hid]
    exact stays.1 hmethod
  next hallocate =>
  split
  · next hmethod =>
    split
    · exact .refl ..
    next input hparse =>
    obtain ⟨hid, hport⟩ := parseRegisterInput_network hparse
    simp only [authRequestNetwork_register hmethod, hparse, Option.bind_some] at hnetwork
    split at hnetwork
    next hchecks =>
      obtain ⟨rfl, -, -, -, -, -, hpending⟩ := hchecks
      cases hnetwork
      have hnamed : ∀ pending ∈ s.pendingRoutes, pending.id = input.allocationId →
          networkPermitted request.authorizationNetworkId pending.route.networkId = true := by
        intro pending hmem hid
        rw [hpending pending hmem hid]
        exact admission.permitted
      dsimp only
      split
      · exact .refl ..
      next hscope =>
      refine stateRegisterProcess_isolated hc os s hport ?_ hnamed
      rcases stays.2 hmethod with hpermitted | ⟨hsome, hother⟩
      · unfold registrationNetwork
        rw [hid]
        change networkPermitted _ (if actingNetwork request = [] then _ else actingNetwork request) = true
        split
        · next hempty =>
          cases halloc : findPendingAllocation s input.allocationId with
          | none => rw [hempty] at hpermitted; exact hpermitted
          | some pending =>
            unfold findPendingAllocation at halloc
            split at halloc
            · cases halloc
            · exact hnamed pending (mem_of_find?_eq_some halloc)
                (by simpa using find?_some halloc)
        · exact hpermitted
      · rcases admission.registrationScope with ⟨hnone, -⟩ | ⟨-, scope, hfound, hnet⟩
        · rw [hnone] at hsome; cases hsome
        refine absurd ?_ hscope
        rw [hfound]
        simp [hnet, hid, Ne.symm hother]
    · cases hnetwork
  next hregister =>
  split
  · next hmethod =>
    split
    · exact .refl ..
    next allocationId hid =>
    unfold authRequestNetwork at hnetwork
    simp only [if_pos hmethod, hid] at hnetwork
    refine stateReleaseAllocation_isolated os.now s fun pending hmem hpending => ?_
    have hlast := (foldl_network_of_mem wf.ids_nodup hmem hpending []).symm.trans
      (Option.some.inj hnetwork)
    exact networkPermitted_of_truncate hc (hlast ▸ admission.permitted)
  next hrelease =>
  split
  · next hmethod =>
    split
    · exact .refl ..
    next input hparse =>
    unfold authRequestNetwork at hnetwork
    simp only [if_neg hrelease, if_neg hallocate, if_neg hregister, if_pos hmethod, hparse,
      Option.bind_some] at hnetwork
    split at hnetwork
    · next hchecks =>
      cases hnetwork
      refine stateReleaseProcessRoute_isolated os s (fun pending hmem hid => ?_)
        fun process hmem hreq hact => ?_
      · rw [hchecks.2.2.1 pending hmem hid]; exact admission.permitted
      · rw [hchecks.2.2.2 process hmem hreq hact]; exact admission.permitted
    · cases hnetwork
  · exact .refl ..

/-! ## Registries that show the reach of a request

The two registries below hold one entry of the network a request acts on. An allocation for the same
port gets a new expiry, a registration of the same ports takes the row over; both are changes to
another network when the credential does not speak for the acting one. -/

def neighbourPending (now : Int) (networkId : Text) (port : Int) : PendingRoute where
  id := allocationId 1 1
  route :=
    { logicalPort := port
      actualPort := port
      routeDirection := .send
      host := []
      cwd := []
      networkId := networkId
      terminalSessionId := []
      processGroupId := 0
      processId := []
      processName := []
      status := .starting
      source := .allocated }
  expiresAt := now + PM_ROUTE_TTL_SECONDS + 1

def neighbourAllocation (now : Int) (networkId : Text) (port : Int) : AgentState :=
  { initialState 1 with
    pendingRoutes := [neighbourPending now networkId port]
    pendingEndpointHints := some fun slot =>
      if slot = pendingEndpointHintSlot port networkId then 1 else 0
    nextPendingExpiryScanAt := now + PM_ROUTE_TTL_SECONDS + 1
    nextAllocationId := 2 }

def neighbourRegistration (input : RegisterInput) (networkId : Text) : AgentState :=
  { initialState 1 with
    processes :=
      [{ id := managedProcessId 1
         pid := input.pid + 1
         name := []
         command := []
         cwd := []
         networkId := networkId
         terminalSessionId := []
         processGroupId := 0
         requestedPort := input.requestedPort
         actualPort := input.actualPort
         host := []
         status := .running
         startedAt := []
         stoppedAt := []
         url := []
         errorMessage := []
         source := .hooked
         childOwned := false
         missingListenerSince := 0
         missingListenerCount := 0
         registrationRevision := 1 }]
    registrationRevision := 1
    nextProcessId := 2 }

lemma neighbourAllocation_wf (now : Int) (networkId : Text) (port : Int) :
    (neighbourAllocation now networkId port).Wf :=
  ⟨nodup_singleton _,
    fun pending hmem => ⟨1, Nat.lt_succ_self 1, by rw [mem_singleton.mp hmem]; rfl⟩,
    show (1 : Int).natAbs < 2 ^ 31 by decide⟩

lemma neighbourRegistration_wf (input : RegisterInput) (networkId : Text) :
    (neighbourRegistration input networkId).Wf :=
  ⟨nodup_nil, fun _ hmem => absurd hmem not_mem_nil,
    show (1 : Int).natAbs < 2 ^ 31 by decide⟩

lemma stateAllocateRoute_neighbour (os : Os) (input : AllocateInput) :
    let networkId := normalizeNetwork input.networkId PM_SMALL
    let s := neighbourAllocation os.now networkId input.requestedPort
    (stateAllocateRoute os s input).1.pendingRoutes =
      [{ neighbourPending os.now networkId input.requestedPort with
          expiresAt := os.now + PM_ROUTE_TTL_SECONDS }] := by
  intro networkId s
  have unexpired : cleanupPending os s = s := by
    unfold cleanupPending
    have hlater : os.now < s.nextPendingExpiryScanAt := by
      change os.now < os.now + PM_ROUTE_TTL_SECONDS + 1
      unfold PM_ROUTE_TTL_SECONDS
      omega
    rw [if_neg (by simp [s, neighbourAllocation]), if_pos hlater]
  have inactive : findActiveRoute s input.requestedPort networkId = none := by
    simp [findActiveRoute, buildRoutes, s, neighbourAllocation, initialState, neighbourPending]
  have found : findPendingEndpoint s input.requestedPort networkId = (some 0, s) := by
    simp [findPendingEndpoint, s, neighbourAllocation, neighbourPending]
  unfold stateAllocateRoute
  rw [unexpired]
  dsimp only
  rw [inactive, ite_self, found]
  have hat : s.pendingRoutes[0]? = some (neighbourPending os.now networkId input.requestedPort) := rfl
  simp only [hat]
  unfold reusePendingRoute
  dsimp only
  rw [(SameRegistry.answer ..).pendingRoutes, (extend ..).pendingRoutes]
  split
  · rw [(markObserved ..).pendingRoutes]; rfl
  · rfl

lemma stateRegisterProcess_neighbour (os : Os) (hsource : input.source = ascii "hooked") :
    let networkId := normalizeNetwork input.networkId PM_SMALL
    let s := neighbourRegistration input networkId
    ∃ row, (stateRegisterProcess os s input).1.processes = [row] ∧ row.networkId = networkId ∧
      row.pid = input.pid := by
  intro networkId s
  have hnetwork : registrationNetwork s input = networkId := by
    have hnone : findPendingAllocation s input.allocationId = none := by
      unfold findPendingAllocation
      split <;> rfl
    unfold registrationNetwork
    rw [hnone]
    dsimp only
    split
    · next h => exact h.symm
    · rfl
  have hsame : normalizedSource input.source = .hooked := if_pos hsource
  have observed := observeClaimed os s input
  have hrows := (claimAllocation_frame (observeClaimedSender os s input) input.allocationId).1.trans
    observed.processes
  unfold stateRegisterProcess
  dsimp only
  rw [hnetwork, hsame]
  generalize claimAllocation (observeClaimedSender os s input) input.allocationId = s₁ at hrows
  have found : findRegisteredRoute s₁ input .hooked networkId = some 0 := by
    simp [findRegisteredRoute, hrows, s, neighbourRegistration]
  unfold upsertRegisteredRow
  rw [found]
  simp only [hrows]
  dsimp only [s, neighbourRegistration]
  rw [getElem?_cons_zero]
  dsimp only
  rw [if_neg]
  · exact ⟨_, rfl, rfl, rfl⟩
  intro e
  have := congrArg Process.pid e
  change input.pid = input.pid + 1 at this
  omega

lemma not_keeps_neighbour :
    ¬ Keeps now [neighbourPending now networkId port]
      [{ neighbourPending now networkId port with expiresAt := now + PM_ROUTE_TTL_SECONDS }] := by
  have hlater : ¬ (neighbourPending now networkId port).expiresAt ≤ now := by
    simp only [neighbourPending, PM_ROUTE_TTL_SECONDS]
    omega
  intro h
  generalize hafter : { neighbourPending now networkId port with
    expiresAt := now + PM_ROUTE_TTL_SECONDS } = after at h
  cases h with
  | keep =>
    have := congrArg PendingRoute.expiresAt hafter
    simp only [neighbourPending] at this
    omega
  | drop hexpired => exact hlater hexpired
  | redate _ hexpired => exact hlater hexpired

variable (admitted : (authRequest os auth s₀ request pid birth).1 = .network)
include admitted

lemma Isolated.allocate (isolated : Isolated os auth request pid birth)
    (hmethod : request.method = ascii "allocateRoute") :
    networkPermitted request.authorizationNetworkId (actingNetwork request) = true := by
  obtain ⟨host, networkId, admission⟩ := authRequest_network admitted
  cases hparse : parseAllocateInput request.payload with
  | none =>
    have hnetwork := admission.network
    simp [authRequestNetwork_allocate hmethod, hparse] at hnetwork
  | some input =>
    by_contra hforeign
    obtain ⟨hid, -⟩ := parseAllocateInput_network hparse
    have hacting : normalizeNetwork input.networkId PM_SMALL = actingNetwork request := by rw [hid]; rfl
    have same : authRequest os auth (neighbourAllocation os.now (actingNetwork request) input.requestedPort)
        request pid birth = authRequest os auth s₀ request pid birth :=
      authRequest_congr fun host => by simp only [authRequestNetwork_allocate hmethod]
    have only := isolated _ (neighbourAllocation_wf os.now (actingNetwork request) input.requestedPort)
      (by rw [same]; exact admitted)
    have reused := stateAllocateRoute_neighbour os input
    rw [hacting] at reused
    have hkeeps := only.pending
    unfold dispatch at hkeeps
    simp only [if_pos hmethod, hparse, reused] at hkeeps
    simp only [Bool.not_eq_true] at hforeign
    have alone : ∀ pending : PendingRoute, pending.route.networkId = actingNetwork request →
        otherPending request.authorizationNetworkId [pending] = [pending] := by
      intro pending hnet
      simp [otherPending, hnet, hforeign]
    rw [alone _ rfl] at hkeeps
    change Keeps os.now (otherPending _ [neighbourPending os.now _ _]) _ at hkeeps
    rw [alone _ rfl] at hkeeps
    exact not_keeps_neighbour hkeeps

lemma Isolated.register (isolated : Isolated os auth request pid birth)
    (hmethod : request.method = ascii "registerExistingProcess") :
    networkPermitted request.authorizationNetworkId (actingNetwork request) = true ∨
      ((authControllerScope os auth pid birth).1.isSome ∧
        executionNetworkId request ≠ request.authorizationNetworkId) := by
  obtain ⟨host, networkId, admission⟩ := authRequest_network admitted
  have hnetwork := admission.network
  cases hparse : parseRegisterInput request.payload with
  | none => simp [authRequestNetwork_register hmethod, hparse] at hnetwork
  | some input =>
    simp only [authRequestNetwork_register hmethod, hparse, Option.bind_some] at hnetwork
    split at hnetwork
    next hchecks =>
      obtain ⟨hpid, hsource, -, -, -, hrows, hpending⟩ := hchecks
      by_contra hforeign
      rw [not_or, Bool.not_eq_true] at hforeign
      obtain ⟨hforeign, haccepted⟩ := hforeign
      obtain ⟨hid, -⟩ := parseRegisterInput_network hparse
      have hacting : normalizeNetwork input.networkId PM_SMALL = actingNetwork request := by
        rw [hid]; rfl
      -- the neighbour's row has another pid and there is no allocation, so the check passes as before
      have same : authRequest os auth (neighbourRegistration input (actingNetwork request))
          request pid birth = authRequest os auth s₀ request pid birth := by
        refine authRequest_congr fun host => ?_
        have hother : ∀ process ∈ (neighbourRegistration input (actingNetwork request)).processes,
            process.pid ≠ pid := by
          intro process hmem
          rw [mem_singleton.mp hmem, ← hpid]
          change input.pid + 1 ≠ input.pid
          omega
        have hnone : ∀ pending ∈ (neighbourRegistration input (actingNetwork request)).pendingRoutes,
            False := fun _ hmem => not_mem_nil hmem
        simp only [authRequestNetwork_register hmethod, hparse, Option.bind_some]
        refine if_congr ?_ rfl rfl
        refine and_congr_right fun _ => and_congr_right fun _ => and_congr_right fun _ =>
          and_congr_right fun _ => and_congr_right fun _ => ?_
        exact ⟨fun _ => ⟨hrows, hpending⟩, fun _ => ⟨fun process hmem e => absurd e (hother process hmem),
          fun pending hmem => (hnone pending hmem).elim⟩⟩
      have only := isolated _ (neighbourRegistration_wf input (actingNetwork request))
        (by rw [same]; exact admitted)
      obtain ⟨row, htaken, hnet, howner⟩ := stateRegisterProcess_neighbour os hsource
      rw [hacting] at htaken hnet
      have hdispatch : (dispatch os (authRequest os auth s₀ request pid birth).2
          (neighbourRegistration input (actingNetwork request)) request).2.1.processes = [row] := by
        have hallocate : request.method ≠ ascii "allocateRoute" := by rw [hmethod]; decide
        have hscope : ((registrationScope os (authRequest os auth s₀ request pid birth).2 input.pid).1.any
            fun scope => scope.networkId ≠ input.networkId) = false := by
          rw [hpid]
          rcases admission.registrationScope with ⟨-, hnone⟩ | ⟨hsome, scope, hfound, hnamed⟩
          · rw [hnone]; rfl
          have : executionNetworkId request = request.authorizationNetworkId := by
            by_contra hne
            exact haccepted ⟨hsome, hne⟩
          rw [hfound]
          simp [hnamed, hid, this]
        unfold dispatch
        simp only [if_neg hallocate, if_pos hmethod, hparse, hscope]
        exact htaken
      have hrows' := only.rows
      rw [same, hdispatch] at hrows'
      have alone : ∀ process : Process, process.networkId = actingNetwork request →
          otherRows request.authorizationNetworkId [process] = [process] := by
        intro process hnet
        simp [otherRows, hnet, hforeign]
      rw [alone row hnet] at hrows'
      change _ = otherRows _ [_] at hrows'
      rw [alone _ rfl] at hrows'
      have := congrArg Process.pid (singleton_inj.mp hrows')
      rw [howner] at this
      change input.pid = input.pid + 1 at this
      omega
    · cases hnetwork

omit admitted

/-- A request that a network credential is admitted with stays in the network of the credential,
whatever the registry holds, exactly when it is a release, acts on a network the credential speaks
for, or is a registration refused by a controller scope. -/
theorem dispatch_isolated_iff {os : Os} {auth : Authorization} {request : Request} {pid : Int}
    {birth : Nat} {s₀ : AgentState} (admitted : (authRequest os auth s₀ request pid birth).1 = .network) :
    Isolated os auth request pid birth ↔ StaysInNetwork os auth request pid birth :=
  ⟨fun isolated => ⟨isolated.allocate admitted, isolated.register admitted⟩, isolated_of_staysInNetwork⟩

/-- An ordinary allocation is isolated. -/
theorem dispatch_isolated_allocateInB :
    StaysInNetwork lineOs freshAuthorization allocateInB 3 3 ∧
      Isolated lineOs freshAuthorization allocateInB 3 3 := by
  have admitted : (authRequest lineOs freshAuthorization (initialState 1) allocateInB 3 3).1 =
    .network := by decide +kernel
  have stays : StaysInNetwork lineOs freshAuthorization allocateInB 3 3 :=
    ⟨fun _ => by decide +kernel, fun h => absurd h (by decide +kernel)⟩
  exact ⟨stays, (dispatch_isolated_iff admitted).mpr stays⟩

/-- A request of the global credential with a network id of 128 bytes: authorization reads an empty
id, execution the whole one. -/
def allocateInLongNetwork : Request where
  method := ascii "allocateRoute"
  authorization := List.replicate 64 48
  authorizationNetworkId := ascii "network-global"
  payload := ascii "\x7b\"networkId\":\"" ++ List.replicate 128 97 ++
    ascii "\",\"requestedPort\":3000\x7d"

lemma Keeps.eq_nil {after : List PendingRoute} (h : Keeps now [] after) : after = [] := by
  cases h with
  | nil => rfl

/-- The global credential allocates a port in another network. -/
theorem allocate_leaves_network :
    (authRequest lineOs freshAuthorization (initialState 1) allocateInLongNetwork 3 3).1 = .network ∧
      ¬ OnlyNetwork lineOs.now allocateInLongNetwork.authorizationNetworkId (initialState 1)
        (dispatch lineOs
          (authRequest lineOs freshAuthorization (initialState 1) allocateInLongNetwork 3 3).2
          (initialState 1) allocateInLongNetwork).2.1 := by
  refine ⟨by decide +kernel, fun only => ?_⟩
  have hnone := only.pending.eq_nil
  revert hnone
  decide +kernel

/-! ## Every registry reached -/

/-- What a request leaves of the authorization and the registry. -/
def serve (daemon : Authorization × AgentState) (call : Os × Request) : Authorization × AgentState :=
  let answered := dispatch call.1 daemon.1 daemon.2 call.2
  (answered.1, answered.2.1)

/-- Until the counter of allocations runs out, every registry reached is well formed, and a released id names no allocation. -/
theorem released_id_gone {agentPid : Int} (hpid : agentPid.natAbs < 2 ^ 31) (auth : Authorization) (calls : List (Os × Request))
    (hroom : Run.StepsMeet serve (fun daemon _ => daemon.2.nextAllocationId < 2 ^ 64) (auth, initialState agentPid) calls) :
    let s := (Run.run serve (auth, initialState agentPid) calls).2
    s.Wf ∧ ∀ id, ∀ pending ∈ (stateReleaseAllocation s id).1.pendingRoutes, pending.id ≠ id := by
  intro s
  have wf : s.Wf := Run.run_invariant (I := fun daemon => daemon.2.Wf)
    (fun _ call wf hroom => dispatch_wf wf hroom call.1 _ call.2) (initialState_wf hpid) hroom
  refine ⟨wf, fun id pending hpending hid => ?_⟩
  have hgone : id ∉ (s.pendingRoutes.map (·.id)).erase id := wf.ids_nodup.not_mem_erase
  simp only [erase_eq_eraseP', Bool.beq_eq_decide_eq, eraseP_map] at hgone
  exact hgone (mem_map.mpr ⟨pending, hpending, hid⟩)

theorem released_id_gone_allocateInB :
    let s := (Run.run serve (freshAuthorization, initialState 1) [(lineOs, allocateInB)]).2
    s.pendingRoutes.length = 1 ∧ s.Wf :=
  ⟨by decide +kernel, (released_id_gone (by decide) _ _ (by decide +kernel)).1⟩

end PortManager.Native
