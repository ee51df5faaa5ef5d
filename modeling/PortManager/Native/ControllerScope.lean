import PortManager.Base.Run
import PortManager.Native.Authorization

/-!
# What a controller scope confines

A controller registers a process before it may exec; the process and its descendants are then
confined to one network. This module follows a registered scope through arbitrary runs of
registrations, pins and workload requests, with the operating system changing between any two of
them, and relates it to the ancestry walk of C `pm_auth_controller_scope`.

* `Advances` is what every event leaves of the rows of living processes: a pin of the same pid needs
  another birth, and reclaiming drops dead identities only. `Holds` (a row is a controller scope)
  follows it through a run.
* `Ancestry` is the chain the walk climbs, with the pids it passes on the way.
* `authRequest_confined` is the result: the walk stops at the nearest controller scope, and only
  below its depth bound.
-/

namespace PortManager.Native
open CText Run List Option ScopeTable

/-! ## Lookups -/

variable {table scopes : ScopeTable} {auth auth' auth₁ : Authorization} {pid r p : Int}
    {birth b : Nat} {scope found : AuthenticatedScope} {os : Os} {networkId net : Text}
    {path : List Int}

lemma ScopeTable.eq_of_pid {a b : AuthenticatedScope} (ha : a ∈ table.items) (hb : b ∈ table.items)
    (e : a.pid = b.pid) : a = b :=
  inj_on_of_nodup_map table.pids_nodup ha hb e

lemma authExactScope_eq_some :
    authExactScope auth pid birth = some scope ↔
      scope ∈ auth.scopes.items ∧ scope.pid = pid ∧ scope.birth = birth := by
  constructor
  · intro h
    exact ⟨mem_of_find?_eq_some h, by simpa using find?_some h⟩
  rintro ⟨hmem, hpid, hbirth⟩
  cases h : authExactScope auth pid birth with
  | none => exact absurd (find?_eq_none.mp h scope hmem) (by simp [hpid, hbirth])
  | some other =>
    have hother : other.pid = pid ∧ other.birth = birth := by simpa using find?_some h
    rw [auth.scopes.eq_of_pid hmem (mem_of_find?_eq_some h) (hpid.trans hother.1.symm)]

lemma ScopeTable.mem_append {other : AuthenticatedScope} (h : other ∈ table.items) :
    other ∈ (table.append scope).items := by
  unfold append
  split
  · exact mem_append_left _ h
  · exact h

lemma ScopeTable.mem_append_self (hpid : ∀ other ∈ table.items, other.pid ≠ scope.pid)
    (hroom : table.items.length ≠ PM_AUTH_MAX_PROCESS_SCOPES) : scope ∈ (table.append scope).items := by
  have room : scope.pid ∉ table.items.map (·.pid) ∧
      table.items.length < PM_AUTH_MAX_PROCESS_SCOPES := by
    refine ⟨fun hmem => ?_, lt_of_le_of_ne table.bounded hroom⟩
    obtain ⟨other, hother, e⟩ := mem_map.mp hmem
    exact hpid other hother e
  unfold append
  rw [dif_pos room]
  exact mem_append_right _ (mem_singleton_self _)

/-! ## A controller scope and what it survives -/

structure Holds (auth : Authorization) (pid : Int) (birth : Nat) (networkId : Text) : Prop where
  row : ⟨pid, birth, networkId, true⟩ ∈ auth.scopes.items
  walks : auth.hasControllerScopes = true

lemma mem_of_mem_authMakeRoom (h : scope ∈ (authMakeRoom os scopes).items) : scope ∈ scopes.items := by
  unfold authMakeRoom at h
  split at h
  · exact (mem_reclaim.mp h).1
  · exact h

lemma mem_authMakeRoom (h : scope ∈ scopes.items) (hlive : os.processBirth scope.pid = scope.birth) :
    scope ∈ (authMakeRoom os scopes).items := by
  unfold authMakeRoom
  split
  · exact mem_reclaim.mpr ⟨h, by simpa using hlive⟩
  · exact h

/-- The cases of a successful pin: nothing to do, a pid that is another process now, or a new row
in a table of which only dead rows may have gone (C `pm_auth_pin_scope`). -/
lemma authPinScope_cases (h : authPinScope os auth pid birth networkId = some auth') :
    os.processBirth pid = birth ∧ birth ≠ 0 ∧
    ((auth' = auth ∧
        ∃ scope ∈ auth.scopes.items, scope.pid = pid ∧ scope.birth = birth ∧ scope.networkId = networkId) ∨
      (∃ old ∈ auth.scopes.items, old.pid = pid ∧ old.birth ≠ birth ∧
        auth' = { auth with scopes := auth.scopes.renew pid birth (truncate SCOPE_NETWORK networkId) }) ∨
      ((∀ scope ∈ auth.scopes.items, scope.pid ≠ pid) ∧
        (authMakeRoom os auth.scopes).items.length ≠ PM_AUTH_MAX_PROCESS_SCOPES ∧
        auth' = { auth with
          scopes := (authMakeRoom os auth.scopes).append
            ⟨pid, birth, truncate SCOPE_NETWORK networkId, false⟩ })) := by
  unfold authPinScope at h
  split at h
  · cases h
  next hlive =>
  rw [not_or, not_not] at hlive
  refine ⟨hlive.2, hlive.1, ?_⟩
  split at h
  · next scope hfind =>
    have hmem := mem_of_find?_eq_some hfind
    have hpid : scope.pid = pid := by simpa using find?_some hfind
    split at h
    · next hbirth =>
      split at h
      · next hnet => exact .inl ⟨(Option.some.inj h).symm, scope, hmem, hpid, hbirth, hnet⟩
      · cases h
    · next hbirth => exact .inr (.inl ⟨scope, hmem, hpid, hbirth, (Option.some.inj h).symm⟩)
  · next hfind =>
    have hnone : ∀ scope ∈ auth.scopes.items, scope.pid ≠ pid := by
      simpa using hfind
    split at h
    · cases h
    · next hroom => exact .inr (.inr ⟨hnone, hroom, (Option.some.inj h).symm⟩)

/-- What a call with this view of the system leaves of the table: every living process keeps its row
and its network, and its controller scope if it has one. -/
structure Advances (os : Os) (auth auth' : Authorization) : Prop where
  rows : ∀ scope ∈ auth.scopes.items, os.processBirth scope.pid = scope.birth →
    ∃ c, (scope.controllerScope = true → c = true) ∧
      { scope with controllerScope := c } ∈ auth'.scopes.items
  walks : auth.hasControllerScopes = true → auth'.hasControllerScopes = true

lemma Advances.refl (os : Os) (auth : Authorization) : Advances os auth auth :=
  ⟨fun scope hscope _ => ⟨scope.controllerScope, id, hscope⟩, id⟩

lemma Advances.trans (h : Advances os auth auth') (h' : Advances os auth' auth₁) : Advances os auth auth₁ := by
  refine ⟨fun scope hscope hlive => ?_, h'.walks ∘ h.walks⟩
  obtain ⟨c, hc, hmem⟩ := h.rows scope hscope hlive
  obtain ⟨c', hc', hmem'⟩ := h'.rows _ hmem hlive
  exact ⟨c', hc' ∘ hc, hmem'⟩

lemma advances_pin (h : authPinScope os auth pid birth networkId = some auth') : Advances os auth auth' := by
  obtain ⟨hbirth, -, ⟨rfl, -⟩ | ⟨old, hold, hpid, hother, rfl⟩ | ⟨-, -, rfl⟩⟩ :=
    authPinScope_cases h
  · exact .refl os _
  · refine ⟨fun scope hscope hlive => ⟨_, id, mem_map.mpr ⟨_, hscope, if_neg ?_⟩⟩, id⟩
    -- a living process does not have the pid that is renewed: its birth is the one being pinned
    rintro rfl
    obtain rfl := auth.scopes.eq_of_pid hold hscope hpid
    exact hother (hlive.symm.trans hbirth)
  · exact ⟨fun scope hscope hlive =>
      ⟨_, id, mem_append (mem_authMakeRoom hscope hlive)⟩, id⟩

lemma advances_mark (os : Os) (auth : Authorization) (pid : Int) (birth : Nat) :
    Advances os auth { auth with scopes := auth.scopes.markController pid birth } := by
  refine ⟨fun scope hscope _ => ?_, id⟩
  by_cases hmarked : scope.pid = pid ∧ scope.birth = birth
  · exact ⟨true, fun _ => rfl, mem_map.mpr ⟨scope, hscope, if_pos hmarked⟩⟩
  · exact ⟨_, id, mem_map.mpr ⟨scope, hscope, if_neg hmarked⟩⟩

lemma advances_controllerScope (os : Os) (auth : Authorization) (pid : Int) (birth : Nat) :
    Advances os auth (authControllerScope os auth pid birth).2 := by
  have inherit : ∀ scope, Advances os auth (authInheritScope os auth pid birth scope).2 := by
    intro scope
    unfold authInheritScope
    split
    · exact .refl os auth
    split
    · exact .refl os auth
    split
    · exact .refl os auth
    · next h => exact (advances_pin h).trans (advances_mark os _ pid birth)
  have loop : ∀ depth current currentBirth,
      Advances os auth (authControllerScopeLoop os auth pid birth depth current currentBirth).2 := by
    intro depth
    induction depth with
    | zero => exact fun _ _ => .refl os auth
    | succ depth ih =>
      intro current currentBirth
      unfold authControllerScopeLoop
      split
      · exact .refl os auth
      split
      · exact inherit _
      dsimp only
      split
      · exact .refl os auth
      · exact ih _ _
  unfold authControllerScope
  split
  · exact .refl os auth
  · exact loop _ _ _

lemma advances_register (os : Os) (auth : Authorization) (pid : Int) (birth : Nat) (networkId : Text) :
    Advances os auth (authRegisterControllerScope os auth pid birth networkId).2 := by
  have walked := advances_controllerScope os auth pid birth
  unfold authRegisterControllerScope
  split
  · exact .refl os auth
  dsimp only
  split
  · exact walked
  split
  · exact walked
  next hpin =>
  have pinned := walked.trans (advances_pin hpin)
  split
  · exact pinned
  · exact ⟨(pinned.trans (advances_mark os _ pid birth)).rows, fun _ => rfl⟩

lemma advances_request (os : Os) (auth : Authorization) (s : AgentState) (request : Request)
    (pid : Int) (birth : Nat) : Advances os auth (authRequest os auth s request pid birth).2 := by
  have walked := advances_controllerScope os auth pid birth
  unfold authRequest
  split
  · exact .refl os auth
  split
  · exact .refl os auth
  split
  · exact .refl os auth
  unfold authNetworkRequest
  dsimp only
  split
  · exact walked
  split
  · exact walked
  split
  · split
    · exact walked
    · next hpin => exact walked.trans (advances_pin hpin)
  · exact walked

lemma Holds.advance (holds : Holds auth r b net) (hlive : os.processBirth r = b)
    (h : Advances os auth auth') : Holds auth' r b net := by
  obtain ⟨c, hc, hmem⟩ := h.rows _ holds.row hlive
  obtain rfl : c = true := hc rfl
  exact ⟨hmem, h.walks holds.walks⟩

/-! ## What a registration establishes -/

lemma exists_row_of_authPinScope (h : authPinScope os auth pid birth networkId = some auth') :
    ∃ scope ∈ auth'.scopes.items, scope.pid = pid ∧ scope.birth = birth ∧
      (networkId.length < SCOPE_NETWORK → scope.networkId = networkId) := by
  obtain ⟨-, -, ⟨rfl, row, hrow, hpid, hbirth, hnet⟩ | ⟨old, hold, hpid, -, rfl⟩ | ⟨hnew, hroom, rfl⟩⟩ :=
    authPinScope_cases h
  · exact ⟨row, hrow, hpid, hbirth, fun _ => hnet⟩
  · exact ⟨_, mem_map.mpr ⟨old, hold, if_pos hpid⟩, hpid, rfl, truncate_of_length_lt⟩
  · exact ⟨_, mem_append_self (fun other hother => hnew other (mem_of_mem_authMakeRoom hother))
      hroom, rfl, rfl, truncate_of_length_lt⟩

lemma length_of_networkNamespaceKey {key : Text} (h : networkNamespaceKey networkId = some key) :
    networkId.length ≤ PM_NETWORK_NAMESPACE_MAX_ID_BYTES := by
  unfold networkNamespaceKey at h
  split at h
  · next hlen => exact hlen.2
  · cases h

lemma Holds.of_register (h : (authRegisterControllerScope os auth pid birth networkId).1 = true) :
    Holds (authRegisterControllerScope os auth pid birth networkId).2 pid birth networkId ∧
      networkId.length < SCOPE_NETWORK := by
  unfold authRegisterControllerScope at h ⊢
  split at h
  · cases h
  next hvalid =>
  rw [if_neg hvalid]
  have hlen : networkId.length < SCOPE_NETWORK := by
    cases hkey : networkNamespaceKey networkId with
    | none => exact absurd (.inr (.inl hkey)) hvalid
    | some key => exact lt_of_le_of_lt (length_of_networkNamespaceKey hkey) (by decide)
  dsimp only at h ⊢
  split at h
  · cases h
  next hinherited =>
  rw [if_neg hinherited]
  split at h
  · cases h
  next auth' hpin =>
  split at h
  · cases h
  next hexact =>
  obtain ⟨scope, hscope, rfl, rfl, hnet⟩ := exists_row_of_authPinScope hpin
  obtain rfl := hnet hlen
  exact ⟨⟨mem_map.mpr ⟨scope, hscope, by simp⟩, rfl⟩, hlen⟩

/-! ## The ancestry walk -/

/-- `r` is `p` itself or an ancestor of `p` through living processes whose parents were born no
later than they were; the list has the processes on the way, from `p` up to a child of `r`. -/
inductive Ancestry (os : Os) (r : Int) : Int → List Int → Prop where
  | self : 1 < r → os.processBirth r ≠ 0 → Ancestry os r r []
  | parent {p : Int} {path : List Int} : 1 < p → os.processBirth p ≠ 0 → os.processParent p ≠ p →
      os.processBirth (os.processParent p) ≤ os.processBirth p →
      Ancestry os r (os.processParent p) path → Ancestry os r p (p :: path)

lemma Ancestry.live (h : Ancestry os r p path) : 1 < p ∧ os.processBirth p ≠ 0 := by
  cases h with
  | self hpid hbirth => exact ⟨hpid, hbirth⟩
  | parent hpid hbirth => exact ⟨hpid, hbirth⟩

def Unshadowed (os : Os) (auth : Authorization) (networkId : Text) (path : List Int) : Prop :=
  ∀ p ∈ path, ∀ scope ∈ auth.scopes.items,
    scope.pid = p → scope.birth = os.processBirth p → scope.controllerScope = true →
      scope.networkId = networkId

lemma authInheritScope_network (auth : Authorization) (pid : Int) (birth : Nat)
    (hlive : os.processBirth scope.pid = scope.birth) :
    ∃ found, (authInheritScope os auth pid birth scope).1 = some found ∧
      (scope.networkId.length < SCOPE_NETWORK → found.networkId = scope.networkId) := by
  unfold authInheritScope
  rw [if_neg (not_not.mpr hlive)]
  split
  · exact ⟨scope, rfl, fun _ => rfl⟩
  split
  · exact ⟨scope, rfl, fun _ => rfl⟩
  next auth' hpin =>
  obtain ⟨row, hrow, hpid, hbirth, hnet⟩ := exists_row_of_authPinScope hpin
  refine ⟨{ row with controllerScope := true }, ?_, hnet⟩
  exact authExactScope_eq_some.mpr
    ⟨mem_map.mpr ⟨row, hrow, by simp [hpid, hbirth]⟩, hpid, hbirth⟩

variable (holds : Holds auth r (os.processBirth r) net) (hlen : net.length < SCOPE_NETWORK)
include holds hlen

/-- Climbing a path below the depth bound, the walk finds the network of a controller scope at its
end, unless a nearer process is a controller scope of another network. -/
lemma authControllerScopeLoop_network (pid : Int) (birth : Nat) (hanc : Ancestry os r p path) :
    ∀ {depth : Nat}, path.length < depth → Unshadowed os auth net path →
      ∃ found, (authControllerScopeLoop os auth pid birth depth p (os.processBirth p)).1 = some found ∧
        found.networkId = net := by
  -- the network of the scope the walk stops at, wherever on the path that is
  have stop : ∀ {q scope}, authExactScope auth q (os.processBirth q) = some scope →
      scope.networkId = net →
      ∃ found, (authInheritScope os auth pid birth scope).1 = some found ∧ found.networkId = net := by
    intro q scope hscope hnet
    obtain ⟨-, hpid, hbirth⟩ := authExactScope_eq_some.mp hscope
    obtain ⟨found, hfound, e⟩ := authInheritScope_network auth pid birth
      (show os.processBirth scope.pid = scope.birth by rw [hpid, hbirth])
    exact ⟨found, hfound, (e (hnet ▸ hlen)).trans hnet⟩
  induction hanc with
  | self hpid hbirth =>
    intro depth hdepth _
    obtain ⟨depth, rfl⟩ := Nat.exists_eq_succ_of_ne_zero (Nat.ne_of_gt hdepth)
    have hrow := authExactScope_eq_some.mpr ⟨holds.row, rfl, rfl⟩
    rw [authControllerScopeLoop, if_neg (by omega), hrow, filter_some_pos rfl]
    exact stop hrow rfl
  | @parent q path hpid hbirth hself hborn hup ih =>
    intro depth hdepth hnear
    obtain ⟨depth, rfl⟩ := Nat.exists_eq_succ_of_ne_zero (Nat.ne_of_gt (Nat.zero_lt_of_lt hdepth))
    rw [authControllerScopeLoop, if_neg (by omega)]
    cases hscope : (authExactScope auth q (os.processBirth q)).filter (·.controllerScope) with
    | some scope =>
      obtain ⟨hexact, hctl⟩ := filter_eq_some_iff.mp hscope
      obtain ⟨hmem, hq, hb⟩ := authExactScope_eq_some.mp hexact
      exact stop hexact (hnear q (mem_cons_self ..) scope hmem hq hb hctl)
    | none =>
      have hup' := hup.live
      have hparent : authParentBirth os (os.processParent q) =
          os.processBirth (os.processParent q) := if_pos hup'.1
      dsimp only
      rw [hparent, if_neg (by
        rintro (h | h | h | h)
        · exact hself h
        · exact hup'.2 h
        · omega
        · exact h rfl)]
      exact ih (by simpa using hdepth) fun x hx => hnear x (mem_cons_of_mem _ hx)

lemma authControllerScope_network (hanc : Ancestry os r p path)
    (hdepth : path.length < CONTROLLER_SCOPE_DEPTH) (hnear : Unshadowed os auth net path) :
    ∃ found, (authControllerScope os auth p (os.processBirth p)).1 = some found ∧
      found.networkId = net := by
  unfold authControllerScope
  rw [if_neg (by simp [holds.walks, hanc.live.2])]
  exact authControllerScopeLoop_network holds hlen p _ hanc hdepth hnear

lemma authRequest_confined (hanc : Ancestry os r p path)
    (hdepth : path.length < CONTROLLER_SCOPE_DEPTH) (hnear : Unshadowed os auth net path)
    (s : AgentState) {request : Request} (hother : request.authorizationNetworkId ≠ net)
    (peerBirth : Nat) : (authRequest os auth s request p peerBirth).1 ≠ .network := by
  unfold authRequest
  split
  · simp
  split
  · simp
  split
  · simp
  unfold authNetworkRequest
  by_cases hbirth : peerBirth = os.processBirth p
  · subst hbirth
    obtain ⟨found, hfound, e⟩ := authControllerScope_network holds hlen hanc hdepth hnear
    dsimp only
    rw [hfound]
    simp [e, Ne.symm hother]
  -- a stale peer identity cannot be pinned
  have stale : ∀ auth' net', authPinScope os auth' p peerBirth net' = none :=
    fun _ _ => if_pos (.inr (Ne.symm hbirth))
  dsimp only
  split
  · simp
  split
  · simp
  split
  · simp [stale]
  · simp

omit holds hlen

/-! ## Two walks for one request

C `pm_dispatch` walks again for a registration that C `pm_auth_request` has admitted. The second
walk finds a scope exactly when the first one did, and then the one the credential names. -/

lemma authParentBirth_of_ne_zero {parent : Int} (h : authParentBirth os parent ≠ 0) :
    authParentBirth os parent = os.processBirth parent := by
  unfold authParentBirth at h ⊢
  split at h
  · next hpid => rw [if_pos hpid]
  · exact absurd rfl h

variable (hsub : ∀ scope ∈ auth'.scopes.items, scope.controllerScope = true → scope ∈ auth.scopes.items)
include hsub

lemma authControllerScopeLoop_none_of_subset {depth : Nat} {current : Int}
    (h : (authControllerScopeLoop os auth pid birth depth current (os.processBirth current)).1 = none) :
    authControllerScopeLoop os auth' pid birth depth current (os.processBirth current) = (none, auth') := by
  induction depth generalizing current with
  | zero => rfl
  | succ depth ih =>
    rw [authControllerScopeLoop] at h ⊢
    split at h
    · next hend => rw [if_pos hend]
    next hgo =>
    rw [if_neg hgo]
    split at h
    · next scope hscope =>
      obtain ⟨-, hpid, hbirth⟩ := authExactScope_eq_some.mp (filter_eq_some_iff.mp hscope).1
      obtain ⟨found, hfound, -⟩ := authInheritScope_network auth pid birth
        (show os.processBirth scope.pid = scope.birth by rw [hpid, hbirth])
      rw [hfound] at h
      cases h
    next hscope =>
    have hscope' : (authExactScope auth' current (os.processBirth current)).filter
        (·.controllerScope) = none := by
      refine filter_eq_none_iff.mpr fun scope hscope' hctl => ?_
      obtain ⟨hmem, hpid, hbirth⟩ := authExactScope_eq_some.mp hscope'
      have := authExactScope_eq_some.mpr ⟨hsub scope hmem hctl, hpid, hbirth⟩
      exact filter_eq_none_iff.mp hscope scope this hctl
    rw [hscope']
    dsimp only at h ⊢
    split at h
    · next hstop => rw [if_pos hstop]
    next hup =>
    rw [if_neg hup]
    rw [authParentBirth_of_ne_zero fun hzero => hup (.inr (.inl hzero))] at h ⊢
    exact ih h

lemma authControllerScope_none_of_subset (hwalks : auth'.hasControllerScopes = auth.hasControllerScopes)
    (h : (authControllerScope os auth pid birth).1 = none) :
    authControllerScope os auth' pid birth = (none, auth') := by
  unfold authControllerScope at h ⊢
  rw [hwalks]
  split at h
  · next hend => rw [if_pos hend]
  next hgo =>
  rw [if_neg hgo]
  obtain rfl : os.processBirth pid = birth := by simp only [not_or, not_not] at hgo; exact hgo.2.2
  exact authControllerScopeLoop_none_of_subset hsub h

omit hsub

lemma authInheritScope_some (hbirth : os.processBirth pid = birth)
    (hlive : os.processBirth scope.pid = scope.birth) (hctl : scope.controllerScope = true)
    (hmem : scope ∈ auth.scopes.items) (hwalks : auth.hasControllerScopes = true)
    (h : authInheritScope os auth pid birth scope = (some found, auth₁)) :
    Holds auth₁ pid birth found.networkId ∨
      (auth₁ = auth ∧ authPinScope os auth pid birth found.networkId = none) := by
  unfold authInheritScope at h
  split at h
  · next hself =>
    obtain ⟨rfl, rfl⟩ : scope = found ∧ auth = auth₁ := by simpa using h
    refine .inl ⟨?_, hwalks⟩
    rwa [← hself, ← hbirth, ← hself, hlive, ← hctl]
  rw [if_neg (not_not.mpr hlive)] at h
  split at h
  · next hpin =>
    obtain ⟨rfl, rfl⟩ : scope = found ∧ auth = auth₁ := by simpa using h
    exact .inr ⟨rfl, hpin⟩
  · next auth' hpin =>
    have hwalks' : auth'.hasControllerScopes = true := by
      obtain ⟨-, -, ⟨rfl, -⟩ | ⟨_, _, _, _, rfl⟩ | ⟨_, _, rfl⟩⟩ := authPinScope_cases hpin <;> exact hwalks
    obtain ⟨hfound, rfl⟩ := Prod.mk.inj h
    obtain ⟨row, hrow, rfl, rfl, -⟩ := exists_row_of_authPinScope hpin
    have hmarked : { row with controllerScope := true } ∈
        (auth'.scopes.markController row.pid row.birth).items :=
      mem_map.mpr ⟨row, hrow, if_pos ⟨rfl, rfl⟩⟩
    have hexact : authExactScope { auth' with scopes := auth'.scopes.markController row.pid row.birth }
        row.pid row.birth = some { row with controllerScope := true } :=
      authExactScope_eq_some.mpr ⟨hmarked, rfl, rfl⟩
    obtain rfl := mem_unique hfound hexact
    exact .inl ⟨hmarked, hwalks'⟩

lemma authControllerScope_some (h : authControllerScope os auth pid birth = (some found, auth₁)) :
    1 < pid ∧ os.processBirth pid = birth ∧ birth ≠ 0 ∧
      (Holds auth₁ pid birth found.networkId ∨
        (auth₁ = auth ∧ authPinScope os auth pid birth found.networkId = none)) := by
  unfold authControllerScope at h
  split at h
  · cases h
  next hgo =>
  simp only [not_or, not_not, Bool.not_eq_false] at hgo
  obtain ⟨hwalks, hbirth0, hbirth⟩ := hgo
  have loop : ∀ depth current,
      authControllerScopeLoop os auth pid birth depth current (os.processBirth current) =
        (some found, auth₁) →
      Holds auth₁ pid birth found.networkId ∨
        (auth₁ = auth ∧ authPinScope os auth pid birth found.networkId = none) := by
    intro depth
    induction depth with
    | zero => exact fun _ h => by cases h
    | succ depth ih =>
      intro current h
      rw [authControllerScopeLoop] at h
      split at h
      · cases h
      split at h
      · next scope hscope =>
        obtain ⟨hexact, hctl⟩ := filter_eq_some_iff.mp hscope
        obtain ⟨hmem, hpid, hb⟩ := authExactScope_eq_some.mp hexact
        exact authInheritScope_some hbirth (by rw [hpid, hb]) hctl hmem hwalks h
      dsimp only at h
      split at h
      · cases h
      next hup =>
      rw [authParentBirth_of_ne_zero fun hzero => hup (.inr (.inl hzero))] at h
      exact ih _ h
  refine ⟨?_, hbirth, hbirth0, loop CONTROLLER_SCOPE_DEPTH pid (by rw [hbirth]; exact h)⟩
  by_contra hpid
  rw [CONTROLLER_SCOPE_DEPTH, authControllerScopeLoop, if_pos (.inl (by omega))] at h
  cases h

/-! ## Runs -/

/-- What reads or writes the scope table: the two controller methods, a pin, and any request. -/
inductive AuthEvent where
  | registerProcessScope (pid : Int) (birth : Nat) (networkId : Text)
  | resolveProcessScope (pid : Int) (birth : Nat)
  | pinScope (pid : Int) (birth : Nat) (networkId : Text)
  | request (s : AgentState) (request : Request) (peerPid : Int) (peerBirth : Nat)

def authStep (auth : Authorization) : Os × AuthEvent → Authorization
  | (os, .registerProcessScope pid birth networkId) =>
    -- C `pm_dispatch` resolves the scope it has just registered
    match authRegisterControllerScope os auth pid birth networkId with
    | (false, auth) => auth
    | (true, auth) => (authControllerScope os auth pid birth).2
  | (os, .resolveProcessScope pid birth) => (authControllerScope os auth pid birth).2
  | (os, .pinScope pid birth networkId) => (authPinScope os auth pid birth networkId).getD auth
  | (os, .request s request peerPid peerBirth) => (authRequest os auth s request peerPid peerBirth).2

lemma advances_step (auth : Authorization) (event : Os × AuthEvent) : Advances event.1 auth (authStep auth event) := by
  obtain ⟨os, event⟩ := event
  cases event with
  | registerProcessScope pid birth networkId =>
    have registered := advances_register os auth pid birth networkId
    rw [authStep]
    split
    · next h => rw [h] at registered; exact registered
    · next h =>
      rw [h] at registered
      exact registered.trans (advances_controllerScope os _ pid birth)
  | resolveProcessScope pid birth => exact advances_controllerScope os auth pid birth
  | pinScope pid birth networkId =>
    rw [authStep]
    cases h : authPinScope os auth pid birth networkId with
    | none => exact .refl os auth
    | some auth' => exact advances_pin h
  | request s request peerPid peerBirth => exact advances_request os auth s request peerPid peerBirth

lemma Holds.run {auth : Authorization} {r : Int} {b : Nat} {net : Text}
    (holds : Holds auth r b net) {events : List (Os × AuthEvent)}
    (hlive : ∀ event ∈ events, event.1.processBirth r = b) : Holds (Run.run authStep auth events) r b net := by
  induction events generalizing auth with
  | nil => exact holds
  | cons event events ih =>
    rw [forall_mem_cons] at hlive
    exact ih (holds.advance hlive.1 (advances_step auth event)) hlive.2

/-- In every run after process `r` was registered for a network, while `r` lives, no request of a
process fewer than `CONTROLLER_SCOPE_DEPTH` generations below `r` is admitted with the credential of
another network, unless a process on the way up to `r` is itself a controller scope of another
network. -/
theorem controllerScope_confines_descendants {os₀ : Os} {auth : Authorization} {r : Int} {birth : Nat}
    {net : Text} (registered : (authRegisterControllerScope os₀ auth r birth net).1 = true)
    {events : List (Os × AuthEvent)} (survives : ∀ event ∈ events, event.1.processBirth r = birth)
    {os : Os} (alive : os.processBirth r = birth) {p : Int} {path : List Int}
    (ancestor : Ancestry os r p path) (depth : path.length < CONTROLLER_SCOPE_DEPTH)
    (nearest : Unshadowed os
      (run authStep auth ((os₀, .registerProcessScope r birth net) :: events)) net path)
    (s : AgentState) {request : Request} (other : request.authorizationNetworkId ≠ net) (peerBirth : Nat) :
    (authRequest os (run authStep auth ((os₀, .registerProcessScope r birth net) :: events))
      s request p peerBirth).1 ≠ .network := by
  obtain ⟨registers, hlen⟩ := Holds.of_register registered
  have alive₀ : os₀.processBirth r = birth := by
    by_contra h
    rw [authRegisterControllerScope, if_pos (.inr (.inr (.inr h)))] at registered
    cases registered
  have held : Holds (run authStep auth ((os₀, .registerProcessScope r birth net) :: events)) r
      birth net := by
    have first : Holds (authStep auth (os₀, .registerProcessScope r birth net)) r birth net := by
      rw [authStep]
      split
      · next h => rw [h] at registered; cases registered
      · next h =>
        rw [h] at registers
        exact registers.advance alive₀ (advances_controllerScope os₀ _ r birth)
    exact first.run survives
  subst alive
  exact authRequest_confined held hlen ancestor depth nearest s other peerBirth

/-- A machine with one line of descent: the parent of process `n` is `n - 1`, and every process was
born after its parent. Every network has the same key file. -/
def lineOs : Os where
  now := 0
  nowMs := 0
  isoNow := []
  processBirth pid := pid.toNat
  processParent pid := pid - 1
  getpgid _ := 0
  readKey _ := some (List.replicate 64 48 ++ ascii "\n127.0.0.2\n")
  ownsTcpEndpoint _ _ _ := false
  bind _ _ := true
  inetPton4 _ := none
  inetPton6 _ := false
  v4Mapped _ := none
  scanLsof := some []
  scanLsofForPort _ := some []
  scanRegistrationRevision _ := 0
  reserve := true
  flush := true

def freshAuthorization : Authorization where
  controllerPath := ascii "/key"
  controllerToken := List.replicate 64 49
  scopes := ⟨[], by simp, by simp⟩
  hasControllerScopes := false

def allocateInB : Request where
  method := ascii "allocateRoute"
  authorization := List.replicate 64 48
  authorizationNetworkId := ascii "b"
  payload := ascii "\x7b\"networkId\":\"b\",\"requestedPort\":3000\x7d"

lemma lineOs_ancestry (n : Nat) : ∃ path : List Int, path.length = n ∧ Ancestry lineOs 2 (2 + n) path := by
  induction n with
  | zero => exact ⟨[], rfl, .self (by decide) (by decide)⟩
  | succ n ih =>
    obtain ⟨path, hlen, hanc⟩ := ih
    have hparent : lineOs.processParent (2 + (n + 1 : Nat)) = 2 + n := by
      change (2 + ((n + 1 : Nat) : Int)) - 1 = 2 + n
      omega
    refine ⟨(2 + (n + 1 : Nat)) :: path, by rw [length_cons, hlen], .parent (by omega) ?_ ?_ ?_ ?_⟩
    · change (2 + ((n + 1 : Nat) : Int)).toNat ≠ 0
      omega
    · rw [hparent]; omega
    · rw [hparent]
      change (2 + (n : Int)).toNat ≤ (2 + ((n + 1 : Nat) : Int)).toNat
      omega
    · rw [hparent]; exact hanc

/-- A child of a registered process is denied the other network. -/
theorem controllerScope_confines_child :
    (authRequest lineOs (run authStep freshAuthorization [(lineOs, .registerProcessScope 2 2 (ascii "a"))])
      (initialState 1) allocateInB 3 3).1 ≠ .network := by
  have child : Ancestry lineOs 2 3 [3] :=
    .parent (by decide) (by decide) (by decide) (by decide) (.self (by decide) (by decide))
  refine controllerScope_confines_descendants (by decide +kernel) (by simp) rfl child (by decide) ?_
    (initialState 1) (by decide) 3
  unfold Unshadowed
  decide +kernel

/-- The walk gives up after 64 generations, and the nearest controller scope decides: a process far
below a scope of network `a`, and a child that was registered for `b` before its parent was for
`a`, both use the credential of `b`. -/
theorem controllerScope_depth_and_order :
    (∃ path : List Int, path.length = 64 ∧ Ancestry lineOs 2 66 path ∧
      (authRegisterControllerScope lineOs freshAuthorization 2 2 (ascii "a")).1 = true ∧
      (authRequest lineOs
        (run authStep freshAuthorization [(lineOs, .registerProcessScope 2 2 (ascii "a"))])
        (initialState 1) allocateInB 66 66).1 = .network) ∧
    (Ancestry lineOs 2 3 [3] ∧
      (authRegisterControllerScope lineOs
        (run authStep freshAuthorization [(lineOs, .registerProcessScope 3 3 (ascii "b"))])
        2 2 (ascii "a")).1 = true ∧
      (authRequest lineOs
        (run authStep freshAuthorization [(lineOs, .registerProcessScope 3 3 (ascii "b")),
          (lineOs, .registerProcessScope 2 2 (ascii "a"))])
        (initialState 1) allocateInB 3 3).1 = .network) := by
  refine ⟨?_, ?_, by decide +kernel, by decide +kernel⟩
  · obtain ⟨path, hlen, hanc⟩ := lineOs_ancestry 64
    exact ⟨path, hlen, hanc, by decide +kernel, by decide +kernel⟩
  · exact .parent (by decide) (by decide) (by decide) (by decide) (.self (by decide) (by decide))

end PortManager.Native
