import PortManager.Base.Run
import PortManager.Networks.RegistryCalls

/-!
# Compose attachments

A compose project of the container runtime belongs to one network: no owner key is held by attachments of two
networks, whatever is loaded and whatever happens afterwards. The logical ports of a network are only checked when
an attachment is added or updated; a loaded document is not checked. Ports are taken apart by protocol and number,
so that the same number can be published once for each protocol.
-/

namespace PortManager.Networks
open JsonText PortManager.Node Run List InsertionMap ComposePublishedPort

namespace LogicalNetworkRegistry

variable {τ : Type} {dateParse : List Nat → Option Int} {registry : LogicalNetworkRegistry τ}

/-! ## Checks -/

lemma composeOwnersConflict_iff (a b : ComposeAttachment) :
    composeOwnersConflict a b = true ↔
      a.networkId ≠ b.networkId ∧ ∃ ownerKey ∈ composeRuntimeOwnerKeys a, ownerKey ∈ composeRuntimeOwnerKeys b := by
  rw [composeOwnersConflict, Bool.and_eq_true, decide_eq_true_iff, any_eq_true]
  simp only [decide_eq_true_iff]

lemma composeOwnersConflict_comm (a b : ComposeAttachment) : composeOwnersConflict a b = composeOwnersConflict b a := by
  have hswap : ∀ a b, composeOwnersConflict a b = true → composeOwnersConflict b a = true := by
    intro a b
    rw [composeOwnersConflict_iff, composeOwnersConflict_iff]
    rintro ⟨hne, ownerKey, ha, hb⟩
    exact ⟨hne.symm, ownerKey, hb, ha⟩
  exact Bool.eq_iff_iff.mpr ⟨hswap a b, hswap b a⟩

variable {attachment other : ComposeAttachment} {operation : RegistryOperation τ}

lemma ComposeFree.owners (hfree : registry.ComposeFree attachment)
    (hother : other ∈ registry.composeAttachments.values) (hne : other.id ≠ attachment.id) :
    composeOwnersConflict other attachment = false := by
  rw [← Bool.not_eq_true, composeOwnersConflict_iff]
  rintro ⟨hnetwork, ownerKey, hkey, hkey'⟩
  have hnone := findSome?_eq_none_iff.mp hfree.2 other hother
  rw [if_neg (not_or.mpr ⟨hne, hnetwork⟩)] at hnone
  exact absurd (decide_eq_true hkey') (find?_eq_none.mp hnone ownerKey hkey)

lemma ComposeFree.ports (hfree : registry.ComposeFree attachment)
    (hother : other ∈ registry.composeAttachments.values) (hne : other.id ≠ attachment.id)
    (hnetwork : other.networkId = attachment.networkId) {existingPort port : ComposePublishedPort}
    (hexisting : existingPort ∈ other.ports) (hport : port ∈ attachment.ports) :
    (existingPort.protocol, existingPort.logicalPort) ≠ (port.protocol, port.logicalPort) := by
  intro hsame
  obtain ⟨hprotocol, hnumber⟩ := Prod.mk.inj hsame
  have hnone := findSome?_eq_none_iff.mp hfree.1 other hother
  rw [if_neg (not_or.mpr ⟨hne, not_not.mpr hnetwork⟩)] at hnone
  have hnot := find?_eq_none.mp (findSome?_eq_none_iff.mp hnone existingPort hexisting) port hport
  exact hnot (by simp [hprotocol, hnumber])

/-! ## Owners -/

def OwnersApart (registry : LogicalNetworkRegistry τ) : Prop :=
  ∀ a ∈ registry.composeAttachments.values, ∀ b ∈ registry.composeAttachments.values, a.networkId ≠ b.networkId →
    ∀ ownerKey ∈ composeRuntimeOwnerKeys a, ownerKey ∉ composeRuntimeOwnerKeys b

/-- The invariant behind it: rows are stored under their ids, and those of different ids do not conflict. -/
structure OwnersKept (registry : LogicalNetworkRegistry τ) : Prop where
  apart : Eviction.Apart composeOwnersConflict registry.composeAttachments
  keyed : ∀ entry ∈ registry.composeAttachments.entries, entry.1 = entry.2.id

variable (hkept : registry.OwnersKept)
include hkept

lemma OwnersKept.ownersApart : registry.OwnersApart := by
  intro a ha b hb hnetwork ownerKey hkey hkey'
  obtain ⟨entry, hentry, rfl⟩ := mem_map.mp ha
  obtain ⟨entry', hentry', rfl⟩ := mem_map.mp hb
  have hne : entry.1 ≠ entry'.1 := by
    intro hsame
    exact hnetwork (congrArg _ (value_unique hentry (hsame ▸ hentry')))
  have hfalse := hkept.apart entry hentry entry' hentry' hne
  exact absurd ((composeOwnersConflict_iff _ _).mpr ⟨hnetwork, ownerKey, hkey, hkey'⟩) (by rw [hfalse]; simp)

lemma OwnersKept.set (hfree : registry.ComposeFree attachment) :
    ({ registry with
        composeAttachments := registry.composeAttachments.set attachment.id attachment
        cachedSnapshot := none } : LogicalNetworkRegistry τ).OwnersKept where
  apart := by
    have hother : ∀ entry ∈ registry.composeAttachments.entries, entry.1 ≠ attachment.id →
        composeOwnersConflict entry.2 attachment = false := fun entry hentry hne =>
      hfree.owners (mem_map_of_mem hentry) (hkept.keyed entry hentry ▸ hne)
    intro a ha b hb hne
    rcases mem_set.mp ha with rfl | ⟨holda, hnea⟩
    · rcases mem_set.mp hb with rfl | ⟨holdb, hneb⟩
      · exact absurd rfl hne
      · rw [composeOwnersConflict_comm]
        exact hother b holdb hneb
    · rcases mem_set.mp hb with rfl | ⟨holdb, hneb⟩
      · exact hother a holda hnea
      · exact hkept.apart a holda b holdb hne
  keyed := by
    intro entry hentry
    rcases mem_set.mp hentry with rfl | ⟨hold, -⟩
    · rfl
    · exact hkept.keyed entry hold

lemma OwnersKept.subset {result : LogicalNetworkRegistry τ}
    (hsub : ∀ entry ∈ result.composeAttachments.entries, entry ∈ registry.composeAttachments.entries) :
    result.OwnersKept :=
  ⟨hkept.apart.subset hsub, fun entry hentry => hkept.keyed entry (hsub entry hentry)⟩

omit hkept

/-- The rows a load keeps: the latest of all that have their id, or an owner key of theirs in another network. -/
def KeptCompose (dateParse : List Nat → Option Int) (attachments : List ComposeAttachment)
    (attachment : ComposeAttachment) : Prop :=
  Eviction.Latest (fun other => parseAttachmentTime dateParse other.attachedAt)
    (fun other => other.id = attachment.id ∨ composeOwnersConflict attachment other = true) attachments attachment

lemma mem_loadComposeAttachments {attachments : List ComposeAttachment} {entry : List Nat × ComposeAttachment} :
    entry ∈ (loadComposeAttachments dateParse attachments).entries ↔
      entry.1 = entry.2.id ∧ KeptCompose dateParse attachments entry.2 := by
  rw [KeptCompose, ← Eviction.survives_insertionSort]
  constructor
  · intro hentry
    rcases (Eviction.mem_insertAll _).mp hentry with ⟨hold, -⟩ | hsurvives
    · cases hold
    · exact hsurvives
  · exact fun hsurvives => (Eviction.mem_insertAll _).mpr (.inr hsurvives)

lemma ownersKept_filled (registry : LogicalNetworkRegistry τ) (state : LogicalNetworkRegistryState) :
    (registry.filled dateParse state).OwnersKept where
  apart := by
    have hempty : Eviction.Apart composeOwnersConflict
        (InsertionMap.empty : InsertionMap (List Nat) ComposeAttachment) := fun a ha => absurd ha not_mem_nil
    exact hempty.insertAll composeOwnersConflict_comm _
  keyed := fun _ hentry => (mem_loadComposeAttachments.mp hentry).1

lemma OwnersKept.step [DecidableEq τ] (hkept : registry.OwnersKept) (operation : RegistryOperation τ) :
    (registry.step dateParse operation).OwnersKept := by
  have hchange := step_change dateParse registry operation
  generalize registry.step dateParse operation = result at hchange
  cases hchange with
  | addComposeAttachment attachment _ _ hfree => exact hkept.set hfree
  | updateComposeAttachment attachment _ hfree => exact hkept.set hfree
  | removeComposeAttachment attachmentId =>
    exact hkept.subset fun entry hentry => (InsertionMap.mem_delete.mp hentry).1
  | removeNetwork networkId => exact hkept.subset fun entry hentry => (InsertionMap.mem_filter.mp hentry).1
  | replacePersistedState state => exact ⟨(ownersKept_filled registry state).apart, (ownersKept_filled registry state).keyed⟩
  | _ => exact ⟨hkept.apart, hkept.keyed⟩

/-! ## Ports -/

section Ports

variable {κ : Type} (claim : ComposePublishedPort → κ)

/-- Within one network no two attachments claim the same port. -/
def PortsApart (registry : LogicalNetworkRegistry τ) : Prop :=
  ∀ a ∈ registry.composeAttachments.entries, ∀ b ∈ registry.composeAttachments.entries, a.1 ≠ b.1 →
    a.2.networkId = b.2.networkId → ∀ port ∈ a.2.ports, ∀ port' ∈ b.2.ports, claim port ≠ claim port'

def LoadApart (dateParse : List Nat → Option Int) (attachments : List ComposeAttachment) : Prop :=
  ∀ a b, KeptCompose dateParse attachments a → KeptCompose dateParse attachments b → a.id ≠ b.id →
    a.networkId = b.networkId → ∀ port ∈ a.ports, ∀ port' ∈ b.ports, claim port ≠ claim port'

def PortsFree (registry : LogicalNetworkRegistry τ) (attachment : ComposeAttachment) : Prop :=
  ∀ entry ∈ registry.composeAttachments.entries, entry.1 ≠ attachment.id →
    entry.2.networkId = attachment.networkId → ∀ port ∈ entry.2.ports, ∀ port' ∈ attachment.ports,
      claim port ≠ claim port'

/-- An accepted document keeps ports apart, and so does an attachment that is added or updated. -/
def PortCareful (dateParse : List Nat → Option Int) (registry : LogicalNetworkRegistry τ) :
    RegistryOperation τ → Prop
  | .replacePersistedState state => rejects (replacePersistedState dateParse state) registry = false →
    LoadApart claim dateParse (state.composeAttachments.getD [])
  | .row (.addComposeAttachment attachment) => rejects (addComposeAttachment attachment) registry = false →
    registry.PortsFree claim attachment
  | .row (.updateComposeAttachment attachment) => rejects (updateComposeAttachment attachment) registry = false →
    registry.PortsFree claim attachment
  | _ => True

variable {claim}

lemma portsApart_filled_iff {state : LogicalNetworkRegistryState} :
    (registry.filled dateParse state).PortsApart claim ↔
      LoadApart claim dateParse (state.composeAttachments.getD []) := by
  constructor
  · intro hapart a b ha hb hne
    exact hapart (a.id, a) (mem_loadComposeAttachments.mpr ⟨rfl, ha⟩) (b.id, b)
      (mem_loadComposeAttachments.mpr ⟨rfl, hb⟩) hne
  · intro hload a ha b hb hne
    obtain ⟨hkeya, hkepta⟩ := mem_loadComposeAttachments.mp ha
    obtain ⟨hkeyb, hkeptb⟩ := mem_loadComposeAttachments.mp hb
    exact hload a.2 b.2 hkepta hkeptb (hkeya ▸ hkeyb ▸ hne)

variable (hapart : registry.PortsApart claim)
include hapart

lemma PortsApart.set (hfree : registry.PortsFree claim attachment) :
    ({ registry with
        composeAttachments := registry.composeAttachments.set attachment.id attachment
        cachedSnapshot := none } : LogicalNetworkRegistry τ).PortsApart claim := by
  intro a ha b hb hne hnetwork port hport port' hport'
  rcases mem_set.mp ha with rfl | ⟨holda, hnea⟩
  · rcases mem_set.mp hb with rfl | ⟨holdb, hneb⟩
    · exact absurd rfl hne
    · exact (hfree b holdb hneb hnetwork.symm port' hport' port hport).symm
  · rcases mem_set.mp hb with rfl | ⟨holdb, hneb⟩
    · exact hfree a holda hnea hnetwork port hport port' hport'
    · exact hapart a holda b holdb hne hnetwork port hport port' hport'

lemma PortsApart.subset {result : LogicalNetworkRegistry τ}
    (hsub : ∀ entry ∈ result.composeAttachments.entries, entry ∈ registry.composeAttachments.entries) :
    result.PortsApart claim := fun a ha b hb => hapart a (hsub a ha) b (hsub b hb)

lemma PortsApart.step [DecidableEq τ] (hcareful : registry.PortCareful claim dateParse operation) :
    (registry.step dateParse operation).PortsApart claim := by
  have hchange := step_change dateParse registry operation
  generalize registry.step dateParse operation = result at hchange
  cases hchange with
  | addComposeAttachment attachment _ haccepts => exact hapart.set (hcareful haccepts)
  | updateComposeAttachment attachment haccepts => exact hapart.set (hcareful haccepts)
  | removeComposeAttachment attachmentId =>
    exact hapart.subset fun entry hentry => (InsertionMap.mem_delete.mp hentry).1
  | removeNetwork networkId => exact hapart.subset fun entry hentry => (InsertionMap.mem_filter.mp hentry).1
  | replacePersistedState state haccepts =>
    have hload : (registry.filled dateParse state).PortsApart claim := portsApart_filled_iff.mpr (hcareful haccepts)
    exact hload
  | _ => exact hapart

omit hapart

lemma Stores.portsFree {result : LogicalNetworkRegistry τ} (hstores : Stores registry result attachment)
    (hafter : result.PortsApart claim) : registry.PortsFree claim attachment := fun entry hentry hne =>
  hafter entry (hstores.others entry hentry hne) (attachment.id, attachment) hstores.stored hne

lemma portCareful_of_portsApart [DecidableEq τ] (hafter : (registry.step dateParse operation).PortsApart claim) :
    registry.PortCareful claim dateParse operation := by
  cases operation with
  | replacePersistedState state =>
    intro haccepts
    have hloaded : registry.step dateParse (.replacePersistedState state) = _ :=
      ((replacePersistedState_ends dateParse registry state).accepted haccepts).2
    rw [hloaded] at hafter
    have hfilled : (registry.filled dateParse state).PortsApart claim := hafter
    exact portsApart_filled_iff.mp hfilled
  | row operation =>
    unfold step perform performRow after at hafter
    cases operation with
    | addComposeAttachment attachment =>
      rw [Method.call_discard] at hafter
      exact fun haccepts => (stores_of_addComposeAttachment haccepts).portsFree hafter
    | updateComposeAttachment attachment =>
      rw [Method.call_discard] at hafter
      exact fun haccepts => (stores_of_updateComposeAttachment haccepts).portsFree hafter
    | _ => trivial
  | _ => trivial

end Ports

/-! ## Whole runs -/

def endpoint (port : ComposePublishedPort) : NetworkPortProtocol × Int := (port.protocol, port.logicalPort)

def LoadCareful (dateParse : List Nat → Option Int) (registry : LogicalNetworkRegistry τ) :
    RegistryOperation τ → Prop
  | .replacePersistedState state => rejects (replacePersistedState dateParse state) registry = false →
    LoadApart endpoint dateParse (state.composeAttachments.getD [])
  | _ => True

lemma ComposeFree.portsFree (hkept : registry.OwnersKept) (hfree : registry.ComposeFree attachment) :
    registry.PortsFree endpoint attachment := by
  intro entry hentry hne hnetwork port hport port' hport'
  exact hfree.ports (mem_map_of_mem hentry) (hkept.keyed entry hentry ▸ hne) hnetwork hport hport'

lemma portCareful_endpoint (hkept : registry.OwnersKept) (hload : registry.LoadCareful dateParse operation) :
    registry.PortCareful endpoint dateParse operation := by
  cases operation with
  | replacePersistedState state => exact hload
  | row operation =>
    cases operation with
    | addComposeAttachment attachment =>
      exact fun haccepts => (stores_of_addComposeAttachment haccepts).free.portsFree hkept
    | updateComposeAttachment attachment =>
      exact fun haccepts => (stores_of_updateComposeAttachment haccepts).free.portsFree hkept
    | _ => trivial
  | _ => trivial

lemma loadCareful_of_portCareful (hcareful : registry.PortCareful endpoint dateParse operation) :
    registry.LoadCareful dateParse operation := by
  cases operation with
  | replacePersistedState state => exact hcareful
  | _ => trivial

lemma ownersKept_constructed (transient : τ) (state : LogicalNetworkRegistryState) :
    (constructed dateParse transient state).OwnersKept :=
  constructed_induction ⟨fun _ ha => absurd ha not_mem_nil, fun _ hentry => absurd hentry not_mem_nil⟩
    fun _ _ => ownersKept_filled _ state

lemma portsApart_constructed_iff {κ : Type} {claim : ComposePublishedPort → κ} (transient : τ)
    (state : LogicalNetworkRegistryState) :
    (constructed dateParse transient state).PortsApart claim ↔
      (rejects (construct dateParse state) (empty transient) = false →
        LoadApart claim dateParse (state.composeAttachments.getD [])) := by
  constructor
  · intro hapart haccepts
    rw [constructed, ((construct_ends dateParse _ state).accepted haccepts).2] at hapart
    exact portsApart_filled_iff.mp hapart
  · intro hload
    refine constructed_induction (fun a ha => absurd ha not_mem_nil) fun haccepts _ => ?_
    exact portsApart_filled_iff.mpr (hload haccepts)

/-- After any document and any operations no owner key is held by two networks. No two attachments of a network ever
claim the same protocol and number exactly when no accepted document makes them; and no two ever claim the same
number exactly when, besides, no accepted addition or update does. -/
theorem compose_claims_apart [DecidableEq τ] (dateParse : List Nat → Option Int) (transient : τ)
    (state : LogicalNetworkRegistryState) (operations : List (RegistryOperation τ)) :
    (run (step dateParse) (constructed dateParse transient state) operations).OwnersApart ∧
    ((∀ done rest, operations = done ++ rest →
        (run (step dateParse) (constructed dateParse transient state) done).PortsApart endpoint) ↔
      (rejects (construct dateParse state) (empty transient) = false →
        LoadApart endpoint dateParse (state.composeAttachments.getD [])) ∧
      StepsMeet (step dateParse) (LoadCareful dateParse) (constructed dateParse transient state) operations) ∧
    ((∀ done rest, operations = done ++ rest →
        (run (step dateParse) (constructed dateParse transient state) done).PortsApart
          logicalPort) ↔
      (rejects (construct dateParse state) (empty transient) = false →
        LoadApart logicalPort dateParse (state.composeAttachments.getD [])) ∧
      StepsMeet (step dateParse) (PortCareful logicalPort dateParse)
        (constructed dateParse transient state) operations) := by
  have hkept : (constructed dateParse transient state).OwnersKept := ownersKept_constructed transient state
  refine ⟨?_, ?_, ?_⟩
  · have hrun : (run (step dateParse) (constructed dateParse transient state) operations).OwnersKept :=
      run_keeps (I := OwnersKept) (fun registry operation h => h.step operation) hkept operations
    exact hrun.ownersApart
  · rw [← portsApart_constructed_iff]
    refine forall_reached_iff_start fun hstart => ?_
    refine forall_reached_iff_of_invariant (J := fun reached => OwnersKept reached ∧ PortsApart endpoint reached)
      (fun registry h => h.2) ?_ ?_ ⟨hkept, hstart⟩
    · intro registry operation h hload
      exact ⟨h.1.step operation, h.2.step (portCareful_endpoint h.1 hload)⟩
    · intro registry operation h hafter
      exact loadCareful_of_portCareful (portCareful_of_portsApart hafter)
  · rw [← portsApart_constructed_iff]
    refine forall_reached_iff_start fun hstart => ?_
    refine forall_reached_iff (fun registry operation h => ?_) hstart
    exact ⟨portCareful_of_portsApart, h.step⟩

def sampleCompose (id project : String) : ComposeAttachment :=
  ⟨codes id, codes "network-a", codes project, none, [⟨5432, .tcp, []⟩], none, .attached, [], []⟩

/-- A document with two projects of one network that publish the same port is loaded as it is. -/
theorem loaded_ports_collide :
    ((constructed (fun _ => none) () ⟨[⟨codes "network-a", []⟩], [], [], none,
        some [sampleCompose "a" "first", sampleCompose "b" "second"]⟩).composeAttachments.values.map fun attachment =>
      (attachment.id, attachment.networkId, attachment.ports.map endpoint)) =
      [(codes "a", codes "network-a", [(.tcp, 5432)]), (codes "b", codes "network-a", [(.tcp, 5432)])] := by
  decide +kernel

end LogicalNetworkRegistry

end PortManager.Networks
