import PortManager.Networks.Registry

/-!
# What the methods of the registry do

What an operation can do to the tables, with what its checks have found, and one lemma for each method: a call that is
rejected changes nothing, and a call that is accepted does what its operation can do.
-/

namespace PortManager.Networks
open JsonText PortManager.Node List Method InsertionMap

namespace LogicalNetworkRegistry

variable {τ : Type}

/-! ## What an operation does to the tables -/

/-- The two checks of an attachment pass. -/
def ComposeFree (registry : LogicalNetworkRegistry τ) (attachment : ComposeAttachment) : Prop :=
  portConflict? registry.composeAttachments.values attachment = none ∧
    ownerConflict? registry.composeAttachments.values attachment = none

def NetworksDistinct (networks : List LogicalNetwork) : Prop :=
  networks.Pairwise fun a b => a.id ≠ b.id ∧ AddressesDisjoint a.id b.id

/-- What an operation can do: leave the tables alone, or make one change with what its checks have found. -/
inductive Change (dateParse : List Nat → Option Int) (registry : LogicalNetworkRegistry τ) :
    RegistryOperation τ → LogicalNetworkRegistry τ → Prop
  | same (operation : RegistryOperation τ) (transient : τ) (cachedSnapshot : Option (NetworkSnapshot τ)) :
    Change dateParse registry operation { registry with transient := transient, cachedSnapshot := cachedSnapshot }
  | addNetwork (network : LogicalNetwork) (hnew : network.id ∉ registry.networks.keys)
      (hcollision : addressCollision network.id registry.networks.keys = none) :
    Change dateParse registry (.row (.addNetwork network))
      { registry with networks := registry.networks.set network.id network, cachedSnapshot := none }
  | removeNetwork (networkId : List Nat) :
    Change dateParse registry (.row (.removeNetwork networkId))
      { registry with
        networks := registry.networks.delete networkId
        attachments := registry.attachments.filter fun entry => entry.2.networkId ≠ networkId
        exposures := registry.exposures.filter fun entry => entry.2.networkId ≠ networkId
        hostAccessBindings := registry.hostAccessBindings.filter fun entry => entry.2.networkId ≠ networkId
        composeAttachments := registry.composeAttachments.filter fun entry => entry.2.networkId ≠ networkId
        cachedSnapshot := none }
  | addAttachment (attachment : TerminalAttachment) (hnetwork : attachment.networkId ∈ registry.networks.keys) :
    Change dateParse registry (.row (.addAttachment attachment))
      { registry with attachments := setAttachment registry.attachments attachment, cachedSnapshot := none }
  | removeAttachment (attachmentId : List Nat) :
    Change dateParse registry (.row (.removeAttachment attachmentId))
      { registry with attachments := registry.attachments.delete attachmentId, cachedSnapshot := none }
  | addExposure (exposure : HostPortExposure) (hnetwork : exposure.networkId ∈ registry.networks.keys)
      (hfree : ¬ ∃ item ∈ registry.exposures.values, item.id ≠ exposure.id ∧ item.coordinates = exposure.coordinates) :
    Change dateParse registry (.row (.addExposure exposure))
      { registry with exposures := registry.exposures.set exposure.id exposure, cachedSnapshot := none }
  | updateExposure (exposure : HostPortExposure) (hknown : exposure.id ∈ registry.exposures.keys) :
    Change dateParse registry (.row (.updateExposure exposure))
      { registry with exposures := registry.exposures.set exposure.id exposure, cachedSnapshot := none }
  | removeExposure (exposureId : List Nat) :
    Change dateParse registry (.row (.removeExposure exposureId))
      { registry with exposures := registry.exposures.delete exposureId, cachedSnapshot := none }
  | addHostAccessBinding (binding : HostAccessBinding) (hnetwork : binding.networkId ∈ registry.networks.keys) :
    Change dateParse registry (.row (.addHostAccessBinding binding))
      { registry with
        hostAccessBindings := registry.hostAccessBindings.set binding.id binding
        cachedSnapshot := none }
  | removeHostAccessBinding (bindingId : List Nat) :
    Change dateParse registry (.row (.removeHostAccessBinding bindingId))
      { registry with hostAccessBindings := registry.hostAccessBindings.delete bindingId, cachedSnapshot := none }
  | addComposeAttachment (attachment : ComposeAttachment) (hnetwork : attachment.networkId ∈ registry.networks.keys)
      (haccepts : rejects (addComposeAttachment attachment) registry = false)
      (hfree : ComposeFree registry attachment) :
    Change dateParse registry (.row (.addComposeAttachment attachment))
      { registry with
        composeAttachments := registry.composeAttachments.set attachment.id attachment
        cachedSnapshot := none }
  | updateComposeAttachment (attachment : ComposeAttachment)
      (haccepts : rejects (updateComposeAttachment attachment) registry = false)
      (hfree : ComposeFree registry attachment) :
    Change dateParse registry (.row (.updateComposeAttachment attachment))
      { registry with
        composeAttachments := registry.composeAttachments.set attachment.id attachment
        cachedSnapshot := none }
  | removeComposeAttachment (attachmentId : List Nat) :
    Change dateParse registry (.row (.removeComposeAttachment attachmentId))
      { registry with composeAttachments := registry.composeAttachments.delete attachmentId, cachedSnapshot := none }
  | replacePersistedState (state : LogicalNetworkRegistryState)
      (haccepts : rejects (replacePersistedState dateParse state) registry = false)
      (hdistinct : NetworksDistinct state.networks) :
    Change dateParse registry (.replacePersistedState state)
      { registry.filled dateParse state with cachedSnapshot := none }

/-- A call of the method that is rejected changes nothing, and every call does what the operation can do. -/
structure Performs (dateParse : List Nat → Option Int) (registry : LogicalNetworkRegistry τ)
    (operation : RegistryOperation τ) {α : Type} (method : RegistryM τ α) : Prop where
  rejected : rejects method registry = true → after method registry = registry
  change : Change dateParse registry operation (after method registry)

section Methods

variable {dateParse : List Nat → Option Int} {registry result : LogicalNetworkRegistry τ}
  {operation : RegistryOperation τ} {α : Type} {method : RegistryM τ α} {a : α} {facts : Prop}

lemma Performs.same (h : (call method registry).2 = registry) : Performs dateParse registry operation method := by
  refine ⟨fun _ => h, ?_⟩
  rw [after, h]
  exact .same operation registry.transient registry.cachedSnapshot

lemma Performs.changed (h : ∃ a, call method registry = (.ok a, result))
    (hchange : Change dateParse registry operation result) : Performs dateParse registry operation method := by
  obtain ⟨a, hok⟩ := h
  refine ⟨fun hrejects => ?_, ?_⟩
  · rw [rejects, hok] at hrejects
    cases hrejects
  · rw [after, hok]
    exact hchange

/-- A method that throws, or finds the facts and makes the change. -/
def Ends (method : RegistryM τ α) (registry : LogicalNetworkRegistry τ) (facts : Prop) (a : α)
    (result : LogicalNetworkRegistry τ) : Prop :=
  (∃ e, Method.call method registry = (.error e, registry)) ∨ facts ∧ Method.call method registry = (.ok a, result)

lemma Ends.accepted (h : Ends method registry facts a result) (haccepts : rejects method registry = false) :
    facts ∧ after method registry = result := by
  rcases h with ⟨e, herror⟩ | ⟨hfacts, hok⟩
  · rw [rejects, herror] at haccepts
    cases haccepts
  · exact ⟨hfacts, by rw [after, hok]⟩

lemma Ends.performs (h : Ends method registry facts a result)
    (hchange : rejects method registry = false → facts → Change dateParse registry operation result) :
    Performs dateParse registry operation method := by
  rcases h with ⟨e, herror⟩ | ⟨hfacts, hok⟩
  · exact .same (by rw [herror])
  · exact .changed ⟨a, hok⟩ (hchange (by rw [rejects, hok]) hfacts)

variable (dateParse) (registry)

lemma addNetwork_performs (network : LogicalNetwork) :
    Performs dateParse registry (.row (.addNetwork network)) (addNetwork network) := by
  by_cases hkey : networkStorageKey network.id = none
  · exact .same (by simp [addNetwork, hkey])
  by_cases hempty : network.id = []
  · -- an empty id has no storage key
    exact absurd (by rw [hempty]; rfl) hkey
  by_cases hknown : network.id ∈ registry.networks.keys
  · exact .same (by simp [addNetwork, hkey, hempty, hknown])
  cases hcollision : addressCollision network.id registry.networks.keys with
  | some collision => exact .same (by simp [addNetwork, hkey, hempty, hknown, hcollision])
  | none =>
    exact .changed (by simp [addNetwork, emitChange, hkey, hempty, hknown, hcollision])
      (.addNetwork network hknown hcollision)

lemma removeNetwork_performs (networkId : List Nat) :
    Performs dateParse registry (.row (.removeNetwork networkId)) (removeNetwork networkId) := by
  cases hnetwork : registry.networks.get? networkId with
  | none => exact .same (by simp [removeNetwork, hnetwork])
  | some network => exact .changed (by simp [removeNetwork, emitChange, hnetwork]) (.removeNetwork networkId)

lemma addAttachment_performs (attachment : TerminalAttachment) :
    Performs dateParse registry (.row (.addAttachment attachment)) (addAttachment attachment) := by
  by_cases hnetwork : attachment.networkId ∈ registry.networks.keys
  · exact .changed (by simp [addAttachment, emitChange, hnetwork]) (.addAttachment attachment hnetwork)
  · exact .same (by simp [addAttachment, hnetwork])

lemma removeAttachment_performs (attachmentId : List Nat) :
    Performs dateParse registry (.row (.removeAttachment attachmentId)) (removeAttachment attachmentId) := by
  cases hattachment : registry.attachments.get? attachmentId with
  | none => exact .same (by simp [removeAttachment, hattachment])
  | some attachment =>
    exact .changed (by simp [removeAttachment, emitChange, hattachment]) (.removeAttachment attachmentId)

lemma addExposure_performs (exposure : HostPortExposure) :
    Performs dateParse registry (.row (.addExposure exposure)) (addExposure exposure) := by
  by_cases hnetwork : exposure.networkId ∈ registry.networks.keys
  · by_cases hconflict : ∃ item ∈ registry.exposures.values, item.id ≠ exposure.id ∧
        item.coordinates = exposure.coordinates
    · exact .same (by simp [addExposure, hnetwork, hconflict])
    · exact .changed (by simp [addExposure, emitChange, hnetwork, hconflict]) (.addExposure exposure hnetwork hconflict)
  · exact .same (by simp [addExposure, hnetwork])

lemma call_updateExposure {exposure : HostPortExposure} (hknown : exposure.id ∈ registry.exposures.keys) :
    call (updateExposure exposure) registry = (.ok exposure,
      { registry with exposures := registry.exposures.set exposure.id exposure, cachedSnapshot := none }) := by
  simp [updateExposure, emitChange, hknown]

lemma updateExposure_ends (exposure : HostPortExposure) :
    Ends (updateExposure exposure) registry (exposure.id ∈ registry.exposures.keys) exposure
      { registry with exposures := registry.exposures.set exposure.id exposure, cachedSnapshot := none } := by
  by_cases hknown : exposure.id ∈ registry.exposures.keys
  · exact .inr ⟨hknown, call_updateExposure registry hknown⟩
  · exact .inl ⟨.unknownExposure exposure.id, by simp [updateExposure, hknown]⟩

lemma removeExposure_performs (exposureId : List Nat) :
    Performs dateParse registry (.row (.removeExposure exposureId)) (removeExposure exposureId) := by
  cases hexposure : registry.exposures.get? exposureId with
  | none => exact .same (by simp [removeExposure, hexposure])
  | some exposure => exact .changed (by simp [removeExposure, emitChange, hexposure]) (.removeExposure exposureId)

lemma addHostAccessBinding_performs (binding : HostAccessBinding) :
    Performs dateParse registry (.row (.addHostAccessBinding binding)) (addHostAccessBinding binding) := by
  by_cases hnetwork : binding.networkId ∈ registry.networks.keys
  · by_cases hconflict : ∃ item ∈ registry.hostAccessBindings.values, ((item.id ≠ binding.id ∧
        item.networkId = binding.networkId) ∧ item.protocol = binding.protocol) ∧ item.logicalPort = binding.logicalPort
    · exact .same (by simp [addHostAccessBinding, hnetwork, hconflict])
    · exact .changed (by simp [addHostAccessBinding, emitChange, hnetwork, hconflict])
        (.addHostAccessBinding binding hnetwork)
  · exact .same (by simp [addHostAccessBinding, hnetwork])

lemma removeHostAccessBinding_performs (bindingId : List Nat) :
    Performs dateParse registry (.row (.removeHostAccessBinding bindingId)) (removeHostAccessBinding bindingId) := by
  cases hbinding : registry.hostAccessBindings.get? bindingId with
  | none => exact .same (by simp [removeHostAccessBinding, hbinding])
  | some binding =>
    exact .changed (by simp [removeHostAccessBinding, emitChange, hbinding]) (.removeHostAccessBinding bindingId)

lemma removeComposeAttachment_performs (attachmentId : List Nat) :
    Performs dateParse registry (.row (.removeComposeAttachment attachmentId)) (removeComposeAttachment attachmentId) := by
  cases hattachment : registry.composeAttachments.get? attachmentId with
  | none => exact .same (by simp [removeComposeAttachment, hattachment])
  | some attachment =>
    exact .changed (by simp [removeComposeAttachment, emitChange, hattachment]) (.removeComposeAttachment attachmentId)

lemma setTransient_performs [DecidableEq τ] (transient : τ) :
    Performs dateParse registry (.setTransient transient) (setTransient transient) := by
  by_cases hsame : registry.transient = transient
  · exact .same (by simp [setTransient, hsame])
  · exact .changed (by simp [setTransient, emitChange, hsame]) (.same _ transient none)

section Compose

variable (attachment : ComposeAttachment)

lemma composeChecks : (∃ e, call (ensureNoComposePortConflict attachment) registry = (.error e, registry)) ∨
    (call (ensureNoComposePortConflict attachment) registry = (.ok (), registry) ∧
      ((∃ e, call (ensureNoComposeRuntimeOwnerConflict attachment) registry = (.error e, registry)) ∨
       (call (ensureNoComposeRuntimeOwnerConflict attachment) registry = (.ok (), registry) ∧
        ComposeFree registry attachment))) := by
  cases hduplicate : duplicatePort? [] attachment.ports with
  | some port => exact .inl ⟨.duplicatePort port.logicalPort, by simp [ensureNoComposePortConflict, hduplicate]⟩
  | none =>
    cases hport : portConflict? registry.composeAttachments.values attachment with
    | some port => exact .inl ⟨.routeExists port.logicalPort, by simp [ensureNoComposePortConflict, hduplicate, hport]⟩
    | none =>
      refine .inr ⟨by simp [ensureNoComposePortConflict, hduplicate, hport], ?_⟩
      cases howner : ownerConflict? registry.composeAttachments.values attachment with
      | some ownerKey => exact .inl ⟨.ownerElsewhere ownerKey, by simp [ensureNoComposeRuntimeOwnerConflict, howner]⟩
      | none => exact .inr ⟨by simp [ensureNoComposeRuntimeOwnerConflict, howner], hport, howner⟩

lemma addComposeAttachment_ends :
    Ends (addComposeAttachment attachment) registry
      (attachment.networkId ∈ registry.networks.keys ∧ ComposeFree registry attachment) attachment
      { registry with
        composeAttachments := registry.composeAttachments.set attachment.id attachment
        cachedSnapshot := none } := by
  by_cases hnetwork : attachment.networkId ∈ registry.networks.keys
  · by_cases hknown : attachment.id ∈ registry.composeAttachments.keys
    · exact .inl ⟨.composeExists attachment.id, by simp [addComposeAttachment, hnetwork, hknown]⟩
    rcases composeChecks registry attachment with ⟨e, hport⟩ | ⟨hport, ⟨e, howner⟩ | ⟨howner, hfree⟩⟩
    · exact .inl ⟨e, by simp [addComposeAttachment, hnetwork, hknown, call_bind_error hport]⟩
    · refine .inl ⟨e, ?_⟩
      simp [addComposeAttachment, hnetwork, hknown, call_bind_ok hport, call_bind_error howner]
    · refine .inr ⟨⟨hnetwork, hfree⟩, ?_⟩
      simp [addComposeAttachment, emitChange, hnetwork, hknown, call_bind_ok hport, call_bind_ok howner]
  · exact .inl ⟨.unknownNetwork attachment.networkId, by simp [addComposeAttachment, hnetwork]⟩

lemma updateComposeAttachment_cases :
    (∃ e, call (updateComposeAttachment attachment) registry = (.error e, registry)) ∨
    (ComposeFree registry attachment ∧
      ((attachment.id, attachment) ∈ registry.composeAttachments.entries ∧
        call (updateComposeAttachment attachment) registry = (.ok attachment, registry) ∨
      call (updateComposeAttachment attachment) registry = (.ok attachment,
        { registry with
          composeAttachments := registry.composeAttachments.set attachment.id attachment
          cachedSnapshot := none }))) := by
  cases hcurrent : registry.composeAttachments.get? attachment.id with
  | none => exact .inl ⟨.unknownCompose attachment.id, by simp [updateComposeAttachment, hcurrent]⟩
  | some current =>
    rcases composeChecks registry attachment with ⟨e, hport⟩ | ⟨hport, ⟨e, howner⟩ | ⟨howner, hfree⟩⟩
    · exact .inl ⟨e, by simp [updateComposeAttachment, hcurrent, call_bind_error hport]⟩
    · refine .inl ⟨e, ?_⟩
      simp [updateComposeAttachment, hcurrent, call_bind_ok hport, call_bind_error howner]
    refine .inr ⟨hfree, ?_⟩
    by_cases hsame : current = attachment
    · subst hsame
      refine .inl ⟨get?_eq_some_iff.mp hcurrent, ?_⟩
      rw [updateComposeAttachment, call_get_bind, hcurrent]
      dsimp only
      rw [call_bind_ok hport, call_bind_ok howner, if_pos rfl]
      rfl
    · refine .inr ?_
      simp [updateComposeAttachment, emitChange, hcurrent, call_bind_ok hport, call_bind_ok howner,
        hsame]

/-- What an accepted attachment finds and leaves: the row is free, and stored beside the others. -/
structure Stores (registry result : LogicalNetworkRegistry τ) (attachment : ComposeAttachment) : Prop where
  free : registry.ComposeFree attachment
  stored : (attachment.id, attachment) ∈ result.composeAttachments.entries
  others : ∀ entry ∈ registry.composeAttachments.entries, entry.1 ≠ attachment.id →
    entry ∈ result.composeAttachments.entries
  networks : result.networks = registry.networks

variable {registry attachment}

lemma ComposeFree.stores (hfree : registry.ComposeFree attachment) :
    Stores registry { registry with
      composeAttachments := registry.composeAttachments.set attachment.id attachment
      cachedSnapshot := none } attachment where
  free := hfree
  stored := mem_set.mpr (.inl rfl)
  others := fun _ hentry hne => mem_set.mpr (.inr ⟨hentry, hne⟩)
  networks := rfl

lemma stores_of_addComposeAttachment (haccepts : rejects (addComposeAttachment attachment) registry = false) :
    Stores registry (after (addComposeAttachment attachment) registry) attachment := by
  obtain ⟨⟨-, hfree⟩, hafter⟩ := (addComposeAttachment_ends registry attachment).accepted haccepts
  rw [hafter]
  exact hfree.stores

lemma stores_of_updateComposeAttachment (haccepts : rejects (updateComposeAttachment attachment) registry = false) :
    Stores registry (after (updateComposeAttachment attachment) registry) attachment := by
  rcases updateComposeAttachment_cases registry attachment with ⟨e, herror⟩ | ⟨hfree, ⟨hstored, hidle⟩ | hok⟩
  · rw [rejects, herror] at haccepts
    cases haccepts
  · rw [after, hidle]
    exact ⟨hfree, hstored, fun _ hentry _ => hentry, rfl⟩
  · rw [after, hok]
    exact hfree.stores

end Compose

lemma validateBehind_cases (ids : List (List Nat)) (networks : List LogicalNetwork) :
    (∃ e, call (validateBehind ids networks) registry = (.error e, registry)) ∨
    (call (validateBehind ids networks) registry = (.ok (), registry) ∧ NetworksDistinct networks ∧
      ∀ network ∈ networks, ∀ id ∈ ids, id ≠ network.id ∧ AddressesDisjoint id network.id) := by
  induction networks generalizing ids with
  | nil => exact .inr ⟨rfl, List.Pairwise.nil, fun network hnetwork => absurd hnetwork not_mem_nil⟩
  | cons network networks ih =>
    by_cases hkey : networkStorageKey network.id = none
    · exact .inl ⟨.storageKey, by simp [validateBehind, hkey]⟩
    by_cases hknown : network.id = [] ∨ network.id ∈ ids
    · exact .inl ⟨.invalidIdentity network.id, by simp [validateBehind, hkey, hknown]⟩
    cases hcollision : addressCollision network.id ids with
    | some collision =>
      exact .inl ⟨.sharedAddress network.id collision, by simp [validateBehind, hkey, hknown, hcollision]⟩
    | none =>
      have hrest : call (validateBehind ids (network :: networks)) registry =
          call (validateBehind (ids ++ [network.id]) networks) registry := by
        simp [validateBehind, hkey, hknown, hcollision]
      rw [hrest]
      have hnew : ∀ id ∈ ids, id ≠ network.id ∧ AddressesDisjoint id network.id := by
        intro id hid
        have hne : id ≠ network.id := fun heq => hknown (.inr (heq ▸ hid))
        exact ⟨hne, addressesDisjoint_of_no_collision hcollision hid hne⟩
      rcases ih (ids ++ [network.id]) with herror | ⟨hcall, hdistinct, hbehind⟩
      · exact .inl herror
      refine .inr ⟨hcall, pairwise_cons.mpr ⟨fun other hother => ?_, hdistinct⟩, fun other hother id hid => ?_⟩
      · exact hbehind other hother network.id (mem_append_right _ mem_cons_self)
      rcases mem_cons.mp hother with rfl | hother
      · exact hnew id hid
      · exact hbehind other hother id (mem_append_left _ hid)

lemma replacePersistedState_ends (state : LogicalNetworkRegistryState) :
    Ends (replacePersistedState dateParse state) registry (NetworksDistinct state.networks) ()
      { registry.filled dateParse state with cachedSnapshot := none } := by
  rcases validateBehind_cases registry [] state.networks with ⟨e, herror⟩ | ⟨hvalid, hdistinct, -⟩
  · exact .inl ⟨e, call_bind_error herror _⟩
  refine .inr ⟨hdistinct, ?_⟩
  rw [replacePersistedState, validateNetworkIdentities, call_bind_ok hvalid]
  rfl

lemma construct_ends (state : LogicalNetworkRegistryState) :
    Ends (construct dateParse state) registry (NetworksDistinct state.networks) () (registry.filled dateParse state) := by
  rcases validateBehind_cases registry [] state.networks with ⟨e, herror⟩ | ⟨hvalid, hdistinct, -⟩
  · exact .inl ⟨e, call_bind_error herror _⟩
  refine .inr ⟨hdistinct, ?_⟩
  rw [construct, validateNetworkIdentities, call_bind_ok hvalid]
  rfl

lemma replacePersistedState_performs (state : LogicalNetworkRegistryState) :
    Performs dateParse registry (.replacePersistedState state) (replacePersistedState dateParse state) :=
  (replacePersistedState_ends dateParse registry state).performs (.replacePersistedState state)

lemma step_change [DecidableEq τ] (operation : RegistryOperation τ) :
    Change dateParse registry operation (step dateParse registry operation) := by
  cases operation with
  | replacePersistedState state => exact (replacePersistedState_performs dateParse registry state).change
  | setTransient transient => exact (setTransient_performs dateParse registry transient).change
  | getSnapshot updatedAt =>
    unfold step perform after
    rw [call_discard]
    unfold getSnapshot
    rw [call_get_bind]
    split
    · exact .same _ registry.transient registry.cachedSnapshot
    · exact .same _ registry.transient _
  | row operation =>
    unfold step perform performRow after
    cases operation <;> rw [call_discard]
    case addNetwork network => exact (addNetwork_performs dateParse registry network).change
    case removeNetwork networkId => exact (removeNetwork_performs dateParse registry networkId).change
    case addAttachment attachment => exact (addAttachment_performs dateParse registry attachment).change
    case removeAttachment attachmentId => exact (removeAttachment_performs dateParse registry attachmentId).change
    case addExposure exposure => exact (addExposure_performs dateParse registry exposure).change
    case updateExposure exposure =>
      exact ((updateExposure_ends registry exposure).performs fun _ => .updateExposure exposure).change
    case removeExposure exposureId => exact (removeExposure_performs dateParse registry exposureId).change
    case addHostAccessBinding binding => exact (addHostAccessBinding_performs dateParse registry binding).change
    case removeHostAccessBinding bindingId => exact (removeHostAccessBinding_performs dateParse registry bindingId).change
    case addComposeAttachment attachment =>
      exact ((addComposeAttachment_ends registry attachment).performs fun haccepts hfacts =>
        .addComposeAttachment attachment hfacts.1 haccepts hfacts.2).change
    case updateComposeAttachment attachment =>
      rcases updateComposeAttachment_cases registry attachment with ⟨e, herror⟩ | ⟨hfree, ⟨-, hidle⟩ | hok⟩
      · exact (Performs.same (by rw [herror])).change
      · exact (Performs.same (by rw [hidle])).change
      · exact (Performs.changed ⟨_, hok⟩ (.updateComposeAttachment attachment (by rw [rejects, hok]) hfree)).change
    case removeComposeAttachment attachmentId =>
      exact (removeComposeAttachment_performs dateParse registry attachmentId).change

end Methods

/-! ## The registry of a constructor -/

def constructed (dateParse : List Nat → Option Int) (transient : τ) (state : LogicalNetworkRegistryState) :
    LogicalNetworkRegistry τ := after (construct dateParse state) (empty transient)

lemma constructed_induction {P : LogicalNetworkRegistry τ → Prop} {dateParse : List Nat → Option Int} {transient : τ}
    {state : LogicalNetworkRegistryState} (hempty : P (empty transient))
    (hfilled : rejects (construct dateParse state) (empty transient) = false → NetworksDistinct state.networks →
      P ((empty transient).filled dateParse state)) : P (constructed dateParse transient state) := by
  unfold constructed after
  rcases construct_ends dateParse (empty transient) state with ⟨e, herror⟩ | ⟨hdistinct, hok⟩
  · rw [herror]
    exact hempty
  · rw [hok]
    exact hfilled (by rw [rejects, hok]) hdistinct

end LogicalNetworkRegistry

end PortManager.Networks
