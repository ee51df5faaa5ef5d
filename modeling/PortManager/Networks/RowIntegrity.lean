import PortManager.Base.Run
import PortManager.Networks.RegistryCalls

/-!
# Host exposures and references to networks

`addExposure` checks that no other exposure has the same protocol, address and port on the host, and every operation
that adds a row checks that its network exists. The updates check neither, and a loaded document is taken as it is.
So the exposures stay distinct exactly as long as no update and no document repeats the coordinates of another row
(`exposures_distinct_iff`), and every row refers to a stored network exactly as long as no update names another one
(`references_known_iff`).
-/

namespace PortManager.Networks
open JsonText PortManager.Node Run InsertionMap

namespace LogicalNetworkRegistry

variable {τ : Type} {dateParse : List Nat → Option Int} {registry : LogicalNetworkRegistry τ}

/-! ## Rows of a document -/

def LastOfId {υ : Type} (id : υ → List Nat) (rows : List υ) (row : υ) : Prop :=
  ∃ before after, rows = before ++ row :: after ∧ ∀ later ∈ after, id later ≠ id row

lemma mem_storeAll {υ : Type} {id : υ → List Nat} {rows : List υ} {entry : List Nat × υ} :
    entry ∈ (storeAll id rows).entries ↔ entry.1 = id entry.2 ∧ LastOfId id rows entry.2 := by
  -- storing rows is inserting them without conflicts
  have hstore : storeAll id rows = Eviction.insertAll id (fun _ _ => false) .empty rows := by
    unfold storeAll Eviction.insertAll
    congr 1
    funext stored row
    unfold Eviction.insert
    congr 1
    simp [filter]
  rw [hstore, Eviction.mem_insertAll]
  constructor
  · rintro (⟨hold, -⟩ | ⟨hkey, before, after, hsplit, hfree⟩)
    · cases hold
    · exact ⟨hkey, before, after, hsplit, fun later hlater hsame => hfree later hlater (.inl hsame)⟩
  · rintro ⟨hkey, before, after, hsplit, hfree⟩
    refine .inr ⟨hkey, before, after, hsplit, fun later hlater hclash => ?_⟩
    rcases hclash with hsame | hfalse
    · exact hfree later hlater hsame
    · cases hfalse

/-! ## Exposures -/

def ExposuresDistinct (registry : LogicalNetworkRegistry τ) : Prop :=
  ∀ a ∈ registry.exposures.entries, ∀ b ∈ registry.exposures.entries, a.2.coordinates = b.2.coordinates → a = b

/-- An update of a stored exposure takes the coordinates of no other one, and an accepted document has no two
exposures of the same coordinates, of which the last of each id count. -/
def ExposureCareful (dateParse : List Nat → Option Int) (registry : LogicalNetworkRegistry τ) :
    RegistryOperation τ → Prop
  | .row (.updateExposure exposure) => exposure.id ∈ registry.exposures.keys →
    ∀ entry ∈ registry.exposures.entries, entry.1 ≠ exposure.id → entry.2.coordinates ≠ exposure.coordinates
  | .replacePersistedState state => rejects (replacePersistedState dateParse state) registry = false →
    ∀ a b, LastOfId HostPortExposure.id state.exposures a → LastOfId HostPortExposure.id state.exposures b →
      a.coordinates = b.coordinates → a.id = b.id
  | _ => True

structure ExposuresKept (registry : LogicalNetworkRegistry τ) : Prop where
  distinct : registry.ExposuresDistinct
  keyed : ∀ entry ∈ registry.exposures.entries, entry.1 = entry.2.id

variable (hkept : registry.ExposuresKept)
include hkept

lemma ExposuresKept.set {exposure : HostPortExposure}
    (hfree : ∀ entry ∈ registry.exposures.entries, entry.1 ≠ exposure.id → entry.2.coordinates ≠ exposure.coordinates) :
    ({ registry with exposures := registry.exposures.set exposure.id exposure, cachedSnapshot := none } :
      LogicalNetworkRegistry τ).ExposuresKept where
  distinct := by
    intro a ha b hb hsame
    rcases mem_set.mp ha with rfl | ⟨holda, hnea⟩
    · rcases mem_set.mp hb with rfl | ⟨holdb, hneb⟩
      · rfl
      · exact absurd hsame.symm (hfree b holdb hneb)
    · rcases mem_set.mp hb with rfl | ⟨holdb, hneb⟩
      · exact absurd hsame (hfree a holda hnea)
      · exact hkept.distinct a holda b holdb hsame
  keyed := by
    intro entry hentry
    rcases mem_set.mp hentry with rfl | ⟨hold, -⟩
    · rfl
    · exact hkept.keyed entry hold

lemma ExposuresKept.subset {result : LogicalNetworkRegistry τ}
    (hsub : ∀ entry ∈ result.exposures.entries, entry ∈ registry.exposures.entries) : result.ExposuresKept :=
  ⟨fun a ha b hb => hkept.distinct a (hsub a ha) b (hsub b hb), fun entry hentry => hkept.keyed entry (hsub entry hentry)⟩

variable {operation : RegistryOperation τ}

lemma ExposuresKept.step [DecidableEq τ]
    (hcareful : registry.ExposureCareful dateParse operation) : (registry.step dateParse operation).ExposuresKept := by
  have hchange := step_change dateParse registry operation
  generalize registry.step dateParse operation = result at hchange
  cases hchange with
  | addExposure exposure _ hfree =>
    refine hkept.set fun entry hentry hne hsame => hfree ⟨entry.2, List.mem_map_of_mem hentry, ?_, hsame⟩
    exact hkept.keyed entry hentry ▸ hne
  | updateExposure exposure hknown => exact hkept.set (hcareful hknown)
  | removeExposure exposureId => exact hkept.subset fun entry hentry => (mem_delete.mp hentry).1
  | removeNetwork networkId => exact hkept.subset fun entry hentry => (mem_filter.mp hentry).1
  | replacePersistedState state haccepts =>
    have hrows := hcareful haccepts
    constructor
    · intro a ha b hb hsame
      obtain ⟨hkeya, hlasta⟩ := mem_storeAll.mp ha
      obtain ⟨hkeyb, hlastb⟩ := mem_storeAll.mp hb
      have hid := hrows a.2 b.2 hlasta hlastb hsame
      have hkey : a.1 = b.1 := by rw [hkeya, hkeyb, hid]
      exact Prod.ext hkey (value_unique ha (hkey ▸ hb))
    · exact fun entry hentry => (mem_storeAll.mp hentry).1
  | _ => exact ⟨hkept.distinct, hkept.keyed⟩

omit hkept

lemma step_updateExposure [DecidableEq τ] {exposure : HostPortExposure} (hknown : exposure.id ∈ registry.exposures.keys) :
    registry.step dateParse (.row (.updateExposure exposure)) =
      { registry with exposures := registry.exposures.set exposure.id exposure, cachedSnapshot := none } := by
  unfold step perform performRow after
  rw [Method.call_discard, call_updateExposure registry hknown]

lemma exposureCareful_of_distinct [DecidableEq τ] (hdistinct : (registry.step dateParse operation).ExposuresDistinct) :
    registry.ExposureCareful dateParse operation := by
  cases operation with
  | row operation =>
    cases operation with
    | updateExposure exposure =>
      intro hknown entry hentry hne hsame
      rw [step_updateExposure hknown] at hdistinct
      have hold : entry ∈ (registry.exposures.set exposure.id exposure).entries :=
        mem_set.mpr (.inr ⟨hentry, hne⟩)
      have hnew : (exposure.id, exposure) ∈ (registry.exposures.set exposure.id exposure).entries :=
        mem_set.mpr (.inl rfl)
      exact hne (congrArg Prod.fst (hdistinct entry hold (exposure.id, exposure) hnew hsame))
    | _ => trivial
  | replacePersistedState state =>
    intro haccepts a b hlasta hlastb hsame
    have hafter : registry.step dateParse (.replacePersistedState state) = _ :=
      ((replacePersistedState_ends dateParse registry state).accepted haccepts).2
    rw [hafter] at hdistinct
    have hentry := hdistinct (a.id, a) (mem_storeAll.mpr ⟨rfl, hlasta⟩) (b.id, b) (mem_storeAll.mpr ⟨rfl, hlastb⟩) hsame
    exact congrArg Prod.fst hentry
  | _ => trivial

/-- From the empty registry, no two stored exposures ever have the same protocol, host address and host port exactly
when every operation is careful. -/
theorem exposures_distinct_iff [DecidableEq τ] (dateParse : List Nat → Option Int) (transient : τ)
    (operations : List (RegistryOperation τ)) :
    (∀ done rest, operations = done ++ rest → (run (step dateParse) (empty transient) done).ExposuresDistinct) ↔
      StepsMeet (step dateParse) (ExposureCareful dateParse) (empty transient) operations := by
  refine forall_reached_iff_of_invariant (J := ExposuresKept) (fun _ hkept => hkept.distinct)
    (fun registry operation hkept hcareful => hkept.step hcareful)
    (fun registry operation _ hdistinct => exposureCareful_of_distinct hdistinct) ?_
  exact ⟨fun a ha => absurd ha List.not_mem_nil, fun entry hentry => absurd hentry List.not_mem_nil⟩

def sampleNetwork : LogicalNetwork := ⟨codes "network-a", []⟩

def sampleExposure (id : String) (hostPort : Int) : HostPortExposure :=
  ⟨codes id, codes "network-a", codes "127.0.0.1", hostPort, .tcp, []⟩

/-- An update moves the second exposure to the port of the first one. -/
theorem updated_exposure_collides :
    ((run (step fun _ => none) (empty ()) [.row (.addNetwork sampleNetwork),
        .row (.addExposure (sampleExposure "a" 8080)), .row (.addExposure (sampleExposure "b" 8081)),
        .row (.updateExposure (sampleExposure "b" 8080))]).exposures.values.map fun exposure =>
      (exposure.id, exposure.coordinates)) =
      [(codes "a", .tcp, codes "127.0.0.1", 8080), (codes "b", .tcp, codes "127.0.0.1", 8080)] := by
  decide +kernel

/-! ## References -/

def Known {υ : Type} (networkId : υ → List Nat) (networks : InsertionMap (List Nat) LogicalNetwork)
    (rows : InsertionMap (List Nat) υ) : Prop := ∀ entry ∈ rows.entries, networkId entry.2 ∈ networks.keys

section Known

variable {υ : Type} {networkId : υ → List Nat} {networks : InsertionMap (List Nat) LogicalNetwork}
  {rows : InsertionMap (List Nat) υ}

variable (hknown : Known networkId networks rows)
include hknown

lemma Known.set {row : υ} (hrow : networkId row ∈ networks.keys)
    (id : List Nat) : Known networkId networks (rows.set id row) := by
  intro entry hentry
  rcases mem_set.mp hentry with rfl | ⟨hold, -⟩
  · exact hrow
  · exact hknown entry hold

lemma Known.delete (id : List Nat) : Known networkId networks (rows.delete id) :=
  fun entry hentry => hknown entry (mem_delete.mp hentry).1

lemma Known.grow (network : LogicalNetwork) : Known networkId (networks.set network.id network) rows :=
  fun entry hentry => mem_keys_set.mpr (.inr (hknown entry hentry))

lemma Known.cascade (id : List Nat) :
    Known networkId (networks.delete id) (rows.filter fun entry => networkId entry.2 ≠ id) := by
  intro entry hentry
  obtain ⟨hold, hother⟩ := mem_filter.mp hentry
  obtain ⟨network, hnetwork⟩ := mem_keys_iff.mp (hknown entry hold)
  exact mem_keys_iff.mpr ⟨network, mem_delete.mpr ⟨hnetwork, of_decide_eq_true hother⟩⟩

omit hknown

end Known

structure ReferencesKnown (registry : LogicalNetworkRegistry τ) : Prop where
  attachments : Known TerminalAttachment.networkId registry.networks registry.attachments
  exposures : Known HostPortExposure.networkId registry.networks registry.exposures
  hostAccessBindings : Known HostAccessBinding.networkId registry.networks registry.hostAccessBindings
  composeAttachments : Known ComposeAttachment.networkId registry.networks registry.composeAttachments

def stepRow (registry : LogicalNetworkRegistry τ) (operation : RowOperation) : LogicalNetworkRegistry τ :=
  after (performRow operation) registry

def ReferenceCareful (registry : LogicalNetworkRegistry τ) : RowOperation → Prop
  | .updateExposure exposure => rejects (updateExposure exposure) registry = false →
    exposure.networkId ∈ registry.networks.keys
  | .updateComposeAttachment attachment => rejects (updateComposeAttachment attachment) registry = false →
    attachment.networkId ∈ registry.networks.keys
  | _ => True

lemma ReferencesKnown.step [DecidableEq τ] (hknown : registry.ReferencesKnown) {operation : RowOperation}
    (hcareful : registry.ReferenceCareful operation) : (registry.stepRow operation).ReferencesKnown := by
  have hchange := step_change (fun _ => none) registry (.row operation)
  change Change _ registry (.row operation) (registry.stepRow operation) at hchange
  generalize registry.stepRow operation = result at hchange
  cases hchange with
  | same => exact { hknown with }
  | addNetwork network =>
    exact ⟨hknown.attachments.grow network, hknown.exposures.grow network, hknown.hostAccessBindings.grow network,
      hknown.composeAttachments.grow network⟩
  | removeNetwork networkId =>
    exact ⟨hknown.attachments.cascade networkId, hknown.exposures.cascade networkId,
      hknown.hostAccessBindings.cascade networkId, hknown.composeAttachments.cascade networkId⟩
  | addAttachment attachment hnetwork =>
    refine { hknown with attachments := fun entry hentry => ?_ }
    rcases Eviction.mem_insert.mp hentry with rfl | ⟨hold, -⟩
    · exact hnetwork
    · exact hknown.attachments entry hold
  | removeAttachment attachmentId =>
    exact { hknown with attachments := hknown.attachments.delete attachmentId }
  | addExposure exposure hnetwork =>
    exact { hknown with exposures := hknown.exposures.set hnetwork _ }
  | updateExposure exposure hstored =>
    have hnetwork := hcareful (by rw [rejects, call_updateExposure registry hstored])
    exact { hknown with exposures := hknown.exposures.set hnetwork _ }
  | removeExposure exposureId =>
    exact { hknown with exposures := hknown.exposures.delete exposureId }
  | addHostAccessBinding binding hnetwork =>
    exact { hknown with hostAccessBindings := hknown.hostAccessBindings.set hnetwork _ }
  | removeHostAccessBinding bindingId =>
    exact { hknown with hostAccessBindings := hknown.hostAccessBindings.delete bindingId }
  | addComposeAttachment attachment hnetwork =>
    exact { hknown with composeAttachments := hknown.composeAttachments.set hnetwork _ }
  | updateComposeAttachment attachment haccepts =>
    exact { hknown with composeAttachments := hknown.composeAttachments.set (hcareful haccepts) _ }
  | removeComposeAttachment attachmentId =>
    exact { hknown with composeAttachments := hknown.composeAttachments.delete attachmentId }

lemma referenceCareful_of_known {operation : RowOperation} (hknown : (registry.stepRow operation).ReferencesKnown) :
    registry.ReferenceCareful operation := by
  unfold stepRow performRow after at hknown
  cases operation with
  | updateExposure exposure =>
    intro haccepts
    rw [Method.call_discard] at hknown
    have hafter : after (updateExposure exposure) registry = _ :=
      ((updateExposure_ends registry exposure).accepted haccepts).2
    rw [← after, hafter] at hknown
    exact hknown.exposures (exposure.id, exposure) (mem_set.mpr (.inl rfl))
  | updateComposeAttachment attachment =>
    intro haccepts
    rw [Method.call_discard] at hknown
    have hstores := stores_of_updateComposeAttachment haccepts
    exact hstores.networks ▸ hknown.composeAttachments _ hstores.stored
  | _ => trivial

/-- From the empty registry, every attachment, exposure and binding always refers to a stored network exactly when
every accepted update names one. -/
theorem references_known_iff [DecidableEq τ] (transient : τ) (operations : List RowOperation) :
    (∀ done rest, operations = done ++ rest → (run stepRow (empty transient) done).ReferencesKnown) ↔
      StepsMeet stepRow ReferenceCareful (empty transient) operations := by
  refine forall_reached_iff (fun registry operation hknown => ?_) ?_
  · exact ⟨referenceCareful_of_known, hknown.step⟩
  · exact ⟨fun entry hentry => absurd hentry List.not_mem_nil, fun entry hentry => absurd hentry List.not_mem_nil,
      fun entry hentry => absurd hentry List.not_mem_nil, fun entry hentry => absurd hentry List.not_mem_nil⟩

/-- An update moves an exposure to a network that is not there. -/
theorem updated_exposure_dangles :
    ¬ (run stepRow (empty ()) [.addNetwork sampleNetwork, .addExposure (sampleExposure "a" 8080),
      .updateExposure { sampleExposure "a" 8080 with networkId := codes "network-b" }]).ReferencesKnown := by
  intro hknown
  have hdangling : ∃ entry ∈ (run stepRow (empty ()) [.addNetwork sampleNetwork,
      .addExposure (sampleExposure "a" 8080),
      .updateExposure { sampleExposure "a" 8080 with networkId := codes "network-b" }]).exposures.entries,
      entry.2.networkId ∉ (run stepRow (empty ()) [.addNetwork sampleNetwork,
        .addExposure (sampleExposure "a" 8080),
        .updateExposure { sampleExposure "a" 8080 with networkId := codes "network-b" }]).networks.keys := by
    decide +kernel
  obtain ⟨entry, hentry, hmissing⟩ := hdangling
  exact hmissing (hknown.exposures entry hentry)

end LogicalNetworkRegistry

end PortManager.Networks
