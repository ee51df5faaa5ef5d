import PortManager.Networks.RowIntegrity

/-!
# Addresses of the stored networks

The addresses of a network are hashed from its id, so that nothing but the checks of the registry keeps two networks
from sharing one. The checks are made before anything is written: what is stored has addresses of its own, and a
rejected document or network leaves no trace.
-/

namespace PortManager.Networks
open JsonText PortManager.Node Run InsertionMap List

namespace LogicalNetworkRegistry

variable {τ : Type} {dateParse : List Nat → Option Int} {registry : LogicalNetworkRegistry τ}

/-- Networks are stored under their ids, and those of different ids share no address. -/
structure AddressesKept (registry : LogicalNetworkRegistry τ) : Prop where
  disjoint : ∀ id ∈ registry.networks.keys, ∀ id' ∈ registry.networks.keys, id ≠ id' → AddressesDisjoint id id'
  keyed : ∀ entry ∈ registry.networks.entries, entry.1 = entry.2.id

lemma addressesKept_empty (transient : τ) : (empty transient).AddressesKept where
  disjoint := fun _ hid => absurd hid not_mem_nil
  keyed := fun _ hentry => absurd hentry not_mem_nil

lemma AddressesKept.subset (hkept : registry.AddressesKept) {result : LogicalNetworkRegistry τ}
    (hsub : ∀ entry ∈ result.networks.entries, entry ∈ registry.networks.entries) : result.AddressesKept := by
  have hkeys : ∀ id ∈ result.networks.keys, id ∈ registry.networks.keys := by
    intro id hid
    obtain ⟨network, hentry⟩ := mem_keys_iff.mp hid
    exact mem_keys_iff.mpr ⟨network, hsub _ hentry⟩
  exact ⟨fun id hid id' hid' => hkept.disjoint id (hkeys id hid) id' (hkeys id' hid'),
    fun entry hentry => hkept.keyed entry (hsub entry hentry)⟩

lemma AddressesKept.set (hkept : registry.AddressesKept) {network : LogicalNetwork}
    (hcollision : addressCollision network.id registry.networks.keys = none) :
    ({ registry with networks := registry.networks.set network.id network, cachedSnapshot := none } :
      LogicalNetworkRegistry τ).AddressesKept where
  disjoint := by
    have hnew : ∀ id ∈ registry.networks.keys, id ≠ network.id → AddressesDisjoint id network.id :=
      fun id hid hne => addressesDisjoint_of_no_collision hcollision hid hne
    intro id hid id' hid' hne
    rcases mem_keys_set.mp hid with rfl | hold
    · rcases mem_keys_set.mp hid' with rfl | hold'
      · exact absurd rfl hne
      · exact (hnew id' hold' hne.symm).symm
    · rcases mem_keys_set.mp hid' with rfl | hold'
      · exact hnew id hold hne
      · exact hkept.disjoint id hold id' hold' hne
  keyed := by
    intro entry hentry
    rcases InsertionMap.mem_set.mp hentry with rfl | ⟨hold, -⟩
    · rfl
    · exact hkept.keyed entry hold

lemma addressesKept_filled (registry : LogicalNetworkRegistry τ) {state : LogicalNetworkRegistryState}
    (hdistinct : NetworksDistinct state.networks) : (registry.filled dateParse state).AddressesKept where
  disjoint := by
    have hstored : ∀ id ∈ (registry.filled dateParse state).networks.keys, ∃ network ∈ state.networks, network.id = id := by
      intro id hid
      obtain ⟨network, hentry⟩ := mem_keys_iff.mp hid
      obtain ⟨hkey, before, after, hsplit, -⟩ := mem_storeAll.mp hentry
      exact ⟨network, hsplit ▸ mem_append_right before mem_cons_self, hkey.symm⟩
    intro id hid id' hid' hne
    obtain ⟨network, hnetwork, rfl⟩ := hstored id hid
    obtain ⟨network', hnetwork', rfl⟩ := hstored id' hid'
    have hsymm : Std.Symm fun a b : LogicalNetwork => a.id ≠ b.id → AddressesDisjoint a.id b.id :=
      ⟨fun a b h hne => (h hne.symm).symm⟩
    have hpairs : state.networks.Pairwise fun a b => a.id ≠ b.id → AddressesDisjoint a.id b.id :=
      hdistinct.imp fun h _ => h.2
    exact hpairs.forall hnetwork hnetwork' (fun heq => hne (congrArg _ heq)) hne
  keyed := fun entry hentry => (mem_storeAll.mp hentry).1

lemma AddressesKept.step [DecidableEq τ] (hkept : registry.AddressesKept) (operation : RegistryOperation τ) :
    (registry.step dateParse operation).AddressesKept := by
  have hchange := step_change dateParse registry operation
  generalize registry.step dateParse operation = result at hchange
  cases hchange with
  | addNetwork network _ hcollision => exact hkept.set hcollision
  | removeNetwork networkId => exact hkept.subset fun entry hentry => (mem_delete.mp hentry).1
  | replacePersistedState state _ hdistinct =>
    have hload : (registry.filled dateParse state).AddressesKept := addressesKept_filled registry hdistinct
    exact ⟨hload.disjoint, hload.keyed⟩
  | _ => exact ⟨hkept.disjoint, hkept.keyed⟩

lemma AddressesKept.apart (hkept : registry.AddressesKept) {a b : LogicalNetwork} (ha : a ∈ registry.networks.values)
    (hb : b ∈ registry.networks.values) {band band' : Band} (hne : (a, band) ≠ (b, band')) :
    band.address a.id ≠ band'.address b.id := by
  obtain ⟨entry, hentry, rfl⟩ := mem_map.mp ha
  obtain ⟨entry', hentry', rfl⟩ := mem_map.mp hb
  by_cases hband : band = band'
  · subst hband
    have hkey : entry.1 ≠ entry'.1 := by
      intro hsame
      exact hne (Prod.ext (value_unique hentry (hsame ▸ hentry')) rfl)
    have hdisjoint := hkept.disjoint entry.1 (mem_map_of_mem hentry) entry'.1 (mem_map_of_mem hentry') hkey
    rw [← hkept.keyed entry hentry, ← hkept.keyed entry' hentry']
    exact hdisjoint band band
  · exact address_ne_of_band_ne hband _ _

/-- In every registry reached no two addresses of the stored networks are equal, an allocated id has none of them,
and a rejected document or network leaves the registry, and what `getSnapshot` answers next, as they were. -/
theorem network_addresses_apart [DecidableEq τ] (dateParse : List Nat → Option Int) (transient : τ)
    (state : LogicalNetworkRegistryState) (operations : List (RegistryOperation τ)) :
    let reached := run (step dateParse) (constructed dateParse transient state) operations
    (∀ a ∈ reached.networks.values, ∀ b ∈ reached.networks.values, ∀ band band' : Band, (a, band) ≠ (b, band') →
      band.address a.id ≠ band'.address b.id) ∧
    (∀ createCandidate networkId,
      allocateNetworkIdWithUniqueAddresses (reached.networks.values.map LogicalNetwork.id) createCandidate =
        some networkId →
      (∀ network ∈ reached.networks.values, AddressesDisjoint network.id networkId) ∧
      ∀ band band' : Band, band ≠ band' → band.address networkId ≠ band'.address networkId) ∧
    (∀ loaded, rejects (replacePersistedState dateParse loaded) reached = true →
      after (replacePersistedState dateParse loaded) reached = reached ∧
      ∀ updatedAt, Method.call (getSnapshot updatedAt) (after (replacePersistedState dateParse loaded) reached) =
        Method.call (getSnapshot updatedAt) reached) ∧
    (∀ network, rejects (addNetwork network) reached = true →
      after (addNetwork network) reached = reached ∧
      ∀ updatedAt, Method.call (getSnapshot updatedAt) (after (addNetwork network) reached) =
        Method.call (getSnapshot updatedAt) reached) := by
  intro reached
  have hkept : reached.AddressesKept := by
    refine run_keeps (I := AddressesKept) (fun registry operation h => h.step operation) ?_ operations
    exact constructed_induction (addressesKept_empty transient) fun _ hdistinct => addressesKept_filled _ hdistinct
  refine ⟨fun a ha b hb band band' hne => hkept.apart ha hb hne, ?_, ?_, ?_⟩
  · intro createCandidate networkId hallocated
    refine ⟨fun network hnetwork => ?_, fun band band' hne => address_ne_of_band_ne hne _ _⟩
    exact addressesDisjoint_of_allocated hallocated (mem_map_of_mem hnetwork)
  · intro loaded hrejects
    have hsame := (replacePersistedState_performs dateParse reached loaded).rejected hrejects
    exact ⟨hsame, fun updatedAt => by rw [hsame]⟩
  · intro network hrejects
    have hsame := (addNetwork_performs dateParse reached network).rejected hrejects
    exact ⟨hsame, fun updatedAt => by rw [hsame]⟩

end LogicalNetworkRegistry

end PortManager.Networks
