import PortManager.Node.Registry

/-!
# Loopback addresses of networks

Embeds the addresses of a logical network and their allocator (`src/core/networks/loopback-address.ts`). Each
network has three addresses that are hashed from its id, one in each band; the global network has three fixed ones.
Addresses of different bands are never equal (`address_ne_of_band_ne`), so two networks collide in one band or not
at all.
-/

namespace PortManager.Networks
open JsonText PortManager.Node List

def GLOBAL_LOGICAL_NETWORK_ID : List Nat := codes "network-global"

variable (networkId : List Nat)

def isGlobalNetworkId : Bool := networkId = GLOBAL_LOGICAL_NETWORK_ID

def fnv1a32 (value : List Nat) : UInt32 :=
  value.foldl (fun hash c => (hash ^^^ UInt32.ofNat c) * 0x01000193) 0x811c9dc5

def addressText (second third fourth : Nat) : List Nat :=
  codes "127." ++ decimal second ++ 46 :: decimal third ++ 46 :: decimal fourth

inductive Band where
  | network | browser | hostLocal
deriving DecidableEq

namespace Band

def base : Band → Nat
  | network => 80
  | browser => 112
  | hostLocal => 144

/-- What is hashed in front of the id. -/
def salt : Band → List Nat
  | network => []
  | browser => codes "browser:"
  | hostLocal => codes "host-local:"

def globalOctet : Band → Nat
  | network => 0
  | browser => 1
  | hostLocal => 2

def address (band : Band) (networkId : List Nat) : List Nat :=
  if isGlobalNetworkId networkId then addressText 1 band.globalOctet 1
  else
    let hash := (fnv1a32 (band.salt ++ networkId)).toNat
    addressText (band.base + hash % 32) (hash / 256 % 256) (1 + hash / 65536 % 254)

end Band

def loopbackAddressForNetwork : List Nat := Band.network.address networkId

def browserLoopbackAddressForNetwork : List Nat := Band.browser.address networkId

def hostLocalGatewayLoopbackAddressForNetwork : List Nat := Band.hostLocal.address networkId

def networkAddresses : List (List Nat) :=
  [loopbackAddressForNetwork networkId, browserLoopbackAddressForNetwork networkId,
    hostLocalGatewayLoopbackAddressForNetwork networkId]

variable {networkId id : List Nat} {existingIds : List (List Nat)}

lemma mem_networkAddresses {address : List Nat} :
    address ∈ networkAddresses networkId ↔ ∃ band : Band, address = band.address networkId := by
  constructor
  · intro h
    rcases mem_cons.mp h with rfl | h
    · exact ⟨.network, rfl⟩
    rcases mem_cons.mp h with rfl | h
    · exact ⟨.browser, rfl⟩
    · exact ⟨.hostLocal, mem_singleton.mp h⟩
  · rintro ⟨band, rfl⟩
    cases band with
    | network => exact mem_cons_self
    | browser => exact mem_cons_of_mem _ mem_cons_self
    | hostLocal => exact mem_cons_of_mem _ (mem_cons_of_mem _ mem_cons_self)

/-! ## Bands -/

lemma dot_not_mem_decimal (n : Nat) : 46 ∉ decimal n := by
  intro h
  have hdigit := mem_decimal h
  omega

lemma addressText_injective {second third fourth second' third' fourth' : Nat}
    (h : addressText second third fourth = addressText second' third' fourth') :
    second = second' ∧ third = third' ∧ fourth = fourth' := by
  obtain ⟨hfront, hfourth⟩ := split_at_last (dot_not_mem_decimal _) (dot_not_mem_decimal _) h
  obtain ⟨hfirst, hthird⟩ := split_at_last (dot_not_mem_decimal _) (dot_not_mem_decimal _) hfront
  exact ⟨decimal_injective (append_cancel_left hfirst), decimal_injective hthird, decimal_injective hfourth⟩

lemma exists_address_eq (band : Band) (networkId : List Nat) :
    ∃ second third fourth, band.address networkId = addressText second third fourth ∧
      (second = 1 ∧ third = band.globalOctet ∨ band.base ≤ second ∧ second < band.base + 32) := by
  unfold Band.address
  split
  · exact ⟨1, band.globalOctet, 1, rfl, .inl ⟨rfl, rfl⟩⟩
  · refine ⟨_, _, _, rfl, .inr ⟨Nat.le_add_right _ _, ?_⟩⟩
    exact Nat.add_lt_add_left (Nat.mod_lt _ (by decide)) _

lemma address_ne_of_band_ne {band band' : Band} (hne : band ≠ band') (networkId networkId' : List Nat) :
    band.address networkId ≠ band'.address networkId' := by
  intro heq
  obtain ⟨second, third, fourth, htext, hoctet⟩ := exists_address_eq band networkId
  obtain ⟨second', third', fourth', htext', hoctet'⟩ := exists_address_eq band' networkId'
  obtain ⟨rfl, rfl, -⟩ := addressText_injective (htext.symm.trans (heq.trans htext'))
  cases band <;> cases band' <;> simp only [Band.base, Band.globalOctet, ne_eq, not_true_eq_false] at hne hoctet hoctet' <;>
    omega

def AddressesDisjoint (networkId networkId' : List Nat) : Prop :=
  ∀ band band' : Band, band.address networkId ≠ band'.address networkId'

lemma AddressesDisjoint.symm {networkId networkId' : List Nat} (h : AddressesDisjoint networkId networkId') :
    AddressesDisjoint networkId' networkId := fun band band' heq => h band' band heq.symm

/-! ## Checks -/

/-- `assertNetworkAddressesAreUnique`: the network it names in its error, or `none` when it does not throw. -/
def addressCollision (networkId : List Nat) (existingIds : List (List Nat)) : Option (List Nat) :=
  existingIds.find? fun id =>
    id ≠ networkId && (networkAddresses id).any fun address => address ∈ networkAddresses networkId

lemma addressesDisjoint_of_no_collision (hnone : addressCollision networkId existingIds = none)
    (hid : id ∈ existingIds) (hne : id ≠ networkId) : AddressesDisjoint id networkId := by
  intro band band' heq
  have hnot := find?_eq_none.mp hnone id hid
  refine hnot ?_
  rw [Bool.and_eq_true, decide_eq_true_iff, any_eq_true]
  exact ⟨hne, band.address id, mem_networkAddresses.mpr ⟨band, rfl⟩,
    decide_eq_true (mem_networkAddresses.mpr ⟨band', heq⟩)⟩

def acceptsCandidate (existingIds : List (List Nat)) (candidate : List Nat) : Bool :=
  !(candidate = [] ∨ isGlobalNetworkId candidate ∨ candidate ∈ existingIds) &&
    (networkAddresses candidate).all fun address => address ∉ existingIds.flatMap networkAddresses

/-- `allocateNetworkIdWithUniqueAddresses`: the first candidate of 128 that passes, or `none` when it throws.
`createCandidate n` is the answer of the call number `n`. -/
def allocateNetworkIdWithUniqueAddresses (existingIds : List (List Nat)) (createCandidate : Nat → List Nat) :
    Option (List Nat) :=
  ((List.range 128).map createCandidate).find? (acceptsCandidate existingIds)

lemma addressesDisjoint_of_allocated {createCandidate : Nat → List Nat}
    (h : allocateNetworkIdWithUniqueAddresses existingIds createCandidate = some networkId)
    (hid : id ∈ existingIds) : AddressesDisjoint id networkId := by
  intro band band' heq
  have haccepted := find?_some h
  rw [acceptsCandidate, Bool.and_eq_true, all_eq_true] at haccepted
  have hnew := haccepted.2 (band'.address networkId) (mem_networkAddresses.mpr ⟨band', rfl⟩)
  refine of_decide_eq_true hnew (mem_flatMap.mpr ⟨id, hid, mem_networkAddresses.mpr ⟨band, heq.symm⟩⟩)

end PortManager.Networks
