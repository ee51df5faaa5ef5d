import PortManager.HashedRouting

/-!
# Storage keys of networks

The extension and the native programs name the credentials of a network by a key of its id: `networkStorageKey` of
`src/core/networks/network-identity.ts` on a string, `pm_network_namespace_key` on the bytes of a C string. Every id that
the extension accepts has the same key in both, and no other id has it (`storage_keys_agree`).
-/

namespace PortManager
open CText JsonText List Native Node Utf8

lemma octets_hexByte {b : Nat} (hb : b < 0x100) :
    octets (hexByte (UInt8.ofNat b)) = [(Nat.digitChar (b / 16)).toNat, (Nat.digitChar (b % 16)).toNat] := by
  revert b
  decide +kernel

lemma hex_injective {a b : List Nat} (ha : ∀ x ∈ a, x < 0x100) (hb : ∀ x ∈ b, x < 0x100) (h : hex a = hex b) : a = b := by
  have hdigit : ∀ m < 16, ∀ n < 16, (Nat.digitChar m).toNat = (Nat.digitChar n).toNat → m = n := by decide
  induction a generalizing b with
  | nil =>
    cases b with
    | nil => rfl
    | cons y b => cases h
  | cons x a ih =>
    cases b with
    | nil => cases h
    | cons y b =>
      rw [forall_mem_cons] at ha hb
      simp only [hex, flatMap_cons, cons_append, nil_append, cons.injEq] at h
      obtain ⟨hhigh, hlow, hrest⟩ := h
      have hhigh := hdigit _ (by omega) _ (by omega) hhigh
      have hlow := hdigit _ (by omega) _ (by omega) hlow
      rw [ih ha.2 hb.2 hrest, show x = y by omega]

variable {networkId key : List Nat}

lemma networkStorageKey_eq_some (h : networkStorageKey networkId = some key) :
    (encode networkId ≠ [] ∧ (encode networkId).length ≤ MAX_NETWORK_ID_BYTES ∧ 0 ∉ networkId ∧
      decode (encode networkId) = networkId) ∧ key = codes "id-" ++ hex (encode networkId) := by
  unfold networkStorageKey at h
  dsimp only at h
  split_ifs at h with haccepted
  cases h
  simpa [not_or] using haccepted

/-- A C string ends at the first NUL of the bytes it is made of. -/
theorem storage_keys_agree (hunits : ∀ unit ∈ networkId, unit < 0x10000)
    (hkey : networkStorageKey networkId = some key) :
    (networkNamespaceKey ((toText (encode networkId)).takeWhile (· ≠ 0))).map octets = some key ∧
      ∀ other, (∀ unit ∈ other, unit < 0x10000) → networkStorageKey other = some key → other = networkId := by
  obtain ⟨⟨hne, hlength, hzero, hdecode⟩, hkey⟩ := networkStorageKey_eq_some hkey
  have hbytes : ∀ x ∈ encode networkId, x < 0x100 ∧ (x = 0 → 0 ∈ networkId) := fun x hx => mem_encode hunits hx
  constructor
  · have hwhole : (toText (encode networkId)).takeWhile (· ≠ 0) = toText (encode networkId) := by
      refine takeWhile_eq_self_iff.mpr fun c hc => ?_
      obtain ⟨x, hx, rfl⟩ := mem_map.mp hc
      obtain ⟨hlt, hnul⟩ := hbytes x hx
      refine decide_eq_true fun h => hzero (hnul ?_)
      simpa [Nat.mod_eq_of_lt hlt] using congrArg UInt8.toNat h
    rw [hwhole, networkNamespaceKey, if_pos, Option.map_some, octets_append, hkey]
    · refine congrArg some (congrArg (codes "id-" ++ ·) ?_)
      rw [octets, toText, flatMap_map, map_flatMap]
      exact flatMap_congr fun x hx => octets_hexByte (hbytes x hx).1
    · rw [toText, length_map]
      exact ⟨length_pos_iff.mpr hne, hlength⟩
  · intro other hother hsame
    obtain ⟨⟨-, -, -, hdecode'⟩, hkey'⟩ := networkStorageKey_eq_some hsame
    have hhex := append_cancel_left (hkey'.symm.trans hkey)
    rw [← hdecode, ← hdecode',
      hex_injective (fun x hx => (mem_encode hother hx).1) (fun x hx => (hbytes x hx).1) hhex]

theorem accented_storage_key :
    (networkNamespaceKey ((toText (encode [0xE9])).takeWhile (· ≠ 0))).map octets = some (codes "id-c3a9") :=
  (storage_keys_agree (by decide) (by decide +kernel)).1

end PortManager
