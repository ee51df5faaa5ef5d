import Mathlib

/-!
# Base 64

`encode` writes three bytes as four characters of the standard alphabet, with padding. `collect` reads characters one by one into a 32-bit
accumulator, skips those that are not of the alphabet and gives a byte whenever it has eight bits: `collect_encode`.
-/

namespace Base64
open List

def alphabet : List UInt8 :=
  "ABCDEFGHIJKLMNOPQRSTUVWXYZabcdefghijklmnopqrstuvwxyz0123456789+/".toList.map fun c => UInt8.ofNat c.toNat

def padding : UInt8 := 61

def digit (bits : Nat) : UInt8 := alphabet.getD bits padding

def sextet (c : UInt8) : Option Nat := alphabet.idxOf? c

def encode : List UInt8 → List UInt8
  | [] => []
  | [a] => [digit (a.toNat / 4), digit (a.toNat % 4 * 16), padding, padding]
  | [a, b] => [digit (a.toNat / 4), digit (a.toNat % 4 * 16 + b.toNat / 16), digit (b.toNat % 16 * 4), padding]
  | a :: b :: c :: rest =>
    digit (a.toNat / 4) :: digit (a.toNat % 4 * 16 + b.toNat / 16) :: digit (b.toNat % 16 * 4 + c.toNat / 64) :: digit (c.toNat % 64) ::
      encode rest

/-- The bytes of a text, after some bits that are not yet a byte. -/
def collect (accumulator bits : Nat) : List UInt8 → List UInt8
  | [] => []
  | c :: rest =>
    match sextet c with
    | none => collect accumulator bits rest
    | some value =>
      let accumulator := (accumulator * 64 + value) % 2 ^ 32
      if 8 ≤ bits + 6 then UInt8.ofNat (accumulator / 2 ^ (bits + 6 - 8)) :: collect accumulator (bits + 6 - 8) rest
      else collect accumulator (bits + 6) rest

variable {bits value : Nat} {bytes : List UInt8}

lemma sextet_digit (h : bits < 64) : sextet (digit bits) = some bits := by
  have hall : ∀ bits : Fin 64, sextet (digit bits) = some bits.val := by decide +kernel
  exact hall ⟨bits, h⟩

lemma sextet_padding : sextet padding = none := by decide +kernel

lemma collect_digit_short (h : value < 64) (accumulator : Nat) (rest : List UInt8) :
    collect accumulator 0 (digit value :: rest) = collect ((accumulator * 64 + value) % 2 ^ 32) 6 rest := by
  rw [collect, sextet_digit h]
  rfl

lemma collect_digit (h : value < 64) (hbits : 2 ≤ bits) (accumulator : Nat) (rest : List UInt8) :
    collect accumulator bits (digit value :: rest) =
      UInt8.ofNat ((accumulator * 64 + value) % 2 ^ 32 / 2 ^ (bits - 2)) :: collect ((accumulator * 64 + value) % 2 ^ 32) (bits - 2) rest := by
  have hlong : 8 ≤ bits + 6 := by omega
  rw [collect, sextet_digit h]
  simp only [hlong, if_true, Nat.reduceSubDiff]

lemma collect_padding (accumulator bits : Nat) (rest : List UInt8) : collect accumulator bits (padding :: rest) = collect accumulator bits rest := by
  rw [collect, sextet_padding]

lemma ofNat_eq {a : UInt8} {n : Nat} (h : n % 256 = a.toNat) : UInt8.ofNat n = a := by
  apply UInt8.toNat_inj.mp
  rw [UInt8.toNat_ofNat']
  exact h

lemma collect_group (a b c : UInt8) (accumulator : Nat) (rest : List UInt8) :
    ∃ next, collect accumulator 0 (digit (a.toNat / 4) :: digit (a.toNat % 4 * 16 + b.toNat / 16) :: digit (b.toNat % 16 * 4 + c.toNat / 64) ::
      digit (c.toNat % 64) :: rest) = a :: b :: c :: collect next 0 rest := by
  have ha := a.toNat_lt
  have hb := b.toNat_lt
  have hc := c.toNat_lt
  rw [collect_digit_short (by omega), collect_digit (by omega) (by omega), collect_digit (by omega) (by omega),
    collect_digit (by omega) (by omega)]
  refine ⟨_, cons_eq_cons.mpr ⟨ofNat_eq ?_, cons_eq_cons.mpr ⟨ofNat_eq ?_, cons_eq_cons.mpr ⟨ofNat_eq ?_, rfl⟩⟩⟩⟩
  · omega
  · omega
  · omega

lemma collect_encode (bytes : List UInt8) (accumulator : Nat) : collect accumulator 0 (encode bytes) = bytes := by
  induction bytes using encode.induct generalizing accumulator with
  | case1 => rfl
  | case2 a =>
    have ha := a.toNat_lt
    rw [encode, collect_digit_short (by omega), collect_digit (by omega) (by omega), collect_padding, collect_padding]
    congr 1
    exact ofNat_eq (by omega)
  | case3 a b =>
    have ha := a.toNat_lt
    have hb := b.toNat_lt
    rw [encode, collect_digit_short (by omega), collect_digit (by omega) (by omega), collect_digit (by omega) (by omega), collect_padding]
    congr 1
    · exact ofNat_eq (by omega)
    congr 1
    exact ofNat_eq (by omega)
  | case4 a b c rest ih =>
    obtain ⟨next, h⟩ := collect_group a b c accumulator (encode rest)
    rw [encode, h, ih]

/-! ## The characters -/

lemma encode_eq_nil_iff : encode bytes = [] ↔ bytes = [] := by
  constructor
  · intro h
    have hcollect := collect_encode bytes 0
    rw [h] at hcollect
    exact hcollect.symm
  · rintro rfl
    rfl

lemma mem_of_mem_encode {c : UInt8} (h : c ∈ encode bytes) : c ∈ alphabet ∨ c = padding := by
  have hdigit (bits : Nat) : digit bits ∈ alphabet ∨ digit bits = padding := by
    rw [digit, getD_eq_getElem?_getD]
    cases hget : alphabet[bits]? with
    | none => exact .inr rfl
    | some c => exact .inl (mem_of_getElem? hget)
  induction bytes using encode.induct with
  | case1 => cases h
  | case2 a =>
    simp only [encode, mem_cons, not_mem_nil, or_false] at h
    obtain rfl | rfl | rfl | rfl := h
    · exact hdigit _
    · exact hdigit _
    · exact .inr rfl
    · exact .inr rfl
  | case3 a b =>
    simp only [encode, mem_cons, not_mem_nil, or_false] at h
    obtain rfl | rfl | rfl | rfl := h
    · exact hdigit _
    · exact hdigit _
    · exact hdigit _
    · exact .inr rfl
  | case4 a b c rest ih =>
    simp only [encode, mem_cons] at h
    obtain rfl | rfl | rfl | rfl | h := h
    · exact hdigit _
    · exact hdigit _
    · exact hdigit _
    · exact hdigit _
    · exact ih h

end Base64
