import PortManager.Base.CText

/-!
# Numbers in C texts

`strtol` reads back what `%d` writes (`strtol_decimal`).
-/

namespace CText
open List UInt8

lemma digits_append {number rest : Text} (hnumber : ∀ c ∈ number, isdigit c) (hrest : ∀ c ∈ rest.head?, ¬ isdigit c) (value : Nat) (seen : Bool) :
    digits (number ++ rest) value seen =
      (number.foldl (fun value c => value * 10 + (c.toNat - 48)) value, seen || !number.isEmpty) := by
  induction number generalizing value seen with
  | nil =>
    cases rest with
    | nil => simp [digits]
    | cons c rest =>
      have hc : isdigit c = false := by simpa using hrest c rfl
      simp [digits, hc]
  | cons c number ih =>
    obtain ⟨hc, hnumber⟩ := forall_mem_cons.mp hnumber
    rw [cons_append, digits, if_pos hc, ih hnumber]
    simp

lemma decimal_ne_nil (k : Nat) : decimal k ≠ [] := by
  intro h
  exact Nat.toDigits_ne_nil (map_eq_nil_iff.mp h)

lemma foldl_decimal (k : Nat) : (decimal k).foldl (fun value c => value * 10 + (c.toNat - 48)) 0 = k := by
  have hread := Nat.ofDigitChars_toDigits (b := 10) (n := k) (by omega) (by omega)
  have hfold : ∀ l init, (∀ c ∈ l, 48 ≤ c.toNat ∧ c.toNat ≤ 57) →
      (l.map fun c => ofNat c.toNat).foldl (fun value c => value * 10 + (c.toNat - 48)) init = Nat.ofDigitChars 10 l init := by
    intro l
    induction l with
    | nil => exact fun init _ => rfl
    | cons c l ih =>
      intro init hl
      obtain ⟨hc, hl⟩ := forall_mem_cons.mp hl
      have hbyte : (ofNat c.toNat).toNat = c.toNat := by
        rw [toNat_ofNat']
        omega
      rw [map_cons, foldl_cons, hbyte, ih _ hl, Nat.ofDigitChars_cons, Nat.mul_comm]
      rfl
  show ((Nat.toDigits 10 k).map _).foldl _ 0 = k
  rw [hfold _ 0 fun c hc => toNat_of_mem_toDigits hc, hread]

lemma strtol_decimal {k : Nat} (hk : k < 2 ^ 63) {rest : Text} (hrest : ∀ c ∈ rest.head?, ¬ isdigit c) : strtol (decimal k ++ rest) = some (k : Int) := by
  have hdigits := digits_append (fun c (hc : c ∈ decimal k) => isdigit_of_mem_decimal hc) hrest 0 false
  rw [foldl_decimal] at hdigits
  have hseen : (false || !(decimal k).isEmpty) = true := by simp [decimal_ne_nil]
  rw [hseen] at hdigits
  cases hnumber : decimal k with
  | nil => exact absurd hnumber (decimal_ne_nil k)
  | cons c number =>
    have hc : isdigit c := isdigit_of_mem_decimal (hnumber ▸ mem_cons_self : c ∈ decimal k)
    rw [hnumber] at hdigits
    have hnotspace : isspace c = false := by
      simp only [isdigit, isspace, Bool.and_eq_true, decide_eq_true_eq, UInt8.le_iff_toNat_le, Bool.or_eq_false_iff, beq_eq_false_iff_ne,
        Bool.and_eq_false_iff, decide_eq_false_iff_not, ne_eq, ← UInt8.toNat_inj] at hc ⊢
      have h1 : (48 : UInt8).toNat = 48 := rfl
      have h2 : (57 : UInt8).toNat = 57 := rfl
      have h3 : (32 : UInt8).toNat = 32 := rfl
      have h4 : (9 : UInt8).toNat = 9 := rfl
      have h5 : (13 : UInt8).toNat = 13 := rfl
      omega
    have hminus : c ≠ 45 := by
      rintro rfl
      cases hc
    have hplus : c ≠ 43 := by
      rintro rfl
      cases hc
    have hdrop : ((c :: number) ++ rest).dropWhile isspace = (c :: number) ++ rest := by
      rw [cons_append, dropWhile_cons_of_neg (by simp [hnotspace])]
    rw [strtol]
    simp only [hdrop]
    rw [cons_append] at hdigits ⊢
    -- the sign is looked for first: no digit is one
    split
    · next heq =>
      split at heq
      · next h => exact absurd (List.cons.inj h).1 hminus
      · next h => exact absurd (List.cons.inj h).1 hplus
      · cases hdigits.symm.trans heq
    · next value heq =>
      split at heq
      · next h => exact absurd (List.cons.inj h).1 hminus
      · next h => exact absurd (List.cons.inj h).1 hplus
      obtain rfl : k = value := congrArg Prod.fst (hdigits.symm.trans heq)
      split
      · next hnegative => cases hnegative
      · rw [min_eq_left (by omega)]

end CText
