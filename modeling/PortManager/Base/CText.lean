import Mathlib

/-!
# C texts

A NUL-terminated `char` buffer is modelled by the list of the bytes before its terminator, so that
`strlen` is `List.length`, `strcmp(a, b) == 0` is equality of lists and `text[0] == '\0'` is
`text = []`. The module has the character classes of the C locale, the copies that
truncate (`snprintf(buffer, size, "%s", text)`), the numbers written by `%d`, and `strtol`.

The last part is the lemma every composed key rests on: in `name:number` the text before the last
colon is determined by the whole, whatever colons `name` itself has.
-/

/-- What stands before and behind the last occurrence of an element is determined by the whole. -/
lemma List.split_at_last {α : Type*} {c : α} {front front' back back' : List α} (hback : c ∉ back) (hback' : c ∉ back')
    (h : front ++ c :: back = front' ++ c :: back') : front = front' ∧ back = back' := by
  rcases append_eq_append_iff.mp h with ⟨rest, rfl, hrest⟩ | ⟨rest, rfl, hrest⟩
  · cases rest with
    | nil => exact ⟨(append_nil _).symm, (cons.inj hrest).2⟩
    | cons d rest =>
      obtain ⟨-, htail⟩ := cons.inj hrest
      exact absurd (htail ▸ mem_append_right rest mem_cons_self) hback
  · cases rest with
    | nil => exact ⟨append_nil _, (cons.inj hrest).2.symm⟩
    | cons d rest =>
      obtain ⟨-, htail⟩ := cons.inj hrest
      exact absurd (htail ▸ mem_append_right rest mem_cons_self) hback'

namespace CText
open List UInt8

/-- The bytes of a C string before its terminator. -/
abbrev Text := List UInt8

instance Text.lawfulBEq : LawfulBEq Text := inferInstance

def ascii (s : String) : Text := s.toList.map fun c => UInt8.ofNat c.toNat

def octets (t : Text) : List Nat := t.map UInt8.toNat

def isOneOf (t : Text) (words : List String) : Bool := words.any fun word => t = ascii word

/-- C `isspace` in the C locale. -/
def isspace (c : UInt8) : Bool := c == 32 || (9 ≤ c && c ≤ 13)

def isdigit (c : UInt8) : Bool := 48 ≤ c && c ≤ 57

def isxdigit (c : UInt8) : Bool := isdigit c || (65 ≤ c && c ≤ 70) || (97 ≤ c && c ≤ 102)

def tolower (c : UInt8) : UInt8 := if 65 ≤ c && c ≤ 90 then c + 32 else c

/-- What `snprintf(buffer, size, "%s", text)` leaves in a buffer of `size > 0` bytes. -/
def truncate (size : Nat) (t : Text) : Text := t.take (size - 1)

/-- The text of `%d`, `%ld` and `%lu`. -/
def decimal (n : Int) : Text :=
  match n with
  | .ofNat k => (Nat.toDigits 10 k).map fun c => UInt8.ofNat c.toNat
  | .negSucc k => 45 :: (Nat.toDigits 10 (k + 1)).map fun c => UInt8.ofNat c.toNat

def trim (t : Text) : Text := ((t.dropWhile isspace).reverse.dropWhile isspace).reverse

/-- The value of a run of decimal digits, and whether there was one. -/
def digits : Text → Nat → Bool → Nat × Bool
  | [], value, seen => (value, seen)
  | c :: rest, value, seen =>
    if isdigit c then digits rest (value * 10 + (c.toNat - 48)) true else (value, seen)

/-- C `strtol(text, &end, 10)` with 64-bit `long`; `none` when no digits were found. -/
def strtol (t : Text) : Option Int :=
  let t := t.dropWhile isspace
  let (negative, t) := match t with
    | 45 :: rest => (true, rest)
    | 43 :: rest => (false, rest)
    | rest => (false, rest)
  match digits t 0 false with
  | (_, false) => none
  | (value, true) =>
    some (if negative then max (-(value : Int)) (-2 ^ 63) else min (value : Int) (2 ^ 63 - 1))

/-- The conversion of a `long` to a 32-bit `int`. -/
def toInt32 (n : Int) : Int := (n + 2 ^ 31) % 2 ^ 32 - 2 ^ 31

lemma length_truncate_le (size : Nat) (t : Text) : (truncate size t).length ≤ size - 1 :=
  length_take_le ..

variable {size k m : Nat} {t a b : Text} {n : Int}

lemma truncate_eq_of_length_lt (h : (truncate size t).length < size - 1) : truncate size t = t := by
  unfold truncate at *
  rw [length_take] at h
  exact take_of_length_le (by omega)

lemma truncate_of_length_lt (h : t.length < size) : truncate size t = t :=
  take_of_length_le (by omega)

lemma toNat_of_mem_toDigits {c : Char} (h : c ∈ Nat.toDigits 10 k) : 48 ≤ c.toNat ∧ c.toNat ≤ 57 := by
  have hd := Nat.isDigit_of_mem_toDigits (by omega) (by omega) h
  simp only [Char.isDigit, Bool.and_eq_true, decide_eq_true_eq, UInt32.le_iff_toNat_le] at hd
  exact hd

lemma isdigit_of_mem_decimal {b : UInt8} (h : b ∈ decimal k) : isdigit b := by
  obtain ⟨c, hc, rfl⟩ := mem_map.mp h
  have hd := toNat_of_mem_toDigits hc
  simp only [isdigit, Bool.and_eq_true, decide_eq_true_eq, le_iff_toNat_le, toNat_ofNat',
    reduceToNat]
  omega

lemma colon_not_mem_decimal (n : Int) : (58 : UInt8) ∉ decimal n := by
  have digit : ∀ k : Nat, (58 : UInt8) ∉ (Nat.toDigits 10 k).map fun c => ofNat c.toNat := by
    intro k hmem
    obtain ⟨c, hc, e⟩ := mem_map.mp hmem
    have hd := toNat_of_mem_toDigits hc
    have e' := congrArg toNat e
    simp only [toNat_ofNat'] at e'
    simp at e'
    omega
  cases n with
  | ofNat k => exact digit k
  | negSucc k =>
    simp only [decimal, mem_cons, not_or]
    exact ⟨by decide, digit (k + 1)⟩

/-- The text before the last colon of `name:number` is determined by the whole text. -/
lemma name_eq_of_joined_eq {m : Int} (e : a ++ 58 :: decimal m = b ++ 58 :: decimal n) : a = b :=
  (split_at_last (colon_not_mem_decimal m) (colon_not_mem_decimal n) e).1

lemma length_decimal_le (hk : 0 < k) (h : n.natAbs < 10 ^ k) : (decimal n).length ≤ k + 1 := by
  cases n with
  | ofNat m =>
    have := (Nat.length_toDigits_le_iff (b := 10) (n := m) (by omega) hk).mpr h
    simp only [decimal, length_map]
    omega
  | negSucc m =>
    have := (Nat.length_toDigits_le_iff (b := 10) (n := m + 1) (by omega) hk).mpr h
    simp only [decimal, length_cons, length_map]
    omega

lemma decimal_natCast_inj {n : Nat} (h : decimal m = decimal n) : m = n := by
  -- the characters are read back from the bytes
  have back : ∀ k : Nat, (decimal k).map (fun b => Char.ofNat b.toNat) = Nat.toDigits 10 k := by
    intro k
    simp only [decimal, map_map]
    refine (map_congr_left fun c hc => ?_).trans (map_id _)
    have hd := toNat_of_mem_toDigits hc
    simp only [Function.comp_apply, toNat_ofNat', id_eq]
    rw [Nat.mod_eq_of_lt (by omega), Char.ofNat_toNat]
  have hdigits : Nat.toDigits 10 m = Nat.toDigits 10 n := by rw [← back, ← back, h]
  have hm := Nat.ofDigitChars_toDigits (b := 10) (n := m) (by omega) (by omega)
  rw [hdigits, Nat.ofDigitChars_toDigits (by omega) (by omega)] at hm
  exact hm.symm

lemma decimal_inj {m : Int} (h : decimal m = decimal n) : m = n := by
  have hsign {k : Nat} {t : Text} : decimal k ≠ 45 :: t := fun hminus =>
    absurd (isdigit_of_mem_decimal (hminus ▸ mem_cons_self)) (by decide)
  cases m with
  | ofNat m =>
    cases n with
    | ofNat n => exact congrArg Int.ofNat (decimal_natCast_inj h)
    | negSucc n => exact absurd h hsign
  | negSucc m =>
    cases n with
    | ofNat n => exact absurd h.symm hsign
    | negSucc n => exact congrArg Int.negSucc (Nat.succ.inj (decimal_natCast_inj (cons.inj h).2))

lemma number_eq_of_joined_eq {n : Nat} (e : a ++ 58 :: decimal m = b ++ 58 :: decimal n) : m = n := by
  obtain rfl := name_eq_of_joined_eq e
  exact decimal_natCast_inj (cons.inj (append_cancel_left e)).2

end CText
