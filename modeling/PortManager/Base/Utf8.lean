import Mathlib

/-!
# Decoding UTF-8 to UTF-16

The decoder that turns a file's octets into a JavaScript string: one octet at a time, with a
replacement character for every maximal part of an ill-formed sequence; and the encoder of a JavaScript
string, which replaces surrogates that stand alone. Octets and code units are natural numbers.

ASCII is transparent to the decoder: an octet below 128 comes out as itself and leaves the decoder
between sequences.
-/

namespace Utf8
open List

def replacement : Nat := 0xFFFD

/-- Where the decoder stands: between sequences, or behind the first octets of one. -/
inductive Place where
  | between
  | one (a : Nat)
  | two (a b : Nat)
  | three (a b c : Nat)

/-- The least octet that may follow a first one. -/
@[irreducible]
def secondLow (a : Nat) : Nat := if a = 0xE0 then 0xA0 else if a = 0xF0 then 0x90 else 0x80

/-- The greatest octet that may follow a first one. -/
@[irreducible]
def secondHigh (a : Nat) : Nat := if a = 0xED then 0x9F else if a = 0xF4 then 0x8F else 0xBF

def continues : Place → Nat → Bool
  | .between, _ => false
  | .one a, x => secondLow a ≤ x && x ≤ secondHigh a
  | .two _ _, x => 0x80 ≤ x && x ≤ 0xBF
  | .three _ _ _, x => 0x80 ≤ x && x ≤ 0xBF

def point2 (a b : Nat) : Nat := (a - 0xC0) * 64 + (b - 0x80)

def point3 (a b c : Nat) : Nat := ((a - 0xE0) * 64 + (b - 0x80)) * 64 + (c - 0x80)

def point4 (a b c d : Nat) : Nat :=
  (((a - 0xF0) * 64 + (b - 0x80)) * 64 + (c - 0x80)) * 64 + (d - 0x80) - 0x10000

/-- The two surrogates of a code point, which is counted from U+10000. -/
def surrogates (point : Nat) : List Nat := [0xD800 + point / 0x400, 0xDC00 + point % 0x400]

/-- What an octet that continues the sequence puts out, and where it leaves the decoder. -/
def advance : Place → Nat → List Nat × Place
  | .between, _ => ([], .between)
  | .one a, b => if a < 0xE0 then ([point2 a b], .between) else ([], .two a b)
  | .two a b, c => if a < 0xF0 then ([point3 a b c], .between) else ([], .three a b c)
  | .three a b c, d => (surrogates (point4 a b c d), .between)

def start (x : Nat) : List Nat × Place :=
  if x < 0x80 then ([x], .between)
  else if 0xC2 ≤ x ∧ x ≤ 0xF4 then ([], .one x)
  else ([replacement], .between)

/-- What is put out for a sequence that is broken off. -/
def flush : Place → List Nat
  | .between => []
  | _ => [replacement]

/-- One octet; one that does not continue the sequence breaks it off and is read again. -/
def step (place : Place) (x : Nat) : List Nat × Place :=
  if continues place x then advance place x else (flush place ++ (start x).1, (start x).2)

def decodeFrom (place : Place) : List Nat → List Nat
  | [] => flush place
  | x :: s => (step place x).1 ++ decodeFrom (step place x).2 s

def decode (s : List Nat) : List Nat := decodeFrom .between s

@[simp] lemma decode_nil : decode [] = [] := rfl

def encodePoint (point : Nat) : List Nat :=
  if point < 0x80 then [point]
  else if point < 0x800 then [0xC0 + point / 64, 0x80 + point % 64]
  else if point < 0x10000 then [0xE0 + point / 4096, 0x80 + point / 64 % 64, 0x80 + point % 64]
  else [0xF0 + point / 262144, 0x80 + point / 4096 % 64, 0x80 + point / 64 % 64, 0x80 + point % 64]

def encodeUnit (unit : Nat) : List Nat :=
  encodePoint (if 0xD800 ≤ unit ∧ unit < 0xE000 then replacement else unit)

def encode : List Nat → List Nat
  | [] => []
  | [unit] => encodeUnit unit
  | unit :: next :: units =>
    if 0xD800 ≤ unit ∧ unit < 0xDC00 ∧ 0xDC00 ≤ next ∧ next < 0xE000 then
      encodePoint (0x10000 + (unit - 0xD800) * 0x400 + (next - 0xDC00)) ++ encode units
    else encodeUnit unit ++ encode (next :: units)

/-! ## ASCII -/

lemma secondLow_ge (a : Nat) : 0x80 ≤ secondLow a := by
  unfold secondLow
  split
  · decide
  · split <;> decide

variable {x : Nat} {place : Place} {s t o u : List Nat}

lemma continues_ascii (hx : x < 0x80) (place : Place) : continues place x = false := by
  cases place with
  | between => rfl
  | one a =>
    have := secondLow_ge a
    simp only [continues, Bool.and_eq_false_iff, decide_eq_false_iff_not]
    omega
  | two a b | three a b c => simp only [continues, Bool.and_eq_false_iff, decide_eq_false_iff_not]; omega

lemma decodeFrom_ascii (hx : x < 0x80) (place : Place) (s : List Nat) :
    decodeFrom place (x :: s) = flush place ++ x :: decode s := by
  simp only [decodeFrom, step, continues_ascii hx, Bool.false_eq_true, if_false, start, if_pos hx]
  rw [append_assoc]
  rfl

lemma decode_ascii (hx : x < 0x80) (s : List Nat) : decode (x :: s) = x :: decode s :=
  decodeFrom_ascii hx .between s

/-! ## Octets -/

lemma mem_encodePoint {point : Nat} (hpoint : point < 0x110000) (hx : x ∈ encodePoint point) :
    x < 0x100 ∧ (x = 0 → point = 0) := by
  unfold encodePoint at hx
  split_ifs at hx <;> simp only [mem_cons, not_mem_nil, or_false] at hx <;> omega

lemma mem_encodeUnit {unit : Nat} (hunit : unit < 0x10000) (hx : x ∈ encodeUnit unit) : x < 0x100 ∧ (x = 0 → unit = 0) := by
  obtain ⟨hlt, hzero⟩ := mem_encodePoint (by unfold replacement; split_ifs <;> omega) hx
  refine ⟨hlt, fun h => ?_⟩
  have hpoint := hzero h
  unfold replacement at hpoint
  split_ifs at hpoint
  exact hpoint

/-- Every unit gives octets, and only NUL gives the octet 0. -/
lemma mem_encode {s : List Nat} (hs : ∀ unit ∈ s, unit < 0x10000) (hx : x ∈ encode s) : x < 0x100 ∧ (x = 0 → 0 ∈ s) := by
  induction s using encode.induct with
  | case1 => cases hx
  | case2 unit =>
    obtain ⟨hlt, hzero⟩ := mem_encodeUnit (hs unit mem_cons_self) hx
    exact ⟨hlt, fun h => by simp [hzero h]⟩
  | case3 unit next units hpair ih =>
    rw [encode, if_pos hpair, mem_append] at hx
    rcases hx with hx | hx
    · obtain ⟨hlt, hzero⟩ := mem_encodePoint (by omega) hx
      exact ⟨hlt, fun h => absurd (hzero h) (by omega)⟩
    · obtain ⟨hlt, hzero⟩ := ih (fun other hother => hs other (by simp [hother])) hx
      exact ⟨hlt, fun h => by simp [hzero h]⟩
  | case4 unit next units hsingle ih =>
    rw [encode, if_neg hsingle, mem_append] at hx
    rcases hx with hx | hx
    · obtain ⟨hlt, hzero⟩ := mem_encodeUnit (hs unit mem_cons_self) hx
      exact ⟨hlt, fun h => by simp [hzero h]⟩
    · obtain ⟨hlt, hzero⟩ := ih (fun other hother => hs other (mem_cons_of_mem _ hother)) hx
      exact ⟨hlt, fun h => by simp [hzero h]⟩

/-! ## Well-formed texts -/

def Octets2 (a b : Nat) : Prop := 0xC2 ≤ a ∧ a < 0xE0 ∧ 0x80 ≤ b ∧ b ≤ 0xBF

def Octets3 (a b c : Nat) : Prop :=
  0xE0 ≤ a ∧ a < 0xF0 ∧ secondLow a ≤ b ∧ b ≤ secondHigh a ∧ 0x80 ≤ c ∧ c ≤ 0xBF

def Octets4 (a b c d : Nat) : Prop :=
  0xF0 ≤ a ∧ a ≤ 0xF4 ∧ secondLow a ≤ b ∧ b ≤ secondHigh a ∧ 0x80 ≤ c ∧ c ≤ 0xBF ∧ 0x80 ≤ d ∧ d ≤ 0xBF

/-- A well-formed sequence of octets and its code units. -/
inductive Sequence : List Nat → List Nat → Prop where
  | one {a : Nat} : a < 0x80 → Sequence [a] [a]
  | two {a b : Nat} : Octets2 a b → Sequence [a, b] [point2 a b]
  | three {a b c : Nat} : Octets3 a b c → Sequence [a, b, c] [point3 a b c]
  | four {a b c d : Nat} : Octets4 a b c d → Sequence [a, b, c, d] (surrogates (point4 a b c d))

inductive Valid : List Nat → Prop where
  | nil : Valid []
  | cons {o u s : List Nat} : Sequence o u → Valid s → Valid (o ++ s)

lemma Sequence.cases_ascii (h : Sequence o u) : (∃ a < 0x80, o = [a] ∧ u = [a]) ∨ ∀ x ∈ o, 0x80 ≤ x ∧ x < 0x100 := by
  have hsecond : ∀ a b, secondLow a ≤ b → b ≤ secondHigh a → 0x80 ≤ b ∧ b < 0x100 := by
    intro a b hlow hhigh
    unfold secondLow at hlow
    unfold secondHigh at hhigh
    split_ifs at hlow hhigh <;> omega
  cases h with
  | one ha => exact .inl ⟨_, ha, rfl, rfl⟩
  | two h =>
    obtain ⟨ha, ha', hb, hb'⟩ := h
    refine .inr fun x hx => ?_
    simp only [mem_cons, not_mem_nil, or_false] at hx
    omega
  | three h =>
    obtain ⟨ha, ha', hlow, hhigh, hc, hc'⟩ := h
    have hb := hsecond _ _ hlow hhigh
    refine .inr fun x hx => ?_
    simp only [mem_cons, not_mem_nil, or_false] at hx
    omega
  | four h =>
    obtain ⟨ha, ha', hlow, hhigh, hc, hc', hd, hd'⟩ := h
    have hb := hsecond _ _ hlow hhigh
    refine .inr fun x hx => ?_
    simp only [mem_cons, not_mem_nil, or_false] at hx
    omega

lemma decode_sequence (h : Sequence o u) (s : List Nat) : decode (o ++ s) = u ++ decode s := by
  have hstart : ∀ a, 0xC2 ≤ a → a ≤ 0xF4 → start a = ([], .one a) := by
    intro a ha ha'
    rw [start, if_neg (by omega), if_pos ⟨ha, ha'⟩]
  cases h with
  | one ha => exact decode_ascii ha s
  | @two a b h =>
    obtain ⟨ha, ha', hb, hb'⟩ := h
    have hlow : secondLow a = 0x80 := by unfold secondLow; split_ifs <;> omega
    have hhigh : secondHigh a = 0xBF := by unfold secondHigh; split_ifs <;> omega
    have hstart := hstart a ha (by omega)
    simp [decode, decodeFrom, step, continues, flush, hstart, hlow, hhigh, hb, hb', advance, ha']
  | @three a b c h =>
    obtain ⟨ha, ha', hb, hb', hc, hc'⟩ := h
    have hstart := hstart a (by omega) (by omega)
    simp [decode, decodeFrom, step, continues, flush, hstart, hb, hb', hc, hc', advance, ha',
      not_lt.mpr ha]
  | @four a b c d h =>
    obtain ⟨ha, ha', hb, hb', hc, hc', hd, hd'⟩ := h
    have hstart := hstart a (by omega) ha'
    have hlead : ¬ a < 0xE0 := by omega
    simp [decode, decodeFrom, step, continues, flush, hstart, hb, hb', hc, hc', hd, hd', advance,
      hlead, not_lt.mpr ha]

lemma second_bounds {a b : Nat} (hlow : secondLow a ≤ b) (hhigh : b ≤ secondHigh a) :
    0x80 ≤ b ∧ b ≤ 0xBF ∧ (a = 0xE0 → 0xA0 ≤ b) ∧ (a = 0xF0 → 0x90 ≤ b) ∧ (a = 0xED → b ≤ 0x9F) ∧
      (a = 0xF4 → b ≤ 0x8F) := by
  unfold secondLow at hlow
  unfold secondHigh at hhigh
  split_ifs at hlow hhigh <;> omega

end Utf8
