import PortManager.Base.Utf8Chunks

/-!
# Replacing a word

The scan that puts a replacement in the place of a word and goes on behind it. An ASCII word is replaced in the octets
of a text as in the text (`replaceAll_encode`).
-/

namespace Replacing
open List

section Scan
variable {α : Type*} [DecidableEq α] (word replacement : List α)

/-- The text with the word replaced, behind the units of a word that are to be skipped. -/
def replaceAll : Nat → List α → List α
  | _, [] => []
  | skip + 1, _ :: text => replaceAll skip text
  | 0, unit :: text =>
    if word <+: unit :: text then replacement ++ replaceAll (word.length - 1) text else unit :: replaceAll 0 text

def occurrences : Nat → List α → Nat
  | _, [] => 0
  | skip + 1, _ :: text => occurrences skip text
  | 0, unit :: text => if word <+: unit :: text then occurrences (word.length - 1) text + 1 else occurrences 0 text

lemma length_replaceAll (hword : word ≠ []) {skip : Nat} {text : List α} (hskip : skip ≤ text.length) :
    (replaceAll word replacement skip text).length + skip + occurrences word skip text * word.length =
      text.length + occurrences word skip text * replacement.length := by
  have hpos := length_pos_iff.mpr hword
  induction text generalizing skip with
  | nil => simp_all [replaceAll, occurrences]
  | cons unit text ih =>
    cases skip with
    | succ skip =>
      have := ih (Nat.le_of_succ_le_succ hskip)
      simp only [replaceAll, occurrences, length_cons]
      omega
    | zero =>
      rw [replaceAll, occurrences]
      split_ifs with hstarts
      · have hle := hstarts.length_le
        rw [length_cons] at hle
        have := @ih (word.length - 1) (by omega)
        simp only [length_append, length_cons, Nat.succ_mul]
        omega
      · have := ih (Nat.zero_le _)
        simp only [length_cons]
        omega

variable {word replacement}

lemma replaceAll_append_of_notMem {first : α} {part : List α} (hpart : first ∉ part) (text : List α) :
    replaceAll (first :: word) replacement 0 (part ++ text) = part ++ replaceAll (first :: word) replacement 0 text := by
  induction part with
  | nil => rfl
  | cons unit part ih =>
    rw [mem_cons, not_or] at hpart
    rw [cons_append, replaceAll, if_neg fun h => hpart.1 (cons_prefix_cons.mp h).1, ih hpart.2]
    rfl

end Scan

/-! ## Encoded texts -/

open Utf8

variable {first : Nat} {word replacement text : List Nat}

lemma ascii_prefix_encode (hword : ∀ x ∈ word, x < 0x80) (htext : Whole text) : word <+: encode text ↔ word <+: text := by
  have hwhole := whole_ascii hword
  constructor
  · rintro ⟨rest, hrest⟩
    have hdecode := decode_encode_append hwhole rest
    rw [encode_ascii hword, hrest, decode_encode htext] at hdecode
    exact ⟨_, hdecode.symm⟩
  · rintro ⟨rest, rfl⟩
    rw [encode_whole hwhole, encode_ascii hword]
    exact prefix_append _ _

lemma Character.beyond {u : List Nat} (hu : Character u) :
    (∃ a < 0x80, u = [a] ∧ encode u = [a]) ∨ (∀ x ∈ u, 0x80 ≤ x) ∧ ∀ x ∈ encode u, 0x80 ≤ x := by
  rcases (sequence_encode hu).cases_ascii with ⟨a, ha, hencode, rfl⟩ | hbeyond
  · exact .inl ⟨a, ha, rfl, hencode⟩
  refine .inr ⟨?_, fun x hx => (hbeyond x hx).1⟩
  cases hu with
  | @unit x hx hnot =>
    rw [forall_mem_singleton]
    by_contra hascii
    have hx : ∀ y ∈ [x], y < 0x80 := by simpa using hascii
    have := hbeyond x (by rw [encode_ascii hx]; exact mem_cons_self)
    omega
  | pair hx _ hy _ =>
    simp only [forall_mem_cons, not_mem_nil, false_imp_iff, implies_true, and_true]
    omega

lemma replaceAll_encode (hword : ∀ x ∈ first :: word, x < 0x80) (hreplacement : ∀ x ∈ replacement, x < 0x80)
    (htext : Whole text) {skip : Nat} (hskip : ∀ x ∈ text.take skip, x < 0x80) :
    replaceAll (first :: word) replacement skip (encode text) =
      encode (replaceAll (first :: word) replacement skip text) := by
  have hfirst := hword first mem_cons_self
  induction htext generalizing skip with
  | nil => cases skip <;> rfl
  | @cons u text hu htext ih =>
    rcases Character.beyond hu with ⟨a, ha, rfl, hencode⟩ | ⟨hunits, hoctets⟩
    · have hprefix := ascii_prefix_encode hword (Whole.cons hu htext)
      rw [encode_character hu, hencode, singleton_append, singleton_append] at hprefix ⊢
      cases skip with
      | succ skip => exact ih fun x hx => hskip x (mem_cons_of_mem _ hx)
      | zero =>
        rw [replaceAll, replaceAll, if_congr hprefix rfl rfl]
        split_ifs with hstarts
        · obtain ⟨rest, hrest⟩ := hstarts
          cases hrest
          rw [encode_whole (whole_ascii hreplacement), encode_ascii hreplacement, ih]
          exact fun x hx => hword x (mem_cons_of_mem _ (by simpa using hx))
        · have happend := encode_character hu (replaceAll (first :: word) replacement 0 text)
          rw [hencode, singleton_append, singleton_append] at happend
          rw [happend, ih hskip]
    · have hnot : ∀ part : List Nat, (∀ x ∈ part, 0x80 ≤ x) → first ∉ part :=
        fun part hpart hmem => absurd (hpart first hmem) (not_le.mpr hfirst)
      cases skip with
      | succ skip =>
        obtain ⟨x, rest, rfl⟩ : ∃ x rest, u = x :: rest := by cases hu <;> exact ⟨_, _, rfl⟩
        exact absurd (hskip x mem_cons_self) (not_lt.mpr (hunits x mem_cons_self))
      | zero =>
        rw [encode_character hu, replaceAll_append_of_notMem (hnot _ hoctets), replaceAll_append_of_notMem (hnot _ hunits),
          encode_character hu, ih fun x hx => by cases hx]

lemma Whole.of_append {s t : List Nat} (h : Whole (s ++ t)) (ht : ∀ y ∈ t.head?, y < 0xDC00 ∨ 0xE000 ≤ y) : Whole s := by
  generalize htext : s ++ t = text at h
  induction h generalizing s with
  | nil => exact (append_eq_nil_iff.mp htext).1 ▸ .nil
  | @cons u rest hu hrest ih =>
    cases s with
    | nil => exact .nil
    | cons x s =>
      cases hu with
      | unit hx hnot =>
        simp only [cons_append, nil_append, cons.injEq] at htext
        exact htext.1 ▸ .cons (.unit hx hnot) (ih htext.2)
      | pair hx hx' hy hy' =>
        cases s with
        | nil =>
          simp only [cons_append, nil_append, cons.injEq] at htext
          have := ht _ (by rw [htext.2]; rfl)
          omega
        | cons y s =>
          simp only [cons_append, nil_append, cons.injEq] at htext
          obtain ⟨rfl, rfl, htail⟩ := htext
          exact .cons (.pair hx hx' hy hy') (ih htail)

end Replacing
