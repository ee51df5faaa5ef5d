import Mathlib

/-!
# Splitting at a separator

`List.splitOn` and `List.intercalate` undo each other on pieces without the separator (`splitOn_eq_iff`). The last lemma is about pieces that
are found one place further on.
-/

namespace SplitText
open List

variable {α : Type*} [BEq α] [LawfulBEq α] {sep : α} {text piece : List α} {pieces : List (List α)} {c : α}

lemma not_mem_of_mem_splitOn (h : piece ∈ text.splitOn sep) : sep ∉ piece := by
  induction text generalizing piece with
  | nil =>
    rw [splitOn_nil, mem_singleton] at h
    rw [h]
    exact not_mem_nil
  | cons c text ih =>
    rw [splitOn_cons_eq_if_modifyHead] at h
    split at h
    · rcases mem_cons.mp h with rfl | h
      · exact not_mem_nil
      · exact ih h
    next hc =>
      cases hsplit : text.splitOn sep with
      | nil => exact absurd hsplit (splitOn_ne_nil _ _)
      | cons first rest =>
        rw [hsplit] at h ih
        rcases mem_cons.mp h with rfl | h
        · have hfirst := ih mem_cons_self
          simp only [beq_iff_eq] at hc
          simp only [mem_cons, not_or]
          exact ⟨fun h => hc h.symm, hfirst⟩
        · exact ih (mem_cons_of_mem _ h)

omit [BEq α] [LawfulBEq α] in
lemma mem_intercalate (hpiece : piece ∈ pieces) (hc : c ∈ piece) : c ∈ [sep].intercalate pieces := by
  induction pieces with
  | nil => cases hpiece
  | cons first pieces ih =>
    cases pieces with
    | nil =>
      rw [intercalate_singleton]
      exact mem_singleton.mp hpiece ▸ hc
    | cons next pieces =>
      rw [intercalate_cons_cons, mem_append]
      rcases mem_cons.mp hpiece with rfl | hpiece
      · exact .inl (mem_append_left _ hc)
      · exact .inr (ih hpiece)

lemma mem_of_mem_splitOn (h : piece ∈ text.splitOn sep) (hc : c ∈ piece) : c ∈ text := by
  have hmem : c ∈ [sep].intercalate (text.splitOn sep) := mem_intercalate h hc
  rwa [intercalate_splitOn] at hmem

lemma length_splitOn (text : List α) : (text.splitOn sep).length = text.count sep + 1 := by
  induction text with
  | nil => rfl
  | cons c text ih =>
    rw [splitOn_cons_eq_if_modifyHead, count_cons]
    split_ifs
    · rw [length_cons, ih]
    · rw [length_modifyHead, ih]

lemma splitOn_eq_iff (hpieces : ∀ piece ∈ pieces, sep ∉ piece) (hne : pieces ≠ []) :
    text.splitOn sep = pieces ↔ text = [sep].intercalate pieces := by
  constructor
  · rintro rfl
    exact (intercalate_splitOn sep).symm
  · rintro rfl
    exact splitOn_intercalate sep hpieces hne

omit [BEq α] [LawfulBEq α] in
lemma forall_eq_of_append_eq_cons {l : List α} {a b : α} (h : l ++ [a] = b :: l) : ∀ x ∈ l ++ [a], x = b := by
  induction l with
  | nil => simpa using h
  | cons c l ih =>
    obtain ⟨rfl, htail⟩ := List.cons.inj h
    exact forall_mem_cons.mpr ⟨rfl, ih htail⟩

end SplitText
