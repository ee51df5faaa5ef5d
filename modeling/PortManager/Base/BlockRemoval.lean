import Mathlib

/-!
# Removing blocks from a list

A block is recognised where it begins. `remove` goes over a list once, skips the blocks it meets and keeps the last note of a block. A
list without blocks is unchanged (`remove_of_free`), two lists are done one after the other where no block goes across their border
(`remove_append`), and a list with a block loses at least what the block's first element weighs (`weight_remove_of_not_free`).
-/

namespace BlockRemoval
open List

/-- How many elements of a block follow its first one, and the note that the block carries. -/
abbrev Recogniser (α β : Type*) := List α → Option (Nat × Option β)

variable {α β : Type*} (block : Recogniser α β)

/-- The elements outside of blocks and the last note of a block, after `skip` elements of a block. -/
def remove : Nat → List α → List α × Option β
  | _, [] => ([], none)
  | skip + 1, _ :: rest => remove skip rest
  | 0, a :: rest =>
    match block (a :: rest) with
    | some (more, note) => ((remove more rest).1, (remove more rest).2.or note)
    | none => (a :: (remove 0 rest).1, (remove 0 rest).2)

/-- No block begins in the list. -/
def Free : List α → Prop
  | [] => True
  | a :: rest => block (a :: rest) = none ∧ Free rest

instance decidableFree : (l : List α) → Decidable (Free block l)
  | [] => .isTrue trivial
  | a :: rest =>
    have := decidableFree rest
    decidable_of_iff ((block (a :: rest)).isNone ∧ Free block rest) (by rw [Option.isNone_iff_eq_none, Free])

variable {block}

@[simp] lemma remove_nil (skip : Nat) : remove block skip [] = ([], none) := by rw [remove]

@[simp] lemma remove_succ (skip : Nat) (a : α) (rest : List α) : remove block (skip + 1) (a :: rest) = remove block skip rest := by
  rw [remove]

variable {a : α} {rest l : List α} {least : Nat}

lemma remove_of_some {more : Nat} {note : Option β} (h : block (a :: rest) = some (more, note)) :
    remove block 0 (a :: rest) = ((remove block more rest).1, (remove block more rest).2.or note) := by
  rw [remove, h]

lemma remove_of_none (h : block (a :: rest) = none) :
    remove block 0 (a :: rest) = (a :: (remove block 0 rest).1, (remove block 0 rest).2) := by
  rw [remove, h]

lemma remove_of_free (h : Free block l) : remove block 0 l = (l, none) := by
  induction l with
  | nil => rw [remove_nil]
  | cons a rest ih =>
    obtain ⟨hnone, hrest⟩ := h
    rw [remove_of_none hnone, ih hrest]

/-- A block lies within the list in which it is recognised. -/
def Within (block : Recogniser α β) : Prop := ∀ l more note, block l = some (more, note) → more < l.length

/-- No block goes across the border to a list. -/
def Apart (block : Recogniser α β) (second : List α) : Prop := ∀ first, first ≠ [] → block (first ++ second) = block first

lemma remove_append {first second : List α} (hwithin : Within block) (hapart : Apart block second) {skip : Nat} (hskip : skip ≤ first.length) :
    remove block skip (first ++ second) =
      ((remove block skip first).1 ++ (remove block 0 second).1, (remove block 0 second).2.or (remove block skip first).2) := by
  induction first generalizing skip with
  | nil =>
    obtain rfl : skip = 0 := Nat.le_zero.mp hskip
    simp
  | cons a rest ih =>
    cases skip with
    | succ skip =>
      rw [cons_append, remove_succ, remove_succ]
      exact ih (Nat.le_of_succ_le_succ hskip)
    | zero =>
      have hborder : block (a :: (rest ++ second)) = block (a :: rest) := hapart (a :: rest) (cons_ne_nil a rest)
      cases hblock : block (a :: rest) with
      | none =>
        rw [hblock] at hborder
        rw [cons_append, remove_of_none hborder, remove_of_none hblock, ih (Nat.zero_le _)]
        rfl
      | some found =>
        obtain ⟨more, note⟩ := found
        have hmore := hwithin _ _ _ hblock
        rw [hblock] at hborder
        rw [cons_append, remove_of_some hborder, remove_of_some hblock, ih (Nat.le_of_lt_succ hmore), Option.or_assoc]

lemma remove_sublist (skip : Nat) (l : List α) : (remove block skip l).1.Sublist l := by
  induction l generalizing skip with
  | nil => simp
  | cons a rest ih =>
    cases skip with
    | succ skip =>
      rw [remove_succ]
      exact (ih skip).cons a
    | zero =>
      cases hblock : block (a :: rest) with
      | none =>
        rw [remove_of_none hblock]
        exact (ih 0).cons_cons a
      | some found =>
        rw [remove_of_some hblock]
        exact (ih found.1).cons a

variable {weight : α → Nat}

lemma weight_remove_le (skip : Nat) (l : List α) : ((remove block skip l).1.map weight).sum ≤ (l.map weight).sum :=
  ((remove_sublist skip l).map weight).sum_le_sum fun _ _ => Nat.zero_le _

/-- The first block is gone, with its first element. -/
lemma weight_remove_of_not_free (hleast : ∀ a rest, block (a :: rest) ≠ none → least ≤ weight a)
    (h : ¬ Free block l) : ((remove block 0 l).1.map weight).sum + least ≤ (l.map weight).sum := by
  induction l with
  | nil => exact absurd trivial h
  | cons a rest ih =>
    rw [map_cons, sum_cons]
    cases hblock : block (a :: rest) with
    | none =>
      rw [remove_of_none hblock, map_cons, sum_cons]
      have := ih fun hrest => h ⟨hblock, hrest⟩
      omega
    | some found =>
      have hweight := hleast a rest (by simp [hblock])
      have hrest : ((remove block found.1 rest).1.map weight).sum ≤ (rest.map weight).sum := weight_remove_le found.1 rest
      rw [remove_of_some hblock]
      exact (add_le_add hrest hweight).trans_eq (add_comm _ _)

lemma weight_filter_of_not {keeps : α → Bool} (ha : a ∈ l) (hdropped : keeps a = false) (hleast : least ≤ weight a) :
    ((l.filter keeps).map weight).sum + least ≤ (l.map weight).sum := by
  induction l with
  | nil => cases ha
  | cons b rest ih =>
    rw [map_cons, sum_cons]
    obtain rfl | hrest := mem_cons.mp ha
    · have hle : ((rest.filter keeps).map weight).sum ≤ (rest.map weight).sum :=
        ((filter_sublist).map weight).sum_le_sum fun _ _ => Nat.zero_le _
      rw [filter_cons_of_neg (by simp [hdropped])]
      omega
    have := ih hrest
    rw [filter_cons]
    split
    · rw [map_cons, sum_cons]
      omega
    · omega

end BlockRemoval
