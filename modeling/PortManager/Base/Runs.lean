import Mathlib

/-!
# Runs of equal keys in a sorted list

A C loop that walks a sorted array and advances an end index while the key stays the same cuts the
array into runs (`List.splitBy`). In a list sorted by key a run is the whole class of its key, in
the order of the list (`run_eq_filter`), and no key has two runs (`pairwise_key_ne`).
-/

namespace Runs
open List

variable {α κ : Type*} {key : α → κ} {le : κ → κ → Prop} {same : α → α → Bool}

lemma key_eq_of_mem_run (hsame : ∀ a b, same a b = true ↔ key a = key b) {l run : List α}
    (hrun : run ∈ l.splitBy same) {a b : α} (ha : a ∈ run) (hb : b ∈ run) : key a = key b := by
  have hchain : run.IsChain fun a b => key a = key b :=
    (isChain_of_mem_splitBy hrun).imp fun a b h => (hsame a b).mp h
  have hpair : run.Pairwise fun a b => key a = key b :=
    have : Trans (fun a b : α => key a = key b) (fun a b => key a = key b) fun a b => key a = key b :=
      ⟨fun hab hbc => hab.trans hbc⟩
    hchain.pairwise
  have : Std.Symm fun a b : α => key a = key b := ⟨fun _ _ h => h.symm⟩
  exact hpair.forall_of_forall (fun a _ => (rfl : key a = key a)) ha hb

/-- Keys of different runs differ, for lists of groups as `splitBy` makes them. -/
lemma pairwise_key_ne_of_groups
    (hanti : ∀ a b, le a b → le b a → a = b) (hsame : ∀ a b, same a b = true ↔ key a = key b)
    {groups : List (List α)} (hne : [] ∉ groups) (hkeys : ∀ g ∈ groups, ∀ a ∈ g, ∀ b ∈ g, key a = key b)
    (hbreak : groups.IsChain fun g h => ∃ hg hh, same (g.getLast hg) (h.head hh) = false)
    (hsorted : groups.flatten.Pairwise fun a b => le (key a) (key b)) :
    groups.Pairwise fun g h => ∀ a ∈ g, ∀ b ∈ h, key a ≠ key b := by
  induction groups with
  | nil => exact .nil
  | cons g groups ih =>
    obtain ⟨hg, hne'⟩ := not_or.mp (fun h => hne (mem_cons.mpr h))
    obtain ⟨-, hrest, hcross⟩ := pairwise_append.mp (flatten_cons ▸ hsorted)
    refine .cons (fun h hh a ha b hb heq => ?_)
      (ih hne' (fun g hg => hkeys g (mem_cons_of_mem _ hg)) hbreak.tail hrest)
    cases groups with
    | nil => cases hh
    | cons next groups =>
      -- the last element of this run and the first of the next have different keys
      obtain ⟨⟨hlast, hhead, hdiff⟩, -⟩ := isChain_cons_cons.mp hbreak
      have hmid : next.head hhead ∈ (next :: groups).flatten :=
        mem_flatten.mpr ⟨next, mem_cons_self, head_mem hhead⟩
      have hbmem : b ∈ (next :: groups).flatten := mem_flatten.mpr ⟨h, hh, hb⟩
      have hlastKey : key (g.getLast hlast) = key a :=
        hkeys g mem_cons_self _ (getLast_mem hlast) a ha
      have hto : le (key a) (key (next.head hhead)) := hlastKey ▸ hcross _ (getLast_mem hlast) _ hmid
      have hfrom : le (key (next.head hhead)) (key b) := by
        rcases mem_flatten.mp hbmem with ⟨k, hk, hbk⟩
        rcases mem_cons.mp hk with rfl | hk
        · rw [hkeys k (mem_cons_of_mem _ mem_cons_self) _ (head_mem hhead) b hbk]
          have hab := hcross a ha b hbmem
          rw [heq] at hab
          exact hab
        · exact (pairwise_append.mp (flatten_cons ▸ hrest)).2.2 _ (head_mem hhead) b
            (mem_flatten.mpr ⟨k, hk, hbk⟩)
      have hequal : key (next.head hhead) = key a := hanti _ _ (heq ▸ hfrom) hto
      have htrue : same (g.getLast hlast) (next.head hhead) = true :=
        (hsame _ _).mpr (hlastKey.trans hequal.symm)
      exact absurd (hdiff.symm.trans htrue) Bool.false_ne_true

variable (hanti : ∀ a b, le a b → le b a → a = b) (hsame : ∀ a b, same a b = true ↔ key a = key b)
include hanti hsame

lemma pairwise_key_ne {l : List α} (hsorted : l.Pairwise fun a b => le (key a) (key b)) :
    (l.splitBy same).Pairwise fun g h => ∀ a ∈ g, ∀ b ∈ h, key a ≠ key b := by
  refine pairwise_key_ne_of_groups hanti hsame (nil_notMem_splitBy same l)
    (fun g hg a ha b hb => key_eq_of_mem_run hsame hg ha hb) (isChain_getLast_head_splitBy same l) ?_
  rwa [flatten_splitBy]

lemma run_eq_filter [DecidableEq κ] {l run : List α}
    (hsorted : l.Pairwise fun a b => le (key a) (key b)) (hrun : run ∈ l.splitBy same) {a : α}
    (ha : a ∈ run) : run = l.filter fun b => key b = key a := by
  have hkeys : ∀ g ∈ l.splitBy same, ∀ a ∈ g, ∀ b ∈ g, key a = key b :=
    fun g hg a ha b hb => key_eq_of_mem_run hsame hg ha hb
  have hpair := pairwise_key_ne hanti hsame hsorted
  have hfilter : ∀ groups : List (List α), groups.Pairwise (fun g h => ∀ a ∈ g, ∀ b ∈ h, key a ≠ key b) →
      (∀ g ∈ groups, ∀ a ∈ g, ∀ b ∈ g, key a = key b) → run ∈ groups →
      run = groups.flatten.filter fun b => key b = key a := by
    intro groups
    induction groups with
    | nil => exact fun _ _ h => absurd h not_mem_nil
    | cons g groups ih =>
      intro hpair hkeys hmem
      obtain ⟨hcross, hpair⟩ := pairwise_cons.mp hpair
      rw [flatten_cons, filter_append]
      rcases mem_cons.mp hmem with rfl | hmem
      · -- the other groups have no element with this key
        have hself : run.filter (fun b => key b = key a) = run :=
          filter_eq_self.mpr fun b hb => by simpa using hkeys run mem_cons_self b hb a ha
        have hothers : groups.flatten.filter (fun b => key b = key a) = [] := by
          refine filter_eq_nil_iff.mpr fun b hb => ?_
          obtain ⟨h, hh, hbh⟩ := mem_flatten.mp hb
          simpa using (hcross h hh a ha b hbh).symm
        rw [hself, hothers, append_nil]
      · have hthis : g.filter (fun b => key b = key a) = [] := by
          refine filter_eq_nil_iff.mpr fun b hb => ?_
          simpa using hcross run hmem b hb a ha
        rw [hthis, nil_append]
        exact ih hpair (fun g hg => hkeys g (mem_cons_of_mem _ hg)) hmem
  have := hfilter (l.splitBy same) hpair hkeys hrun
  rwa [flatten_splitBy] at this

end Runs
