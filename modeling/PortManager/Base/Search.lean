import Mathlib

/-!
# Binary search

The loop `while (low < high) { mid = low + (high - low) / 2; ... }` that finds the first index whose
element is not below a key. The test is a function of the index; on an array that is sorted by it the
loop returns the end of the initial segment that is below (`lowerBound_spec`). On rows that are sorted by a key, and by
their place where keys are equal, it finds the first row of a key (`findRow_sortedRows`).
-/

namespace Search
open List Option

def lowerBoundLoop (below : Nat → Bool) : Nat → Nat → Nat → Nat
  | 0, low, _ => low
  | fuel + 1, low, high =>
    if low < high then
      if below (low + (high - low) / 2) then lowerBoundLoop below fuel (low + (high - low) / 2 + 1) high
      else lowerBoundLoop below fuel low (low + (high - low) / 2)
    else low

/-- The first of `count` indices that is not below. -/
def lowerBound (below : Nat → Bool) (count : Nat) : Nat := lowerBoundLoop below (count + 1) 0 count

variable {below : Nat → Bool} {count : Nat} (hmono : ∀ i j, i ≤ j → j < count → below j = true → below i = true)
include hmono

lemma lowerBoundLoop_spec {fuel low high : Nat} (hfuel : high - low < fuel) (hle : low ≤ high) (hhigh : high ≤ count)
    (hbelow : ∀ i, i < low → below i = true) (habove : ∀ i, high ≤ i → i < count → below i = false) :
    lowerBoundLoop below fuel low high ≤ count ∧
      (∀ i, i < lowerBoundLoop below fuel low high → below i = true) ∧
      (∀ i, lowerBoundLoop below fuel low high ≤ i → i < count → below i = false) := by
  induction fuel generalizing low high with
  | zero => omega
  | succ fuel ih =>
    rw [lowerBoundLoop]
    by_cases hlt : low < high
    · rw [if_pos hlt]
      cases hmid : below (low + (high - low) / 2) with
      | true =>
        rw [if_pos rfl]
        refine ih (by omega) (by omega) hhigh (fun i hi => ?_) habove
        exact hmono i _ (by omega) (by omega) hmid
      | false =>
        rw [if_neg Bool.false_ne_true]
        refine ih (by omega) (by omega) (by omega) hbelow (fun i hi hcount => ?_)
        -- an index above the middle that is below the key would put the middle below it
        by_contra hnot
        have htrue := hmono _ i hi hcount (by simpa using hnot)
        exact absurd (hmid.symm.trans htrue) Bool.false_ne_true
    · rw [if_neg hlt]
      exact ⟨by omega, hbelow, fun i hi => habove i (by omega)⟩

lemma lowerBound_spec :
    lowerBound below count ≤ count ∧ (∀ i, i < lowerBound below count → below i = true) ∧
      (∀ i, lowerBound below count ≤ i → i < count → below i = false) :=
  lowerBoundLoop_spec hmono (by omega) (Nat.zero_le _) (Nat.le_refl _) (fun _ hi => absurd hi (by omega))
    fun _ hi hlt => absurd hi (by omega)

omit hmono

/-! ## The first row of a key -/

section Rows

variable {α κ : Type*} [LinearOrder κ] (key : α → κ)

/-- Rows with their places: by key, and by place where keys are equal. -/
def rowBefore (a b : α × Nat) : Prop := key a.1 < key b.1 ∨ (key a.1 = key b.1 ∧ a.2 ≤ b.2)

instance : DecidableRel (rowBefore key) := fun a b =>
  inferInstanceAs (Decidable (key a.1 < key b.1 ∨ (key a.1 = key b.1 ∧ a.2 ≤ b.2)))

instance : Std.Total (rowBefore key) where
  total a b := by
    rcases lt_trichotomy (key a.1) (key b.1) with hlt | heq | hgt
    · exact .inl (.inl hlt)
    · rcases Nat.le_total a.2 b.2 with hle | hle
      · exact .inl (.inr ⟨heq, hle⟩)
      · exact .inr (.inr ⟨heq.symm, hle⟩)
    · exact .inr (.inl hgt)

instance : IsTrans (α × Nat) (rowBefore key) where
  trans a b c := by
    rintro (hab | ⟨hab, hab'⟩) (hbc | ⟨hbc, hbc'⟩)
    · exact .inl (hab.trans hbc)
    · exact .inl (hab.trans_eq hbc)
    · exact .inl (hab.trans_lt hbc)
    · exact .inr ⟨hab.trans hbc, hab'.trans hbc'⟩

def sortedRows (rows : List α) : List (α × Nat) := rows.zipIdx.insertionSort (rowBefore key)

def findRow (sorted : List (α × Nat)) (wanted : κ) : Option α :=
  let first := lowerBound (fun i => sorted[i]?.any fun row => key row.1 < wanted) sorted.length
  (sorted[first]?.map Prod.fst).filter fun row => key row = wanted

variable {key}

lemma rowBefore_of_le {sorted : List (α × Nat)} (hsorted : sorted.Pairwise (rowBefore key)) {i j : Nat} (hij : i ≤ j)
    {a b : α × Nat} (ha : sorted[i]? = some a) (hb : sorted[j]? = some b) : rowBefore key a b := by
  obtain ⟨hi, rfl⟩ := List.getElem?_eq_some_iff.mp ha
  obtain ⟨hj, rfl⟩ := List.getElem?_eq_some_iff.mp hb
  rcases lt_or_eq_of_le hij with hlt | rfl
  · exact pairwise_iff_getElem.mp hsorted i j hi hj hlt
  · exact .inr ⟨rfl, le_refl _⟩

lemma exists_found {sorted : List (α × Nat)} (hsorted : sorted.Pairwise (rowBefore key)) {wanted : κ} {row : α × Nat}
    (hrow : row ∈ sorted) (hkey : key row.1 = wanted) :
    ∃ found, sorted[lowerBound (fun i => sorted[i]?.any fun row => key row.1 < wanted) sorted.length]? = some found ∧
      key found.1 = wanted ∧ found.2 ≤ row.2 := by
  have hmono : ∀ i j, i ≤ j → j < sorted.length → (sorted[j]?.any fun row => key row.1 < wanted) = true →
      (sorted[i]?.any fun row => key row.1 < wanted) = true := by
    intro i j hij hj hbelow
    have hi : i < sorted.length := by omega
    have hbefore := rowBefore_of_le hsorted hij (getElem?_eq_getElem hi) (getElem?_eq_getElem hj)
    simp only [getElem?_eq_getElem hi, getElem?_eq_getElem hj, any_some, decide_eq_true_eq] at hbelow ⊢
    rcases hbefore with hlt | ⟨heq, -⟩
    · exact hlt.trans hbelow
    · exact heq.trans_lt hbelow
  obtain ⟨-, hbelow, habove⟩ := lowerBound_spec hmono
  generalize lowerBound (fun i => sorted[i]?.any fun row => key row.1 < wanted) sorted.length = first at *
  obtain ⟨place, hplace⟩ := getElem?_of_mem hrow
  obtain ⟨hlt, -⟩ := List.getElem?_eq_some_iff.mp hplace
  have hfirst : first ≤ place := by
    by_contra hnot
    have hless := hbelow place (by omega)
    rw [hplace, any_some, decide_eq_true_eq, hkey] at hless
    exact lt_irrefl _ hless
  have hfound : sorted[first]? = some (sorted.get ⟨first, by omega⟩) := getElem?_eq_getElem _
  generalize sorted.get ⟨first, by omega⟩ = found at hfound
  have hnot := habove first (le_refl _) (by omega)
  rw [hfound, any_some, decide_eq_false_iff_not, not_lt] at hnot
  refine ⟨found, hfound, ?_⟩
  rcases rowBefore_of_le hsorted hfirst hfound hplace with hless | ⟨heq, hle⟩
  · exact absurd (hless.trans_eq hkey) (not_lt.mpr hnot)
  · exact ⟨heq.trans hkey, hle⟩

/-- The search in the sorted rows finds the first of all rows with the key. -/
lemma findRow_sortedRows (rows : List α) (wanted : κ) :
    findRow key (sortedRows key rows) wanted = rows.find? fun row => key row = wanted := by
  have hsorted : (sortedRows key rows).Pairwise (rowBefore key) := pairwise_insertionSort _ _
  have hmem : ∀ row : α × Nat, row ∈ sortedRows key rows ↔ rows[row.2]? = some row.1 := by
    intro row
    rw [sortedRows, mem_insertionSort, mem_zipIdx_iff_getElem?]
  rw [findRow]
  cases hfind : rows.find? fun row => key row = wanted with
  | none =>
    rw [find?_eq_none] at hfind
    refine filter_eq_none_iff.mpr fun row hrow => ?_
    obtain ⟨found, hfirst, rfl⟩ := map_eq_some_iff.mp hrow
    exact hfind found.1 (mem_of_getElem? ((hmem found).mp (mem_of_getElem? hfirst)))
  | some row =>
    obtain ⟨hkey, place, hplace, hrow, hearlier⟩ := find?_eq_some_iff_getElem.mp hfind
    have hplace' : rows[place]? = some row := List.getElem?_eq_some_iff.mpr ⟨hplace, hrow⟩
    obtain ⟨found, hfirst, hwanted, hle⟩ := exists_found hsorted ((hmem (row, place)).mpr hplace') (of_decide_eq_true hkey)
    have hfound' := (hmem found).mp (mem_of_getElem? hfirst)
    obtain ⟨hbound, heq⟩ := List.getElem?_eq_some_iff.mp hfound'
    -- a row before the first one with the key would have it too
    have hsame : found.2 = place := by
      refine Nat.le_antisymm hle (Nat.le_of_not_lt fun hlt => ?_)
      have hno := hearlier found.2 hlt
      rw [heq, hwanted] at hno
      simp at hno
    rw [hsame, hplace'] at hfound'
    rw [hfirst, map_some, ← Option.some.inj hfound']
    exact filter_some_pos hkey

end Rows

end Search
