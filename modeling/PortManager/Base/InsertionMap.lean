import Mathlib

/-!
# Maps in insertion order

A map whose entries keep the order in which their keys were first set, as JavaScript's `Map` does: setting a
key that is there changes its value in place, and a deleted key that is set again goes to the end. The keys
are distinct by construction.
-/

/-- The entries in insertion order. -/
structure InsertionMap (κ υ : Type) where
  entries : List (κ × υ)
  nodup : (entries.map Prod.fst).Nodup

namespace InsertionMap
open List

variable {κ υ : Type}

def empty : InsertionMap κ υ := ⟨[], List.nodup_nil⟩

def keys (m : InsertionMap κ υ) : List κ := m.entries.map Prod.fst

def values (m : InsertionMap κ υ) : List υ := m.entries.map Prod.snd

variable {m : InsertionMap κ υ} {key : κ} {value : υ} {entry : κ × υ}
    {before after items : List (κ × υ)}

lemma mem_keys_iff : key ∈ m.keys ↔ ∃ value, (key, value) ∈ m.entries := by
  rw [keys, mem_map]
  constructor
  · rintro ⟨entry, hentry, rfl⟩
    exact ⟨entry.2, hentry⟩
  · rintro ⟨value, hentry⟩
    exact ⟨_, hentry, rfl⟩

variable [DecidableEq κ]

def get? (m : InsertionMap κ υ) (key : κ) : Option υ := (m.entries.find? fun entry => entry.1 = key).map Prod.snd

def delete (m : InsertionMap κ υ) (key : κ) : InsertionMap κ υ where
  entries := m.entries.filter fun entry => entry.1 ≠ key
  nodup := m.nodup.sublist (List.filter_sublist.map Prod.fst)

def filter (m : InsertionMap κ υ) (p : κ × υ → Bool) : InsertionMap κ υ where
  entries := m.entries.filter p
  nodup := m.nodup.sublist (List.filter_sublist.map Prod.fst)

def replaceEntry (key : κ) (value : υ) (entries : List (κ × υ)) : List (κ × υ) :=
  entries.map fun entry => if entry.1 = key then (key, value) else entry

lemma replaceEntry_keys (key : κ) (value : υ) (entries : List (κ × υ)) :
    (replaceEntry key value entries).map Prod.fst = entries.map Prod.fst := by
  rw [replaceEntry, map_map]
  refine map_congr_left fun entry _ => ?_
  simp only [Function.comp_apply]
  split
  next h => exact h.symm
  next => rfl

def set (m : InsertionMap κ υ) (key : κ) (value : υ) : InsertionMap κ υ :=
  if h : key ∈ m.keys then ⟨replaceEntry key value m.entries, by rw [replaceEntry_keys]; exact m.nodup⟩
  else ⟨m.entries ++ [(key, value)], by
    rw [List.map_append, List.nodup_append']
    refine ⟨m.nodup, List.nodup_singleton _, ?_⟩
    intro other hother hnew
    obtain rfl := List.mem_singleton.mp hnew
    exact h hother⟩

/-! ## Lookup -/

lemma get?_eq_some_iff : m.get? key = some value ↔ (key, value) ∈ m.entries := by
  obtain ⟨entries, hnodup⟩ := m
  unfold get?
  simp only
  induction entries with
  | nil => simp
  | cons entry entries ih =>
    obtain ⟨hfresh, hrest⟩ := nodup_cons.mp hnodup
    by_cases hkey : entry.1 = key
    · rw [find?_cons_of_pos (by simpa using hkey), Option.map_some, Option.some_inj, mem_cons]
      constructor
      · rintro rfl
        exact .inl (Prod.ext hkey.symm rfl)
      rintro (h | h)
      · rw [← h]
      · exact absurd (mem_map.mpr ⟨_, h, hkey.symm⟩) hfresh
    · rw [find?_cons_of_neg (by simpa using hkey), ih hrest, mem_cons]
      refine ⟨.inr, fun h => h.resolve_left fun h => hkey ?_⟩
      rw [← h]

lemma value_unique {value' : υ} (h : (key, value) ∈ m.entries) (h' : (key, value') ∈ m.entries) : value = value' :=
  Option.some.inj ((get?_eq_some_iff.mpr h).symm.trans (get?_eq_some_iff.mpr h'))

/-! ## Updates -/

lemma mem_delete : entry ∈ (m.delete key).entries ↔ entry ∈ m.entries ∧ entry.1 ≠ key := by
  rw [delete, mem_filter, decide_eq_true_iff]

omit [DecidableEq κ] in
lemma mem_filter {p : κ × υ → Bool} {entry : κ × υ} :
    entry ∈ (m.filter p).entries ↔ entry ∈ m.entries ∧ p entry = true := List.mem_filter

lemma mem_set : entry ∈ (m.set key value).entries ↔ entry = (key, value) ∨ (entry ∈ m.entries ∧ entry.1 ≠ key) := by
  unfold set
  split
  next hkey =>
    obtain ⟨old, hold⟩ := mem_keys_iff.mp hkey
    simp only [replaceEntry, mem_map]
    constructor
    · rintro ⟨other, hother, rfl⟩
      split
      · exact .inl rfl
      next hne => exact .inr ⟨hother, hne⟩
    · rintro (rfl | ⟨hentry, hne⟩)
      · exact ⟨_, hold, if_pos rfl⟩
      · exact ⟨entry, hentry, if_neg hne⟩
  next hkey =>
    rw [mem_append, mem_singleton]
    constructor
    · rintro (hentry | rfl)
      · exact .inr ⟨hentry, fun h => hkey (h ▸ mem_map_of_mem hentry)⟩
      · exact .inl rfl
    · rintro (rfl | ⟨hentry, -⟩)
      · exact .inr rfl
      · exact .inl hentry

lemma entries_set_of_not_mem (h : key ∉ m.keys) (value : υ) :
    (m.set key value).entries = m.entries ++ [(key, value)] := by
  rw [set, dif_neg h]

lemma entries_set_of_split {old : υ} (h : m.entries = before ++ (key, old) :: after) (value : υ) :
    (m.set key value).entries = before ++ (key, value) :: after := by
  have hmem : key ∈ m.keys := mem_keys_iff.mpr ⟨old, h ▸ mem_append_right _ mem_cons_self⟩
  have hnodup := m.nodup
  rw [h, map_append, map_cons, nodup_append] at hnodup
  obtain ⟨-, hafter, hbefore⟩ := hnodup
  have hkeep : ∀ entries : List (κ × υ), (∀ entry ∈ entries, entry.1 ≠ key) →
      replaceEntry key value entries = entries := by
    intro entries hentries
    refine (map_congr_left fun entry hentry => ?_).trans (map_id _)
    exact if_neg (hentries entry hentry)
  have hfresh : ∀ entry ∈ after, entry.1 ≠ key := fun entry hentry heq =>
    (nodup_cons.mp hafter).1 (mem_map.mpr ⟨entry, hentry, heq⟩)
  rw [set, dif_pos hmem]
  simp only [h]
  rw [replaceEntry, map_append, map_cons, if_pos rfl, ← replaceEntry, ← replaceEntry,
    hkeep before fun entry hentry heq => hbefore _ (mem_map_of_mem hentry) _ mem_cons_self heq,
    hkeep after hfresh]

lemma entries_delete_of_split (h : m.entries = before ++ (key, value) :: after) :
    (m.delete key).entries = before ++ after := by
  have hnodup := m.nodup
  rw [h, map_append, map_cons, nodup_append] at hnodup
  obtain ⟨-, hafter, hbefore⟩ := hnodup
  have hfirst : ∀ entry ∈ before, entry.1 ≠ key := fun entry hentry heq =>
    hbefore _ (mem_map_of_mem hentry) _ mem_cons_self heq
  have hlast : ∀ entry ∈ after, entry.1 ≠ key := fun entry hentry heq =>
    (nodup_cons.mp hafter).1 (mem_map.mpr ⟨entry, hentry, heq⟩)
  show m.entries.filter _ = _
  rw [h, filter_append, filter_cons_of_neg (by simp),
    filter_eq_self.mpr fun entry hentry => decide_eq_true (hfirst entry hentry),
    filter_eq_self.mpr fun entry hentry => decide_eq_true (hlast entry hentry)]

lemma mem_keys_set {other : κ} : other ∈ (m.set key value).keys ↔ other = key ∨ other ∈ m.keys := by
  simp only [mem_keys_iff, mem_set, Prod.mk.injEq]
  constructor
  · rintro ⟨found, ⟨rfl, -⟩ | ⟨hentry, -⟩⟩
    · exact .inl rfl
    · exact .inr ⟨found, hentry⟩
  · rintro (rfl | ⟨found, hentry⟩)
    · exact ⟨value, .inl ⟨rfl, rfl⟩⟩
    by_cases hkey : other = key
    · exact ⟨value, .inl ⟨hkey, rfl⟩⟩
    · exact ⟨found, .inr ⟨hentry, hkey⟩⟩

/-! ## Groups -/

/-- The items of a list by their keys, each group in the order of the list. -/
def group (items : List (κ × υ)) : InsertionMap κ (List υ) :=
  items.foldl (fun m item => m.set item.1 ((m.get? item.1).getD [] ++ [item.2])) empty

/-! ## Last items -/

/-- The last item of each key, in the order of these items: a key that comes again is deleted and set at
the end. -/
def lastOfEach (items : List (κ × υ)) : InsertionMap κ υ :=
  items.foldl (fun m item => (m.delete item.1).set item.1 item.2) empty

lemma lastOfEach_concat (items : List (κ × υ)) (item : κ × υ) :
    lastOfEach (items ++ [item]) = ((lastOfEach items).delete item.1).set item.1 item.2 := by
  rw [lastOfEach, foldl_concat]
  rfl

lemma mem_lastOfEach {item : κ × υ} :
    item ∈ (lastOfEach items).entries ↔
      ∃ before after, items = before ++ item :: after ∧ ∀ later ∈ after, later.1 ≠ item.1 := by
  induction items using reverseRecOn with
  | nil => simp [lastOfEach, empty]
  | append_singleton items last ih =>
    rw [lastOfEach_concat, mem_set, mem_delete, ih]
    constructor
    · rintro (rfl | ⟨⟨⟨before, after, rfl, hafter⟩, hne⟩, -⟩)
      · exact ⟨items, [], rfl, nofun⟩
      refine ⟨before, after ++ [last], by simp, fun later hlater => ?_⟩
      rcases mem_append.mp hlater with hmem | hlast
      · exact hafter later hmem
      · rw [mem_singleton.mp hlast]
        exact hne.symm
    · rintro ⟨before, after, heq, hafter⟩
      rcases eq_nil_or_concat after with rfl | ⟨rest, final, rfl⟩
      · obtain ⟨-, hitem⟩ := append_inj' heq rfl
        exact .inl (singleton_inj.mp hitem).symm
      rw [concat_eq_append, ← cons_append, ← append_assoc] at heq
      obtain ⟨hitems, hlast⟩ := append_inj' heq rfl
      obtain rfl := singleton_inj.mp hlast
      rw [concat_eq_append] at hafter
      have hne : item.1 ≠ last.1 := (hafter last (by simp)).symm
      exact .inr ⟨⟨⟨before, rest, hitems, fun later hlater => hafter later (by simp [hlater])⟩, hne⟩, hne⟩

/-! ## Items set in turn -/

variable (m)

lemma get?_set (key other : κ) (value : υ) :
    (m.set key value).get? other = if key = other then some value else m.get? other := by
  split_ifs with hkey
  · subst hkey
    rw [get?_eq_some_iff, mem_set]
    exact .inl rfl
  refine Option.ext fun found => ?_
  rw [get?_eq_some_iff, get?_eq_some_iff, mem_set]
  constructor
  · rintro (heq | hentry)
    · exact absurd (congrArg Prod.fst heq).symm hkey
    · exact hentry.1
  · intro hentry
    exact .inr ⟨hentry, fun h => hkey h.symm⟩

lemma get?_delete (key other : κ) : (m.delete key).get? other = if other = key then none else m.get? other := by
  refine Option.ext fun found => ?_
  rw [get?_eq_some_iff, mem_delete]
  split_ifs with hkey
  · exact iff_of_false (fun h => h.2 hkey) (by simp)
  · rw [get?_eq_some_iff]
    exact and_iff_left hkey

variable {m}

def ofList (items : List (κ × υ)) : InsertionMap κ υ := items.foldl (fun m item => m.set item.1 item.2) empty

lemma get?_ofList (items : List (κ × υ)) (key : κ) :
    (ofList items).get? key = (items.reverse.find? fun item => item.1 = key).map Prod.snd := by
  induction items using reverseRecOn with
  | nil => rfl
  | append_singleton items last ih =>
    rw [ofList, foldl_concat, get?_set, reverse_concat, find?_cons]
    by_cases hkey : last.1 = key
    · rw [if_pos hkey, decide_eq_true hkey]
      rfl
    · rw [if_neg hkey, decide_eq_false hkey]
      exact ih

end InsertionMap
