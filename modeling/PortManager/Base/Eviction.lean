import PortManager.Base.InsertionMap

/-!
# Maps whose insertions evict

A value has a key and conflicts with other values. An insertion first removes the stored values of other keys that
conflict with the new one. The stored values never conflict with each other (`Apart.insert`), and after a list of
insertions a value is stored exactly when nothing behind it in the list has its key or conflicts with it
(`mem_insertAll`). When the list was sorted by time, that is when it is the latest of all it clashes with
(`survives_insertionSort`).
-/

namespace Eviction
open InsertionMap

variable {κ υ : Type} [DecidableEq κ] (key : υ → κ) (conflicts : υ → υ → Bool)

/-- An insertion that evicts the conflicting values of other keys. -/
def insert (m : InsertionMap κ υ) (value : υ) : InsertionMap κ υ :=
  (m.filter fun entry => !(entry.1 ≠ key value && conflicts entry.2 value)).set (key value) value

variable {key conflicts} {m : InsertionMap κ υ} {entry : κ × υ}

lemma mem_insert {value : υ} :
    entry ∈ (insert key conflicts m value).entries ↔
      entry = (key value, value) ∨
        (entry ∈ m.entries ∧ entry.1 ≠ key value ∧ conflicts entry.2 value = false) := by
  rw [insert, mem_set, mem_filter]
  constructor
  · rintro (h | ⟨⟨hentry, hkept⟩, hne⟩)
    · exact .inl h
    · refine .inr ⟨hentry, hne, ?_⟩
      simpa [hne] using hkept
  · rintro (h | ⟨hentry, hne, hfree⟩)
    · exact .inl h
    · exact .inr ⟨⟨hentry, by simp [hfree]⟩, hne⟩

def Apart (conflicts : υ → υ → Bool) (m : InsertionMap κ υ) : Prop :=
  ∀ a ∈ m.entries, ∀ b ∈ m.entries, a.1 ≠ b.1 → conflicts a.2 b.2 = false

lemma Apart.insert (hsymm : ∀ a b, conflicts a b = conflicts b a) (hapart : Apart conflicts m)
    (value : υ) : Apart conflicts (insert key conflicts m value) := by
  intro a ha b hb hne
  rcases mem_insert.mp ha with rfl | ⟨holda, -, hfreea⟩
  · rcases mem_insert.mp hb with rfl | ⟨-, -, hfreeb⟩
    · exact absurd rfl hne
    · rw [hsymm]
      exact hfreeb
  · rcases mem_insert.mp hb with rfl | ⟨holdb, -, -⟩
    · exact hfreea
    · exact hapart a holda b holdb hne

omit [DecidableEq κ] in
lemma Apart.subset {m' : InsertionMap κ υ} (hapart : Apart conflicts m)
    (hsub : ∀ entry ∈ m'.entries, entry ∈ m.entries) : Apart conflicts m' :=
  fun a ha b hb => hapart a (hsub a ha) b (hsub b hb)

/-! ## Many insertions -/

variable (key conflicts)

def insertAll (m : InsertionMap κ υ) (values : List υ) : InsertionMap κ υ := values.foldl (insert key conflicts) m

/-- The later value replaces or evicts the earlier one. -/
def Clash (value later : υ) : Prop := key later = key value ∨ conflicts value later = true

variable {key conflicts}

lemma Apart.insertAll (hsymm : ∀ a b, conflicts a b = conflicts b a)
    (hapart : Apart conflicts m) (values : List υ) : Apart conflicts (insertAll key conflicts m values) := by
  induction values generalizing m with
  | nil => exact hapart
  | cons value values ih => exact ih (hapart.insert hsymm value)

lemma mem_insertAll (values : List υ) :
    entry ∈ (insertAll key conflicts m values).entries ↔
      (entry ∈ m.entries ∧ ∀ later ∈ values, key later ≠ entry.1 ∧ conflicts entry.2 later = false) ∨
      (entry.1 = key entry.2 ∧ ∃ before after, values = before ++ entry.2 :: after ∧
        ∀ later ∈ after, ¬ Clash key conflicts entry.2 later) := by
  induction values using List.reverseRecOn with
  | nil => simp [insertAll]
  | append_singleton values value ih =>
    have hlast : insertAll key conflicts m (values ++ [value]) =
        insert key conflicts (insertAll key conflicts m values) value := List.foldl_concat ..
    rw [hlast, mem_insert, ih]
    constructor
    · rintro (rfl | ⟨⟨hentry, hfree⟩ | ⟨hkey, before, after, rfl, hfree⟩, hne, hconflict⟩)
      · exact .inr ⟨rfl, values, [], rfl, fun later hlater => absurd hlater List.not_mem_nil⟩
      · refine .inl ⟨hentry, fun later hlater => ?_⟩
        rcases List.mem_append.mp hlater with hold | hnew
        · exact hfree later hold
        · rw [List.mem_singleton.mp hnew]
          exact ⟨hne.symm, hconflict⟩
      refine .inr ⟨hkey, before, after ++ [value], by simp, fun later hlater => ?_⟩
      rcases List.mem_append.mp hlater with hold | hnew
      · exact hfree later hold
      rw [List.mem_singleton.mp hnew]
      rintro (hsame | htrue)
      · exact hne (hkey.trans hsame.symm)
      · exact absurd (htrue.symm.trans hconflict) (by simp)
    · rintro (⟨hentry, hfree⟩ | ⟨hkey, before, after, hsplit, hfree⟩)
      · have hvalue := hfree value (List.mem_append_right _ List.mem_cons_self)
        exact .inr ⟨.inl ⟨hentry, fun later hlater => hfree later (List.mem_append_left _ hlater)⟩, hvalue.1.symm,
          hvalue.2⟩
      -- the value is the last one, or it stood in the list before
      rcases List.eq_nil_or_concat after with rfl | ⟨init, last, rfl⟩
      · obtain ⟨-, hvalue⟩ := List.append_inj' hsplit rfl
        obtain rfl := (List.cons.inj hvalue).1
        exact .inl (Prod.ext hkey rfl)
      have hvalue : values = before ++ entry.2 :: init ∧ value = last := by
        have h : values ++ [value] = (before ++ entry.2 :: init) ++ [last] := by simpa using hsplit
        obtain ⟨hinit, hlast⟩ := List.append_inj' h rfl
        exact ⟨hinit, (List.cons.inj hlast).1⟩
      obtain ⟨rfl, rfl⟩ := hvalue
      have hclash := hfree value (by simp)
      refine .inr ⟨.inr ⟨hkey, before, init, rfl, fun later hlater => hfree later (by simp [hlater])⟩, ?_, ?_⟩
      · exact fun hsame => hclash (.inl (hsame.symm.trans hkey))
      · exact Bool.not_eq_true _ ▸ fun htrue => hclash (.inr htrue)

/-! ## Sorted by time -/

section Sorted

variable {τ : Type} [LinearOrder τ] (time : υ → τ) (clash : υ → Prop)

/-- The value stands in the list with no clash behind it. -/
def Survives (values : List υ) (value : υ) : Prop :=
  ∃ before after, values = before ++ value :: after ∧ ∀ later ∈ after, ¬ clash later

/-- The value stands in the list and is later than all it clashes with; of two at one time the later in the list
counts. -/
def Latest (values : List υ) (value : υ) : Prop :=
  ∃ before after, values = before ++ value :: after ∧ (∀ other ∈ before, clash other → time other ≤ time value) ∧
    ∀ other ∈ after, clash other → time other < time value

variable {time clash} {first value : υ} {values : List υ}

lemma survives_cons :
    Survives clash (first :: values) value ↔
      (value = first ∧ ∀ later ∈ values, ¬ clash later) ∨ Survives clash values value := by
  constructor
  · rintro ⟨before, after, hsplit, hfree⟩
    cases before with
    | nil =>
      cases hsplit
      exact .inl ⟨rfl, hfree⟩
    | cons _ before => exact .inr ⟨before, after, (List.cons.inj hsplit).2, hfree⟩
  · rintro (⟨rfl, hfree⟩ | ⟨before, after, rfl, hfree⟩)
    · exact ⟨[], values, rfl, hfree⟩
    · exact ⟨first :: before, after, rfl, hfree⟩

lemma Survives.mem (h : Survives clash values value) : value ∈ values := by
  obtain ⟨before, after, rfl, -⟩ := h
  exact List.mem_append_right _ List.mem_cons_self

lemma latest_cons :
    Latest time clash (first :: values) value ↔
      (value = first ∧ ∀ other ∈ values, clash other → time other < time first) ∨
        (Latest time clash values value ∧ (clash first → time first ≤ time value)) := by
  constructor
  · rintro ⟨before, after, hsplit, hbefore, hafter⟩
    cases before with
    | nil =>
      cases hsplit
      exact .inl ⟨rfl, hafter⟩
    | cons _ before =>
      cases hsplit
      exact .inr ⟨⟨before, after, rfl, fun other hother => hbefore other (List.mem_cons_of_mem _ hother), hafter⟩,
        hbefore first List.mem_cons_self⟩
  · rintro (⟨rfl, hlater⟩ | ⟨⟨before, after, rfl, hbefore, hafter⟩, hfirst⟩)
    · exact ⟨[], values, rfl, fun other hother => absurd hother List.not_mem_nil, hlater⟩
    refine ⟨first :: before, after, rfl, fun other hother => ?_, hafter⟩
    rcases List.mem_cons.mp hother with rfl | hother
    · exact hfirst
    · exact hbefore other hother

lemma survives_orderedInsert {sorted : List υ} (hsorted : sorted.Pairwise fun a b => time a ≤ time b) :
    Survives clash (sorted.orderedInsert (fun a b => time a ≤ time b) first) value ↔
      (value = first ∧ ∀ other ∈ sorted, clash other → time other < time first) ∨
        (Survives clash sorted value ∧ (clash first → time first ≤ time value)) := by
  induction sorted with
  | nil =>
    rw [List.orderedInsert_nil, survives_cons]
    constructor
    · rintro (⟨rfl, -⟩ | h)
      · exact .inl ⟨rfl, fun other hother => absurd hother List.not_mem_nil⟩
      · exact absurd h.mem List.not_mem_nil
    · rintro (⟨rfl, -⟩ | ⟨h, -⟩)
      · exact .inl ⟨rfl, fun later hlater => absurd hlater List.not_mem_nil⟩
      · exact absurd h.mem List.not_mem_nil
  | cons head sorted ih =>
    obtain ⟨hhead, htail⟩ := List.pairwise_cons.mp hsorted
    by_cases hle : time first ≤ time head
    · -- everything is at or behind the new value
      have hbehind : ∀ other ∈ head :: sorted, time first ≤ time other := by
        intro other hother
        rcases List.mem_cons.mp hother with rfl | hother
        · exact hle
        · exact hle.trans (hhead other hother)
      rw [List.orderedInsert_cons, if_pos hle, survives_cons]
      constructor
      · rintro (⟨rfl, hfree⟩ | h)
        · exact .inl ⟨rfl, fun other hother hclash => absurd hclash (hfree other hother)⟩
        · exact .inr ⟨h, fun _ => hbehind value h.mem⟩
      · rintro (⟨rfl, hlater⟩ | ⟨h, -⟩)
        · exact .inl ⟨rfl, fun other hother hclash => absurd (hlater other hother hclash) (hbehind other hother).not_gt⟩
        · exact .inr h
    · rw [List.orderedInsert_cons, if_neg hle, survives_cons, ih htail, survives_cons]
      have hlt : time head < time first := not_le.mp hle
      constructor
      · rintro (⟨rfl, hfree⟩ | ⟨rfl, hlater⟩ | ⟨h, hfirst⟩)
        · refine .inr ⟨.inl ⟨rfl, fun later hlater => hfree later ?_⟩, fun hclash => absurd hclash (hfree first ?_)⟩
          · exact (List.mem_orderedInsert _).mpr (.inr hlater)
          · exact (List.mem_orderedInsert _).mpr (.inl rfl)
        · refine .inl ⟨rfl, fun other hother hclash => ?_⟩
          rcases List.mem_cons.mp hother with rfl | hother
          · exact hlt
          · exact hlater other hother hclash
        · exact .inr ⟨.inr h, hfirst⟩
      · rintro (⟨rfl, hlater⟩ | ⟨⟨rfl, hfree⟩ | h, hfirst⟩)
        · exact .inr (.inl ⟨rfl, fun other hother => hlater other (List.mem_cons_of_mem _ hother)⟩)
        · refine .inl ⟨rfl, fun later hlater => ?_⟩
          rcases (List.mem_orderedInsert _).mp hlater with rfl | hold
          · exact fun hclash => hle (hfirst hclash)
          · exact hfree later hold
        · exact .inr (.inr ⟨h, hfirst⟩)

lemma survives_insertionSort :
    Survives clash (values.insertionSort fun a b => time a ≤ time b) value ↔ Latest time clash values value := by
  induction values with
  | nil =>
    constructor
    · exact fun h => absurd h.mem List.not_mem_nil
    · rintro ⟨before, after, hsplit, -⟩
      exact absurd hsplit.symm (by simp)
  | cons first values ih =>
    have hsorted := List.pairwise_insertionSort (fun a b => time a ≤ time b) values
    rw [List.insertionSort_cons, survives_orderedInsert hsorted, ih, latest_cons]
    simp only [List.mem_insertionSort]

end Sorted

end Eviction
