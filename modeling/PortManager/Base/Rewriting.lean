import Mathlib

/-!
# Rewriting words in a text that arrives in pieces

A scanner goes through a text from left to right. Where a word stands, the unit before it allows a word and a delimiter
(or the end of the text) follows, it puts the word's replacement in its place and goes on behind the word;
everything else it copies.

When only a beginning of the text is known, the end of what is known may be the beginning of a word: it is
*unfinished*. A scanner that keeps exactly the first unfinished suffix back, and reads the rest with a sentinel behind it,
decides as it would on the whole text, however the text goes on (`advance_eq_of_decided`).
-/

namespace Rewriting
open List

structure Rules (α : Type*) where
  Word : List α → List α → Prop
  boundary : α → Bool
  /-- Whether a word may stand behind a unit, `none` at the start, that is or is not part of a word itself. -/
  allows : Option α → Bool → Bool
  plain : α
  find : List α → Option (List α × List α)
  find_iff : ∀ {text word replacement : List α}, find text = some (word, replacement) ↔
    ∃ rest, text = word ++ rest ∧ Word word replacement ∧ ∀ next ∈ rest.head?, boundary next = true
  boundary_plain : boundary plain = false
  /-- A word is longer than what a scanner remembers of the text before. -/
  length_word : ∀ {word replacement : List α}, Word word replacement → 3 ≤ word.length
  last_word : ∀ {word : List α} {last : α} {replacement : List α}, Word (word ++ [last]) replacement →
    boundary last = false ∧ last ≠ plain
  /-- No word starts inside a word and goes on behind its end. -/
  inner_word : ∀ {before inner after replacement replacement' : List α} {next : α},
    Word (before ++ inner) replacement → before ≠ [] → inner ≠ [] → boundary next = true →
      ¬Word (inner ++ next :: after) replacement'

/-- Where a scanner stands: the unit before, whether that is part of a word, and how many units of the word are still to
come. -/
structure Place (α : Type*) where
  before : Option α
  used : Bool
  skip : Nat

variable {α : Type*} (R : Rules α)

/-- A place where no word is under way. -/
def Place.at (before : Option α) (used : Bool) : Place α := ⟨before, used, 0⟩

def Rules.findAt (place : Place α) (text : List α) : Option (List α × List α) :=
  if R.allows place.before place.used then R.find text else none

/-- Scans a text with more text ahead of it: what is put out, and the place behind the text. -/
def advance (ahead : List α) : Place α → List α → List α × Place α
  | place, [] => ([], place)
  | ⟨_, _, skip + 1⟩, unit :: text => advance ahead ⟨some unit, true, skip⟩ text
  | ⟨before, used, 0⟩, unit :: text =>
    match R.findAt ⟨before, used, 0⟩ (unit :: text ++ ahead) with
    | some (word, replacement) =>
      let next := advance ahead ⟨some unit, true, word.length - 1⟩ text
      (replacement ++ next.1, next.2)
    | none =>
      let next := advance ahead ⟨some unit, false, 0⟩ text
      (unit :: next.1, next.2)

def rewrite (text : List α) : List α := (advance R [] (.at none false) text).1

variable {R}

@[simp] lemma advance_nil (ahead : List α) (place : Place α) : advance R ahead place [] = ([], place) := by
  cases place with
  | mk before used skip => cases skip <;> rfl

lemma advance_skip (ahead : List α) (before : Option α) (used : Bool) (skip : Nat) (unit : α) (text : List α) :
    advance R ahead ⟨before, used, skip + 1⟩ (unit :: text) = advance R ahead ⟨some unit, true, skip⟩ text := rfl

variable {ahead text word replacement kept part : List α} {before : Option α} {used : Bool}
    {unit : α}

lemma advance_copy (h : R.findAt (.at before used) (unit :: text ++ ahead) = none) :
    advance R ahead (.at before used) (unit :: text) =
      (unit :: (advance R ahead (.at (some unit) false) text).1, (advance R ahead (.at (some unit) false) text).2) := by
  rw [Place.at, advance, show R.findAt ⟨before, used, 0⟩ (unit :: text ++ ahead) = none from h]
  rfl

lemma advance_replace (h : R.findAt (.at before used) (unit :: text ++ ahead) = some (word, replacement)) :
    advance R ahead (.at before used) (unit :: text) =
      (replacement ++ (advance R ahead ⟨some unit, true, word.length - 1⟩ text).1,
        (advance R ahead ⟨some unit, true, word.length - 1⟩ text).2) := by
  rw [Place.at, advance, show R.findAt ⟨before, used, 0⟩ (unit :: text ++ ahead) = some (word, replacement) from h]

/-- A text can be scanned in two parts, the second one being ahead of the first. -/
lemma advance_append (ahead : List α) (place : Place α) (first second : List α) :
    advance R ahead place (first ++ second) =
      ((advance R (second ++ ahead) place first).1 ++ (advance R ahead (advance R (second ++ ahead) place first).2 second).1,
        (advance R ahead (advance R (second ++ ahead) place first).2 second).2) := by
  induction first generalizing place with
  | nil => simp
  | cons unit first ih =>
    obtain ⟨before, used, skip⟩ := place
    cases skip with
    | succ skip => rw [cons_append, advance_skip, advance_skip, ih]
    | zero =>
      have hlook : unit :: (first ++ second) ++ ahead = unit :: first ++ (second ++ ahead) := by simp
      cases hfind : R.findAt (.at before used) (unit :: first ++ (second ++ ahead)) with
      | none =>
        rw [← Place.at, cons_append, advance_copy (hlook ▸ hfind), advance_copy hfind, ih]
        rfl
      | some found =>
        obtain ⟨word, replacement⟩ := found
        rw [← Place.at, cons_append, advance_replace (hlook ▸ hfind), advance_replace hfind, ih,
          append_assoc]

/-! ## What is decided -/

/-- The text may still become a word. -/
def Rules.Unfinished (R : Rules α) (text : List α) : Prop := ∃ after replacement, R.Word (text ++ after) replacement

lemma Rules.Unfinished.of_append {more : List α} (h : R.Unfinished (text ++ more)) : R.Unfinished text := by
  obtain ⟨after, replacement, hword⟩ := h
  rw [append_assoc] at hword
  exact ⟨_, _, hword⟩

/-- What a scanner reads behind the part it may process: the delimiter that follows, or a plain unit. -/
def Rules.sentinel (R : Rules α) : List α → List α
  | [] => [R.plain]
  | next :: _ => if R.boundary next then [next] else [R.plain]

/-- The suffix is kept back: it may become a word, and no longer suffix may. -/
structure Rules.KeepsBack (R : Rules α) (part kept : List α) : Prop where
  decided : ∀ first last, part = first ++ last → last ≠ [] → ¬R.Unfinished (last ++ kept)
  unfinished : kept = [] ∨ R.Unfinished kept

lemma Rules.KeepsBack.of_suffix {last : List α} (first : List α)
    (h : R.KeepsBack (first ++ last) kept) : R.KeepsBack last kept  where
  decided := fun before after e hne => h.decided (first ++ before) after (by rw [e, append_assoc]) hne
  unfinished := h.unfinished

/-- A word that starts in the decided part ends there, in front of a delimiter that is known. -/
lemma Rules.KeepsBack.word_inside (h : R.KeepsBack part kept) (hne : part ≠ [])
    (hfind : R.find (part ++ kept ++ ahead) = some (word, replacement)) :
    ∃ rest, part = word ++ rest ∧ ∀ next ∈ (rest ++ kept).head?, R.boundary next = true ∧ rest ++ kept ≠ [] := by
  obtain ⟨rest, htext, hword, hnext⟩ := R.find_iff.mp hfind
  have hdecided : ¬R.Unfinished (part ++ kept) := h.decided [] part rfl hne
  rcases append_eq_append_iff.mp htext with ⟨middle, rfl, -⟩ | ⟨middle, hpart, rfl⟩
  · exact absurd ⟨middle, replacement, hword⟩ hdecided
  -- the delimiter is in the part that is known
  have hmiddle : middle ≠ [] := by
    rintro rfl
    rw [append_nil] at hpart
    exact hdecided ⟨[], replacement, by rwa [append_nil, hpart]⟩
  obtain ⟨next, after, rfl⟩ := exists_cons_of_ne_nil hmiddle
  have hboundary : R.boundary next = true := hnext next (by simp)
  rcases append_eq_append_iff.mp hpart with ⟨inner, rfl, hkept⟩ | ⟨inner, rfl, hkept⟩
  · -- a word that ends in the kept part has a word starting inside it, unless it ends where that starts
    rcases eq_or_ne inner [] with rfl | hinner
    · refine ⟨[], by simp, fun other hother => ?_⟩
      rw [nil_append] at hkept
      subst hkept
      obtain rfl : next = other := by simpa using hother
      exact ⟨hboundary, by simp⟩
    · have hkept' : R.Unfinished kept := h.unfinished.resolve_left (by rw [hkept]; simp)
      obtain ⟨more, replacement', hword'⟩ := hkept'
      rw [hkept, append_assoc, cons_append] at hword'
      exact absurd hword' (R.inner_word hword hne hinner hboundary)
  · refine ⟨inner, rfl, fun other hother => ?_⟩
    rw [← hkept] at hother ⊢
    obtain rfl : next = other := by simpa using hother
    exact ⟨hboundary, by simp⟩

lemma sentinel_cases (kept : List α) : ∃ unit, R.sentinel kept = [unit] ∧
    ((R.boundary unit = true ∧ ∃ after, kept = unit :: after) ∨ unit = R.plain) := by
  cases kept with
  | nil => exact ⟨_, rfl, .inr rfl⟩
  | cons unit after =>
    rw [Rules.sentinel]
    split_ifs with hboundary
    · exact ⟨unit, rfl, .inl ⟨hboundary, after, rfl⟩⟩
    · exact ⟨_, rfl, .inr rfl⟩

variable (h : R.KeepsBack part kept)
include h

/-- The sentinel stands for everything that may follow. -/
lemma Rules.KeepsBack.find_sentinel (hne : part ≠ []) (ahead : List α) :
    R.find (part ++ R.sentinel kept) = R.find (part ++ kept ++ ahead) := by
  refine Option.ext fun found => ?_
  obtain ⟨word, replacement⟩ := found
  constructor
  · intro hfind
    obtain ⟨rest, htext, hword, hnext⟩ := R.find_iff.mp hfind
    obtain ⟨unit, hunit, hkind⟩ := sentinel_cases (R := R) kept
    -- the word does not take the sentinel in
    have hinside : ∃ inner, part = word ++ inner ∧ rest = inner ++ [unit] := by
      rw [hunit] at htext
      rcases eq_nil_or_concat rest with rfl | ⟨inner, last, rfl⟩
      · rw [append_nil] at htext
        rw [← htext] at hword
        obtain ⟨hb, hp⟩ := R.last_word hword
        rcases hkind with ⟨hkind, -⟩ | hkind
        · rw [hkind] at hb
          cases hb
        · exact absurd hkind hp
      · rw [concat_eq_append] at htext ⊢
        rw [← append_assoc] at htext
        obtain ⟨hpart, hunits⟩ := append_inj' htext rfl
        exact ⟨inner, hpart, by rw [hunits]⟩
    obtain ⟨inner, rfl, rfl⟩ := hinside
    refine R.find_iff.mpr ⟨inner ++ kept ++ ahead, by simp, hword, fun next hmem => ?_⟩
    cases inner with
    | cons first inner =>
      obtain rfl : first = next := by simpa using hmem
      exact hnext first (by simp)
    | nil =>
      have hboundary : R.boundary unit = true := hnext unit (by simp)
      rcases hkind with ⟨-, after, rfl⟩ | rfl
      · obtain rfl : unit = next := by simpa using hmem
        exact hboundary
      · rw [R.boundary_plain] at hboundary
        cases hboundary
  · intro hfind
    obtain ⟨rest, rfl, hrest⟩ := h.word_inside hne hfind
    obtain ⟨-, -, hword, -⟩ := R.find_iff.mp hfind
    refine R.find_iff.mpr ⟨rest ++ R.sentinel kept, by simp, hword, fun next hmem => ?_⟩
    cases rest with
    | cons first rest =>
      obtain rfl : first = next := by simpa using hmem
      exact (hrest first (by simp)).1
    | nil =>
      cases kept with
      | nil =>
        -- then the whole known text is a word, which is not decided
        refine absurd ⟨[], replacement, ?_⟩ (h.decided [] _ rfl hne)
        simpa using hword
      | cons unit after =>
        have hb : R.boundary unit = true := (hrest unit (by simp)).1
        rw [Rules.sentinel, if_pos hb] at hmem
        obtain rfl : unit = next := by simpa using hmem
        exact hb

variable (place : Place α)

/-- A scanner that keeps the unfinished suffix back decides on the rest as on the whole text. -/
lemma advance_eq_of_decided (ahead : List α) :
    advance R (R.sentinel kept) place part = advance R (kept ++ ahead) place part := by
  induction part generalizing place with
  | nil => simp
  | cons unit part ih =>
    obtain ⟨before, used, skip⟩ := place
    have htail : R.KeepsBack part kept := h.of_suffix [unit]
    cases skip with
    | succ skip => rw [advance_skip, advance_skip, ih htail]
    | zero =>
      have hsame : R.findAt (.at before used) (unit :: part ++ R.sentinel kept) =
          R.findAt (.at before used) (unit :: part ++ (kept ++ ahead)) := by
        unfold Rules.findAt
        rw [h.find_sentinel (cons_ne_nil _ _) ahead, append_assoc]
      rw [← Place.at]
      cases hfind : R.findAt (.at before used) (unit :: part ++ (kept ++ ahead)) with
      | none => rw [advance_copy (hsame.trans hfind), advance_copy hfind, ih htail]
      | some found => rw [advance_replace (hsame.trans hfind), advance_replace hfind, ih htail]

omit h

/-- No word is under way at the end of a part that no word leaves. -/
lemma skip_advance (hinside : ∀ first last word replacement, part = first ++ last → last ≠ [] →
      R.find (last ++ ahead) = some (word, replacement) → word.length ≤ last.length)
    (hplace : place.skip ≤ part.length) : (advance R ahead place part).2.skip = 0 := by
  induction part generalizing place with
  | nil => simpa using hplace
  | cons unit part ih =>
    obtain ⟨before, used, skip⟩ := place
    have htail := fun place => ih place fun first last word replacement hpart =>
      hinside (unit :: first) last word replacement (by rw [hpart, cons_append])
    cases skip with
    | succ skip => exact htail ⟨some unit, true, skip⟩ (Nat.le_of_succ_le_succ hplace)
    | zero =>
      rw [← Place.at]
      cases hfind : R.findAt (.at before used) (unit :: part ++ ahead) with
      | none =>
        rw [advance_copy hfind]
        exact htail _ (Nat.zero_le _)
      | some found =>
        rw [advance_replace hfind]
        refine htail _ ?_
        unfold Rules.findAt at hfind
        split at hfind
        · exact Nat.sub_le_of_le_add (hinside [] _ _ _ rfl (cons_ne_nil _ _) hfind)
        · cases hfind

include h in
lemma skip_advance_of_decided (hplace : place.skip ≤ part.length) :
    (advance R (R.sentinel kept) place part).2.skip = 0 := by
  refine skip_advance place (fun first last word replacement hpart hlast hfind => ?_) hplace
  have htail : R.KeepsBack last kept := (hpart ▸ h).of_suffix first
  rw [htail.find_sentinel hlast []] at hfind
  obtain ⟨rest, rfl, -⟩ := htail.word_inside hlast hfind
  rw [length_append]
  exact Nat.le_add_right _ _

lemma skip_advance_nil (text : List α) (hplace : place.skip ≤ text.length) : (advance R [] place text).2.skip = 0 := by
  refine skip_advance place (fun first last word replacement _ _ hfind => ?_) hplace
  obtain ⟨rest, hlast, -⟩ := R.find_iff.mp hfind
  rw [append_nil] at hlast
  rw [hlast, length_append]
  exact Nat.le_add_right _ _

lemma find_short (hshort : text.length < 3) : R.find text = none := by
  refine Option.eq_none_iff_forall_ne_some.mpr fun found hfound => ?_
  obtain ⟨rest, rfl, hword, -⟩ := R.find_iff.mp hfound
  have hlength := R.length_word hword
  rw [length_append] at hshort
  omega

variable {place} in
lemma word_ne_nil {found : List α × List α} (hfind : R.findAt place text = some found) : found.1 ≠ [] := by
  unfold Rules.findAt at hfind
  split at hfind
  · obtain ⟨rest, -, hword, -⟩ := R.find_iff.mp hfind
    have hlength := R.length_word hword
    intro hnil
    rw [hnil] at hlength
    cases hlength
  · cases hfind

lemma advance_copies (hnone : ∀ first last, text = first ++ last → last ≠ [] → R.find (last ++ ahead) = none) :
    advance R ahead (.at before false) text = (text, .at (text.getLast?.or before) false) := by
  induction text generalizing before with
  | nil => simp
  | cons c text ih =>
    have hfind : R.findAt (.at before false) (c :: text ++ ahead) = none := by
      rw [Rules.findAt, hnone [] (c :: text) rfl (cons_ne_nil _ _), ite_self]
    rw [advance_copy hfind, ih fun first last htext hne => hnone (c :: first) last (by rw [htext]; rfl) hne]
    cases text with
    | nil => rfl
    | cons d text => simp [getLast?_cons]

lemma before_advance (text : List α) (last : α) : (advance R ahead place (text ++ [last])).2.before = some last := by
  rw [advance_append]
  generalize (advance R ([last] ++ ahead) place text).2 = place'
  obtain ⟨before, used, skip⟩ := place'
  cases skip with
  | succ skip => simp [advance_skip]
  | zero =>
    rw [← Place.at]
    cases hfind : R.findAt (.at before used) ([last] ++ ahead) with
    | none => rw [advance_copy hfind]; simp [Place.at]
    | some found => rw [advance_replace hfind]; simp

end Rewriting
