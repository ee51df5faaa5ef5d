import Mathlib

/-!
# Lines with their ends

A text is cut into lines, each with the line break that ends it: a line feed, a carriage return, or both. Only the last line may have no end.
`parse` and `render` undo each other (`render_parse`, `parse_render`), and a text after complete lines is parsed on its own
(`parse_render_append`) unless a line feed after a carriage return joins it.
-/

namespace LineRecords
open List

inductive LineEnd where
  | lf
  | crlf
  | cr
deriving DecidableEq

def LineEnd.text : LineEnd → List Char
  | .lf => ['\n']
  | .crlf => ['\r', '\n']
  | .cr => ['\r']

structure Line where
  content : List Char
  eol : Option LineEnd
deriving DecidableEq

def Line.text (line : Line) : List Char := line.content ++ line.eol.elim [] LineEnd.text

def render (lines : List Line) : List Char := lines.flatMap Line.text

/-- The lines of a text, with the characters of the current line that were read. -/
def parseFrom (content : List Char) : List Char → List Line
  | [] => if content = [] then [] else [⟨content, none⟩]
  | '\r' :: '\n' :: rest => ⟨content, some .crlf⟩ :: parseFrom [] rest
  | '\r' :: rest => ⟨content, some .cr⟩ :: parseFrom [] rest
  | '\n' :: rest => ⟨content, some .lf⟩ :: parseFrom [] rest
  | c :: rest => parseFrom (content ++ [c]) rest

variable (text : List Char)

def parse : List Line := parseFrom [] text

def Unbroken (content : List Char) : Prop := '\r' ∉ content ∧ '\n' ∉ content

instance (content : List Char) : Decidable (Unbroken content) := inferInstanceAs (Decidable (_ ∧ _))

@[simp] lemma render_nil : render [] = [] := rfl

@[simp] lemma render_cons (line : Line) (lines : List Line) : render (line :: lines) = line.text ++ render lines := rfl

@[simp] lemma render_append (first second : List Line) : render (first ++ second) = render first ++ render second :=
  flatMap_append

/-! ## Rendering what was parsed -/

lemma render_parseFrom (content text : List Char) : render (parseFrom content text) = content ++ text := by
  induction content, text using parseFrom.induct with
  | case1 => simp [parseFrom]
  | case2 content hcontent => simp [parseFrom, hcontent, Line.text]
  | case3 content rest ih | case5 content rest ih => simp [parseFrom, ih, Line.text, LineEnd.text]
  | case4 content rest hrest ih =>
    rw [parseFrom]
    · simp [ih, Line.text, LineEnd.text]
    · exact hrest
  | case6 content c rest hcrlf hcr hlf ih =>
    rw [parseFrom]
    · simp [ih]
    all_goals assumption

@[simp] lemma render_parse : render (parse text) = text := render_parseFrom [] text

/-! ## Parsing one line -/

variable {content rest : List Char} {lines : List Line}

lemma parseFrom_append {line : List Char} (hline : Unbroken line) (text : List Char) :
    parseFrom content (line ++ text) = parseFrom (content ++ line) text := by
  induction line generalizing content with
  | nil => rw [nil_append, append_nil]
  | cons c line ih =>
    obtain ⟨hcr, hlf⟩ := hline
    rw [mem_cons, not_or] at hcr hlf
    have hne : c ≠ '\r' := fun h => hcr.1 h.symm
    have hne' : c ≠ '\n' := fun h => hlf.1 h.symm
    rw [cons_append, parseFrom]
    · rw [ih ⟨hcr.2, hlf.2⟩, append_assoc, singleton_append]
    all_goals grind

/-- A line feed does not follow a carriage return. -/
def Apart (eol : LineEnd) (rest : List Char) : Prop := eol = .cr → rest.head? ≠ some '\n'

lemma parse_line {eol : LineEnd} (hcontent : Unbroken content) (hapart : Apart eol rest) :
    parse (content ++ (eol.text ++ rest)) = ⟨content, some eol⟩ :: parse rest := by
  rw [parse, parseFrom_append hcontent, nil_append]
  cases eol with
  | lf => rfl
  | crlf => rfl
  | cr =>
    show parseFrom content ('\r' :: rest) = _
    rw [parseFrom]
    · rfl
    · rintro tail rfl
      exact hapart rfl rfl

lemma parse_last (hcontent : Unbroken content) (hne : content ≠ []) : parse content = [⟨content, none⟩] := by
  have h : parseFrom [] (content ++ []) = parseFrom ([] ++ content) [] := parseFrom_append hcontent []
  rw [append_nil, nil_append] at h
  rw [parse, h, parseFrom, if_neg hne]

/-! ## Lines as they are parsed -/

/-- A line as the parser makes it. -/
def Line.Valid (line : Line) : Prop := Unbroken line.content ∧ (line.eol = none → line.content ≠ [])

def Follows (line next : Line) : Prop := line.eol ≠ none ∧ (line.eol = some .cr → next ≠ ⟨[], some .lf⟩)

/-- Lines as the parser makes them. -/
def WellFormed (lines : List Line) : Prop := (∀ line ∈ lines, line.Valid) ∧ lines.IsChain Follows

lemma wellFormed_nil : WellFormed [] := ⟨nofun, .nil⟩

lemma wellFormed_cons {line : Line} : WellFormed (line :: lines) ↔
    line.Valid ∧ (∀ next ∈ lines.head?, Follows line next) ∧ WellFormed lines := by
  simp only [WellFormed, forall_mem_cons, isChain_cons]
  tauto

lemma wellFormed_append {first second : List Line} : WellFormed (first ++ second) ↔
    WellFormed first ∧ WellFormed second ∧ ∀ line ∈ first.getLast?, ∀ next ∈ second.head?, Follows line next := by
  simp only [WellFormed, forall_mem_append, isChain_append]
  tauto

lemma head?_render_eq (hvalid : ∀ line ∈ lines, line.Valid) :
    (render lines).head? = some '\n' ↔ lines.head? = some ⟨[], some .lf⟩ := by
  cases lines with
  | nil => simp
  | cons line lines =>
    obtain ⟨content, eol⟩ := line
    obtain ⟨hunbroken, hnone⟩ := hvalid _ mem_cons_self
    cases content with
    | nil =>
      cases eol with
      | none => exact absurd rfl (hnone rfl)
      | some eol => cases eol <;> simp [Line.text, LineEnd.text]
    | cons c content =>
      have hne : c ≠ '\n' := by
        rintro rfl
        exact hunbroken.2 mem_cons_self
      simp [Line.text, hne]

lemma parse_render (h : WellFormed lines) : parse (render lines) = lines := by
  induction lines with
  | nil => rfl
  | cons line lines ih =>
    obtain ⟨hvalid, hfollows, hrest⟩ := wellFormed_cons.mp h
    obtain ⟨content, eol⟩ := line
    cases eol with
    | none =>
      cases lines with
      | nil =>
        rw [render_cons, render_nil, append_nil]
        show parse (content ++ []) = _
        rw [append_nil]
        exact parse_last hvalid.1 (hvalid.2 rfl)
      | cons next lines => exact absurd rfl (hfollows next rfl).1
    | some eol =>
      have happly : parse (content ++ (eol.text ++ render lines)) = ⟨content, some eol⟩ :: parse (render lines) := by
        refine parse_line hvalid.1 fun hcr hhead => ?_
        have hnext := (head?_render_eq hrest.1).mp hhead
        exact (hfollows _ hnext).2 (congrArg some hcr) rfl
      rw [render_cons]
      show parse ((content ++ eol.text) ++ render lines) = _
      rw [append_assoc, happly, ih hrest]

lemma unbroken_nil : Unbroken [] := ⟨nofun, nofun⟩

lemma wellFormed_parseFrom {text : List Char} (hcontent : Unbroken content) : WellFormed (parseFrom content text) := by
  induction content, text using parseFrom.induct with
  | case1 => exact wellFormed_nil
  | case2 content hne =>
    rw [parseFrom, if_neg hne]
    exact wellFormed_cons.mpr ⟨⟨hcontent, fun _ => hne⟩, nofun, wellFormed_nil⟩
  | case3 content rest ih | case5 content rest ih =>
    rw [parseFrom]
    exact wellFormed_cons.mpr ⟨⟨hcontent, nofun⟩, fun _ _ => ⟨nofun, nofun⟩, ih unbroken_nil⟩
  | case4 content rest hrest ih =>
    rw [parseFrom]
    · refine wellFormed_cons.mpr ⟨⟨hcontent, nofun⟩, fun next hnext => ⟨nofun, ?_⟩, ih unbroken_nil⟩
      -- the rest would begin with a line feed, which belongs to this line
      rintro - rfl
      have hhead := (head?_render_eq (ih unbroken_nil).1).mpr hnext
      rw [render_parseFrom, nil_append] at hhead
      obtain ⟨tail, htail⟩ := head?_eq_some_iff.mp hhead
      exact hrest tail htail
    · exact hrest
  | case6 content c rest hcrlf hcr hlf ih =>
    rw [parseFrom]
    · apply ih
      constructor
      · simpa [hcontent.1] using fun h => hcr h.symm
      · simpa [hcontent.2] using fun h => hlf h.symm
    all_goals assumption

lemma wellFormed_parse : WellFormed (parse text) := wellFormed_parseFrom unbroken_nil

lemma parse_eq_iff {text : List Char} : parse text = lines ↔ WellFormed lines ∧ render lines = text := by
  constructor
  · rintro rfl
    exact ⟨wellFormed_parse text, render_parse text⟩
  · rintro ⟨hlines, rfl⟩
    exact parse_render hlines

/-! ## A text after complete lines -/

/-- Every line up to the last one has its end. -/
def Complete (lines : List Line) : Prop := ∀ last ∈ lines.getLast?, last.eol ≠ none

lemma parse_render_append (hlines : WellFormed lines) (hcomplete : Complete lines)
    (hapart : ∀ last ∈ lines.getLast?, ∀ eol ∈ last.eol, Apart eol rest) :
    parse (render lines ++ rest) = lines ++ parse rest := by
  have hrest := wellFormed_parse rest
  refine parse_eq_iff.mpr ⟨wellFormed_append.mpr ⟨hlines, hrest, fun last hlast next hnext => ⟨hcomplete last hlast, ?_⟩⟩, ?_⟩
  · rintro hcr rfl
    have hhead := (head?_render_eq hrest.1).mpr hnext
    rw [render_parse] at hhead
    exact hapart last hlast .cr hcr rfl hhead
  · rw [render_append, render_parse]

lemma parse_render_append_lf (hlines : WellFormed (lines ++ [⟨content, some .cr⟩])) :
    parse (render (lines ++ [⟨content, some .cr⟩]) ++ '\n' :: rest) = lines ++ ⟨content, some .crlf⟩ :: parse rest := by
  obtain ⟨hfirst, hlast, hborder⟩ := wellFormed_append.mp hlines
  have hvalid : Line.Valid ⟨content, some .crlf⟩ := ⟨(hlast.1 _ mem_cons_self).1, nofun⟩
  refine parse_eq_iff.mpr ⟨wellFormed_append.mpr ⟨hfirst, ?_, ?_⟩, ?_⟩
  · exact wellFormed_cons.mpr ⟨hvalid, fun _ _ => ⟨nofun, nofun⟩, wellFormed_parse rest⟩
  · rintro line hline next ⟨⟩
    exact ⟨(hborder line hline _ rfl).1, nofun⟩
  · simp [Line.text, LineEnd.text]

lemma exists_parse_render_append (hlines : WellFormed lines) (hcomplete : Complete lines) (rest : List Char) :
    ∃ lines' rest', parse (render lines ++ rest) = lines' ++ parse rest' ∧ lines'.map Line.content = lines.map Line.content ∧
      (rest' = rest ∨ rest = '\n' :: rest') := by
  induction lines using List.reverseRecOn with
  | nil => exact ⟨[], rest, rfl, rfl, .inl rfl⟩
  | append_singleton lines last _ =>
    obtain ⟨content, eol⟩ := last
    by_cases hjoined : eol = some .cr ∧ rest.head? = some '\n'
    · obtain ⟨rfl, hhead⟩ := hjoined
      obtain ⟨rest', rfl⟩ := head?_eq_some_iff.mp hhead
      refine ⟨lines ++ [⟨content, some .crlf⟩], rest', ?_, by simp, .inr rfl⟩
      rw [parse_render_append_lf hlines, append_assoc, singleton_append]
    · refine ⟨_, rest, parse_render_append hlines hcomplete ?_, rfl, .inl rfl⟩
      intro last hlast eol' heol hcr hhead
      rw [getLast?_append_of_ne_nil _ (cons_ne_nil _ _)] at hlast
      cases hlast
      exact hjoined ⟨hcr ▸ heol, hhead⟩

/-- The last character is part of a line break. -/
def EndsWithBreak : Prop := text.getLast? = some '\r' ∨ text.getLast? = some '\n'

instance (text : List Char) : Decidable (EndsWithBreak text) := inferInstanceAs (Decidable (_ ∨ _))

lemma LineEnd.endsWithBreak (before : List Char) (eol : LineEnd) : EndsWithBreak (before ++ eol.text) := by
  cases eol <;> simp [EndsWithBreak, LineEnd.text]

lemma Unbroken.not_endsWithBreak (h : Unbroken content) : ¬ EndsWithBreak content := by
  rintro (hlast | hlast)
  · exact h.1 (mem_of_getLast? hlast)
  · exact h.2 (mem_of_getLast? hlast)

lemma endsWithBreak_append {before text : List Char} (h : text ≠ []) : EndsWithBreak (before ++ text) ↔ EndsWithBreak text := by
  rw [EndsWithBreak, EndsWithBreak, getLast?_append_of_ne_nil _ h]

lemma endsWithBreak_render_iff (h : WellFormed lines) :
    EndsWithBreak (render lines) ↔ ∃ last ∈ lines.getLast?, last.eol ≠ none := by
  induction lines using List.reverseRecOn with
  | nil => simp [EndsWithBreak]
  | append_singleton lines last _ =>
    have hvalid := h.1 last (by simp)
    obtain ⟨content, eol⟩ := last
    cases eol with
    | none =>
      have hne : content ≠ [] := hvalid.2 rfl
      simp [Line.text, endsWithBreak_append hne, hvalid.1.not_endsWithBreak]
    | some eol => simpa [Line.text] using eol.endsWithBreak (render lines ++ content)

lemma complete_parse {text : List Char} (h : text ≠ [] → EndsWithBreak text) : Complete (parse text) := by
  intro last hlast
  have hne : text ≠ [] := by
    rintro rfl
    cases hlast
  have hends := h hne
  rw [← render_parse text] at hends
  obtain ⟨last', hlast', hended⟩ := (endsWithBreak_render_iff (wellFormed_parse text)).mp hends
  obtain rfl := Option.mem_unique hlast' hlast
  exact hended

lemma parse_append {text : List Char} (htext : text ≠ [] → EndsWithBreak text)
    (hrest : rest.head? ≠ some '\n') : parse (text ++ rest) = parse text ++ parse rest := by
  have h := parse_render_append (wellFormed_parse text) (complete_parse htext) fun _ _ _ _ _ => hrest
  rwa [render_parse] at h

lemma length_render (lines : List Line) : (render lines).length = (lines.map fun line => line.text.length).sum :=
  length_flatMap

end LineRecords
