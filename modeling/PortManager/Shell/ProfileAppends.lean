import PortManager.Shell.ShellProfile
import PortManager.Base.SplitText

/-!
# Text that the user appends to a managed profile

The note of the prelude block says how the user's text ended when the blocks were written. A text that the user appends after the
activation block ends in its own way, and the restoring applies the note to it: `restore_keeps_iff` says for which texts nothing is lost.
A removed line is longer than the line break that the rewriting may add, so a profile or an appended text with lines of Port Manager comes
out too short (`length_restored`).
-/

namespace PortManager.ShellProfile

open LineRecords List Line Option BlockRemoval

variable {options : ManagedShellProfileOptions} {content appended : List Char}

/-- The profile after the user appended a text to the rewritten one and had it restored. -/
def restored (options : ManagedShellProfileOptions) (content appended : List Char) : List Char :=
  restoreShellProfileContent (rewriteManagedShellProfile content options ++ appended) options

def profileEol (content : List Char) : LineEnd := eolOf (parse (bodyOf content))

/-- The user's text and the appended one are there, with at most the line break between them that the rewriting adds. -/
def Keeps (options : ManagedShellProfileOptions) (content appended : List Char) : Prop :=
  restored options content appended = content ++ appended ∨
    restored options content appended = content ++ (profileEol content).text ++ appended

/-! ## The lengths -/

lemma length_text_le (eol : LineEnd) : eol.text.length ≤ 2 := by
  cases eol <;> decide

lemma length_userRecords_le (records : List Line) : (render (userRecords records options)).length ≤ (render records).length := by
  rw [length_render, length_render]
  have hfilter : (userRecords records options).Sublist records :=
    filter_sublist.trans (remove_sublist 0 records)
  exact (hfilter.map _).sum_le_sum fun _ _ => Nat.zero_le _

variable {records : List Line} {text body : List Char} {eol : LineEnd}

lemma length_userRecords_of_managed (h : ¬ Unmanaged options records) :
    (render (userRecords records options)).length + 3 ≤ (render records).length := by
  have hcontent (line : Line) : line.content.length ≤ line.text.length := by simp [text]
  rw [length_render, length_render]
  by_cases hfree : BlockRemoval.Free (managedBlock options) records
  · have howned : ∃ record ∈ records, record.content ∈ options.ownedLines := by
      by_contra hnone
      push Not at hnone
      exact h ⟨hfree, hnone⟩
    obtain ⟨record, hrecord, howned⟩ := howned
    have hremove : userRecords records options = records.filter fun record => record.content ∉ options.ownedLines := by
      rw [userRecords, removeManagedBlocks, remove_of_free hfree]
    rw [hremove]
    exact weight_filter_of_not hrecord (by simp [howned]) ((options.owned_long _ howned).trans_le (hcontent record))
  · have hmarkers : 3 ≤ profilePreludeStart.length ∧ 3 ≤ profilePostludeStart.length := by decide +kernel
    have hremove : ((removeManagedBlocks records options).1.map fun line => line.text.length).sum + 3 ≤
        (records.map fun line => line.text.length).sum := by
      refine weight_remove_of_not_free (fun line rest hblock => ?_) hfree
      refine le_trans ?_ (hcontent line)
      obtain hstart | hstart := start_of_managedBlock hblock
      · exact hstart ▸ hmarkers.1
      · exact hstart ▸ hmarkers.2
    have hfilter : (userRecords records options).Sublist (removeManagedBlocks records options).1 := filter_sublist
    have hle := (hfilter.map fun line => line.text.length).sum_le_sum fun _ _ => Nat.zero_le _
    omega

lemma length_completeLast (eol : LineEnd) (records : List Line) :
    (render (completeLast eol records)).length ≤ (render records).length + 2 := by
  induction records using reverseRecOn with
  | nil => simp
  | append_singleton records last _ =>
    obtain ⟨content, end?⟩ := last
    have := length_text_le eol
    cases end? <;> simp [text]
    omega

lemma length_withLastEol_none (records : List Line) : (render (withLastEol none records)).length ≤ (render records).length := by
  induction records using reverseRecOn with
  | nil => exact le_rfl
  | append_singleton records last _ => simp [text]

variable (eol)

lemma completeLast_ends (records : List Line) (h : render (completeLast eol records) ≠ []) :
    EndsWithBreak (render (completeLast eol records)) := by
  induction records using reverseRecOn with
  | nil => exact absurd rfl h
  | append_singleton records last _ =>
    simpa [text] using LineEnd.endsWithBreak (render records ++ last.content) (last.eol.getD eol)

lemma head?_postludeBlock (rest : List Char) : (render (postludeBlock options eol) ++ rest).head? ≠ some '\n' := by
  have h : (render (postludeBlock options eol) ++ rest).head? = some '#' := rfl
  rw [h]
  decide

lemma complete_preludeBlock (originalFinalNewline : Bool) : Complete (preludeBlock options originalFinalNewline eol) := by
  rintro _ ⟨⟩
  exact nofun

lemma complete_postludeBlock : Complete (postludeBlock options eol) := by
  rintro _ ⟨⟩
  exact nofun

variable {eol}

lemma length_restored (options : ManagedShellProfileOptions) (content appended : List Char) : ∃ user rest : List Char,
    user.length ≤ (render (completeLast (profileEol content) (userRecords (parse (bodyOf content)) options))).length ∧
      (rest = appended ∨ appended = '\n' :: rest) ∧
      (restored options content appended).length ≤
        (bomOf content).length + (render (userRecords (parse user) options)).length + (render (userRecords (parse rest) options)).length := by
  set completed := completeLast (profileEol content) (userRecords (parse (bodyOf content)) options) with hcompleted
  set note := (removeManagedBlocks (parse (bodyOf content)) options).2.getD (lastEnded (userRecords (parse (bodyOf content)) options))
    with hnote
  have hrewrite : rewriteManagedShellProfile content options ++ appended = bomOf content ++
      (render (preludeBlock options note (profileEol content)) ++
        (render completed ++ (render (postludeBlock options (profileEol content)) ++ appended))) := by
    simp [rewriteManagedShellProfile, profileEol, hcompleted, hnote]
  have hwell : WellFormed (preludeBlock options note (profileEol content)) := wellFormed_preludeBlock _ _
  have hwell' : WellFormed (postludeBlock options (profileEol content)) := wellFormed_postludeBlock _
  -- the prelude block may take a line feed from the text between the blocks, and the activation block one from the appended text
  obtain ⟨before, middle, hbefore, hbeforeContent, hmiddle⟩ := exists_parse_render_append hwell (complete_preludeBlock _ _)
    (render completed ++ (render (postludeBlock options (profileEol content)) ++ appended))
  obtain ⟨after, rest, hafter, hafterContent, hrest⟩ := exists_parse_render_append hwell' (complete_postludeBlock _) appended
  have hends := completeLast_ends (profileEol content) (userRecords (parse (bodyOf content)) options)
  rw [← hcompleted] at hends
  obtain ⟨user, rfl, hlength, huser⟩ : ∃ user : List Char,
      middle = user ++ (render (postludeBlock options (profileEol content)) ++ appended) ∧
        user.length ≤ (render completed).length ∧ (user ≠ [] → EndsWithBreak user) := by
    obtain rfl | hjoined := hmiddle
    · exact ⟨render completed, rfl, le_rfl, hends⟩
    cases hcase : render completed with
    | nil =>
      rw [hcase, nil_append] at hjoined
      exact absurd (congrArg head? hjoined) (head?_postludeBlock _ _)
    | cons c user =>
      rw [hcase, cons_append] at hjoined
      refine ⟨user, (cons.inj hjoined).2.symm, by simp, fun hne => ?_⟩
      have hwhole := hends (by simp [hcase])
      rw [hcase] at hwhole
      rw [← singleton_append, endsWithBreak_append hne] at hwhole
      exact hwhole
  refine ⟨user, rest, hlength, hrest, ?_⟩
  have hhead : (render (preludeBlock options note (profileEol content)) ++
      (render completed ++ (render (postludeBlock options (profileEol content)) ++ appended))).head? ≠ some byteOrderMark := by
    show some '#' ≠ some byteOrderMark
    decide +kernel
  have hparse : parse (bodyOf (rewriteManagedShellProfile content options ++ appended)) = before ++ (parse user ++ (after ++ parse rest)) := by
    rw [hrewrite, bodyOf_append hhead, hbefore, parse_append huser (head?_postludeBlock _ _), hafter]
  rw [restored, restoreShellProfileContent]
  simp only [hparse, userRecords_written hbeforeContent hafterContent]
  rw [hrewrite, bomOf_append hhead, length_append]
  split
  · have := length_withLastEol_none (userRecords (parse user) options ++ userRecords (parse rest) options)
    rw [render_append, length_append] at this
    omega
  · rw [render_append, length_append]
    omega

lemma Keeps.length (h : Keeps options content appended) :
    (bomOf content).length + (bodyOf content).length + appended.length ≤ (restored options content appended).length := by
  have hcontent : content.length = (bomOf content).length + (bodyOf content).length := by
    rw [← length_append, bomOf_append_bodyOf]
  obtain h | h := h <;> rw [h]
  · rw [length_append]
    omega
  · rw [length_append, length_append]
    omega

/-- Lines of Port Manager in the profile or in the appended text are not kept. -/
lemma Keeps.unmanaged (h : Keeps options content appended) :
    Unmanaged options (parse (bodyOf content)) ∧ Unmanaged options (parse appended) := by
  have hkeeps := h.length
  obtain ⟨user, rest, huser, hrest, hlength⟩ := length_restored options content appended
  have hcompleted := length_completeLast (profileEol content) (userRecords (parse (bodyOf content)) options)
  have huser' : (render (userRecords (parse user) options)).length ≤ (render (parse user)).length := length_userRecords_le _
  have hrest' : (render (userRecords (parse rest) options)).length ≤ (render (parse rest)).length := length_userRecords_le _
  have hshort : rest.length ≤ appended.length := by
    obtain rfl | rfl := hrest
    · exact le_rfl
    · simp
  have hbody : (render (userRecords (parse (bodyOf content)) options)).length ≤ (render (parse (bodyOf content))).length :=
    length_userRecords_le _
  rw [render_parse] at huser' hrest' hbody
  constructor
  · by_contra hmanaged
    have hremoved := length_userRecords_of_managed hmanaged
    rw [render_parse] at hremoved
    omega
  by_contra hmanaged
  -- a line feed that goes to the activation block is an empty line, which is not Port Manager's
  have hrestManaged : ¬ Unmanaged options (parse rest) := by
    obtain rfl | rfl := hrest
    · exact hmanaged
    intro hunmanaged
    refine hmanaged ⟨⟨?_, hunmanaged.1⟩, forall_mem_cons.mpr ⟨fun howned => ?_, hunmanaged.2⟩⟩
    · by_contra hblock
      have hmarkers : [] ≠ profilePreludeStart ∧ [] ≠ profilePostludeStart := by decide +kernel
      exact (start_of_managedBlock hblock).elim hmarkers.1 hmarkers.2
    · exact absurd (options.owned_long _ howned) (by simp)
  have hremoved := length_userRecords_of_managed hrestManaged
  rw [render_parse] at hremoved
  omega

/-! ## Texts without lines of Port Manager -/

def finished (records appendedRecords : List Line) : List Line :=
  if some (lastEnded records) = some false then withLastEol none (completeLast (eolOf records) records ++ appendedRecords)
  else completeLast (eolOf records) records ++ appendedRecords

lemma restored_eq {after appendedRecords : List Line} (hcontent : Unmanaged options (parse (bodyOf content)))
    (happended : Unmanaged options appendedRecords)
    (hafter : after.map Line.content = (postludeBlock options (profileEol content)).map Line.content)
    (hparse : parse (render (written options (parse (bodyOf content))) ++ appended) =
      preludeBlock options (lastEnded (parse (bodyOf content))) (profileEol content) ++
        (completeLast (profileEol content) (parse (bodyOf content)) ++ (after ++ appendedRecords))) :
    restored options content appended = bomOf content ++ render (finished (parse (bodyOf content)) appendedRecords) := by
  have hhead := head?_written options (parse (bodyOf content)) appended
  have hcompleted := hcontent.completeLast (profileEol content)
  rw [restored, restoreShellProfileContent, rewrite_of_unmanaged hcontent, append_assoc]
  simp only [bomOf_append hhead, bodyOf_append hhead, hparse, userRecords_written rfl hafter, remove_written rfl hafter,
    hcompleted.userRecords_eq, hcompleted.remove_eq, happended.userRecords_eq, happended.remove_eq, none_or]
  rfl

def writtenInit (options : ManagedShellProfileOptions) (content : List Char) : List Line :=
  preludeBlock options (lastEnded (parse (bodyOf content))) (profileEol content) ++
    (completeLast (profileEol content) (parse (bodyOf content)) ++ (postludeBlock options (profileEol content)).dropLast)

lemma written_eq (options : ManagedShellProfileOptions) (content : List Char) :
    written options (parse (bodyOf content)) = writtenInit options content ++ [⟨profilePostludeEnd, some (profileEol content)⟩] := by
  simp [written, writtenInit, postludeBlock, profileEol]

lemma restored_of_apart (hcontent : Unmanaged options (parse (bodyOf content))) (happended : Unmanaged options (parse appended))
    (hapart : Apart (profileEol content) appended) :
    restored options content appended = bomOf content ++ render (finished (parse (bodyOf content)) (parse appended)) := by
  refine restored_eq hcontent happended rfl ?_
  have hwell : WellFormed (written options (parse (bodyOf content))) := wellFormed_written (wellFormed_parse _)
  have hlast : (written options (parse (bodyOf content))).getLast? = some ⟨profilePostludeEnd, some (profileEol content)⟩ := by
    rw [written_eq, getLast?_append_of_ne_nil _ (cons_ne_nil _ _)]
    rfl
  rw [parse_render_append hwell]
  · simp [written, profileEol]
  · intro last h
    obtain rfl := mem_unique hlast h
    simp
  · intro last h eol heol
    obtain rfl := mem_unique hlast h
    cases heol
    exact hapart

lemma restored_of_joined {rest : List Char} (hcontent : Unmanaged options (parse (bodyOf content))) (hrest : Unmanaged options (parse rest))
    (hcr : profileEol content = .cr) :
    restored options content ('\n' :: rest) = bomOf content ++ render (finished (parse (bodyOf content)) (parse rest)) := by
  have hafter : ((postludeBlock options (profileEol content)).dropLast ++ [(⟨profilePostludeEnd, some .crlf⟩ : Line)]).map Line.content =
      (postludeBlock options (profileEol content)).map Line.content := rfl
  refine restored_eq hcontent hrest hafter ?_
  have hwell : WellFormed (written options (parse (bodyOf content))) := wellFormed_written (wellFormed_parse _)
  rw [written_eq, hcr] at hwell ⊢
  rw [parse_render_append_lf hwell]
  simp [writtenInit, hcr]

/-! ## What the restored text is -/

lemma lastEnded_parse_iff (text : List Char) : lastEnded (parse text) ↔ EndsWithBreak text := by
  have h := endsWithBreak_render_iff (wellFormed_parse text)
  rw [render_parse] at h
  rw [h, lastEnded, Option.any_eq_true]
  simp only [Option.mem_def, Option.isSome_iff_ne_none]

def stripped (text : List Char) : List Char := render (withLastEol none (parse text))

lemma stripped_of_not_ends (h : ¬ EndsWithBreak text) : stripped text = text := by
  rw [← lastEnded_parse_iff] at h
  have hparse : withLastEol none (parse text) = parse text := by
    induction hlines : parse text using reverseRecOn with
    | nil => rfl
    | append_singleton records last _ =>
      obtain ⟨content, end?⟩ := last
      rw [hlines, lastEnded_append] at h
      cases end? with
      | none => rw [withLastEol_append]
      | some eol => exact absurd rfl h
  rw [stripped, hparse, render_parse]

lemma exists_last_of_ends (h : EndsWithBreak text) :
    ∃ records content eol, parse text = records ++ [⟨content, some eol⟩] := by
  rw [← lastEnded_parse_iff] at h
  induction hlines : parse text using reverseRecOn with
  | nil =>
    rw [hlines] at h
    cases h
  | append_singleton records last _ =>
    obtain ⟨content, end?⟩ := last
    rw [hlines, lastEnded_append] at h
    obtain ⟨eol, rfl⟩ := isSome_iff_exists.mp h
    exact ⟨records, content, eol, rfl⟩

lemma text_eq_stripped (h : EndsWithBreak text) : ∃ eol : LineEnd, text = stripped text ++ eol.text := by
  obtain ⟨records, content, eol, hparse⟩ := exists_last_of_ends h
  refine ⟨eol, ?_⟩
  have htext := render_parse text
  rw [hparse] at htext
  rw [stripped, hparse, withLastEol_append, ← htext]
  simp [Line.text]

lemma text_length_pos (eol : LineEnd) : 0 < eol.text.length := by
  cases eol <;> decide

lemma length_stripped_lt (h : EndsWithBreak text) : (stripped text).length < text.length := by
  obtain ⟨eol, htext⟩ := text_eq_stripped h
  have hpos := text_length_pos eol
  have hlength := congrArg length htext
  rw [length_append] at hlength
  omega

lemma length_stripped_le (text : List Char) : (stripped text).length ≤ text.length := by
  have h := length_withLastEol_none (parse text)
  rwa [render_parse] at h

lemma render_finished_of_ends (h : EndsWithBreak body) :
    render (finished (parse body) (parse text)) = body ++ text := by
  have hended := (lastEnded_parse_iff body).mpr h
  rw [finished, if_neg (by simp [hended]), completeLast_of_ended fun _ => hended, render_append, render_parse, render_parse]

lemma withLastEol_append_of_ne_nil {eol : Option LineEnd} (records : List Line) {second : List Line} (h : second ≠ []) :
    withLastEol eol (records ++ second) = records ++ withLastEol eol second := by
  induction second using reverseRecOn with
  | nil => exact absurd rfl h
  | append_singleton second last _ => rw [← append_assoc, withLastEol_append, withLastEol_append, append_assoc]

lemma parse_ne_nil (h : text ≠ []) : parse text ≠ [] := by
  intro hparse
  have htext := render_parse text
  rw [hparse] at htext
  exact h htext.symm

lemma render_finished_nil : render (finished (parse body) (parse [])) = body := by
  have h := restore_completeLast (eolOf (parse body)) (parse body)
  have hnil : parse [] = [] := rfl
  rw [finished, hnil, append_nil, h, render_parse]

lemma render_finished_of_empty : render (finished (parse []) (parse text)) = stripped text := by
  rfl

lemma render_finished_of_not_ends (hbody : body ≠ []) (h : ¬ EndsWithBreak body) (htext : text ≠ []) :
    render (finished (parse body) (parse text)) = body ++ ((eolOf (parse body)).text ++ stripped text) := by
  have hopen : lastEnded (parse body) = false := by
    rw [← Bool.not_eq_true, lastEnded_parse_iff]
    exact h
  have hcompleted : render (completeLast (eolOf (parse body)) (parse body)) = body ++ (eolOf (parse body)).text := by
    generalize eolOf (parse body) = eol
    have hrender := render_parse body
    induction hlines : parse body using reverseRecOn with
    | nil => exact absurd hlines (parse_ne_nil hbody)
    | append_singleton records last _ =>
      obtain ⟨content, end?⟩ := last
      rw [hlines] at hrender hopen
      rw [lastEnded_append] at hopen
      cases end? with
      | some _ => cases hopen
      | none =>
        rw [← hrender]
        simp [Line.text]
  rw [finished, if_pos (by rw [hopen]), withLastEol_append_of_ne_nil _ (parse_ne_nil htext), render_append, hcompleted, append_assoc]
  rfl

lemma parse_stripped (h : parse text = records ++ [⟨content, some eol⟩]) :
    parse (stripped text) = if content = [] then records else records ++ [⟨content, none⟩] := by
  have hwell := wellFormed_parse text
  rw [h] at hwell
  obtain ⟨hrecords, hlast, hborder⟩ := wellFormed_append.mp hwell
  have hunbroken : Unbroken content := (hlast.1 _ mem_cons_self).1
  rw [stripped, h, withLastEol_append]
  refine parse_eq_iff.mpr ?_
  split
  · next hempty =>
    subst hempty
    exact ⟨hrecords, by simp [Line.text]⟩
  · next hne =>
    refine ⟨wellFormed_append.mpr ⟨hrecords, ?_, ?_⟩, rfl⟩
    · refine wellFormed_cons.mpr ⟨⟨hunbroken, fun _ => hne⟩, ?_, wellFormed_nil⟩
      simp
    rintro line hline next ⟨⟩
    refine ⟨(hborder line hline _ rfl).1, ?_⟩
    simp

lemma eol_append_stripped_iff (hends : EndsWithBreak text) (hapart : Apart eol text) :
    eol.text ++ stripped text = text ↔ ∀ line ∈ parse text, line = ⟨[], some eol⟩ := by
  obtain ⟨records, content, eol', hparse⟩ := exists_last_of_ends hends
  constructor
  · intro h
    have hapart' : Apart eol (stripped text) := by
      intro hcr hhead
      obtain ⟨eol'', htext⟩ := text_eq_stripped hends
      refine hapart hcr ?_
      rw [htext, head?_append, hhead]
      rfl
    have hlines := parse_line unbroken_nil hapart'
    rw [nil_append, h, hparse, parse_stripped hparse] at hlines
    split at hlines
    · rw [hparse]
      exact SplitText.forall_eq_of_append_eq_cons hlines
    · have hlength := congrArg length hlines
      simp at hlength
  · intro h
    have hrecords : records = replicate records.length ⟨[], some eol⟩ :=
      eq_replicate_of_mem fun line hline => h line (by simp [hparse, hline])
    have hlast : (⟨content, some eol'⟩ : Line) = ⟨[], some eol⟩ := h _ (by simp [hparse])
    have htext : text = render (records ++ [⟨content, some eol'⟩]) := by rw [← hparse, render_parse]
    have hstripped : stripped text = render records := by
      rw [stripped, hparse, withLastEol_append, (Line.mk.inj hlast).1]
      simp [Line.text]
    have hbefore : (⟨[], some eol⟩ : Line) :: records = records ++ [⟨[], some eol⟩] := by
      rw [hrecords, ← replicate_succ, replicate_succ']
    rw [hstripped, htext, hlast, ← hbefore]
    rfl

/-! ## When the texts are kept -/

lemma bodyOf_ne_nil_of_cr (h : profileEol content = .cr) : bodyOf content ≠ [] := by
  intro hempty
  rw [profileEol, hempty] at h
  cases h

lemma Keeps.apart (h : Keeps options content appended) : Apart (profileEol content) appended := by
  intro hcr hhead
  obtain ⟨hcontent, happended⟩ := h.unmanaged
  obtain ⟨rest, rfl⟩ := head?_eq_some_iff.mp hhead
  have hrest : Unmanaged options (parse rest) := ⟨happended.1.2, (forall_mem_cons.mp happended.2).2⟩
  have hrestored := restored_of_joined hcontent hrest hcr
  have hlength := h.length
  by_cases hends : EndsWithBreak (bodyOf content)
  · rw [hrestored, render_finished_of_ends hends] at hlength
    simp at hlength
    omega
  by_cases hnil : rest = []
  · subst hnil
    rw [hrestored, render_finished_nil] at hlength
    simp at hlength
  have hrender := render_finished_of_not_ends (bodyOf_ne_nil_of_cr hcr) hends hnil
  rw [hrender, ← append_assoc, bomOf_append_bodyOf] at hrestored
  have heol : eolOf (parse (bodyOf content)) = .cr := hcr
  rw [Keeps, hrestored, hcr, heol] at h
  obtain h | h := h
  · have hfirst := append_cancel_left h
    exact absurd (cons.inj hfirst).1 (by decide)
  rw [append_assoc] at h
  have hrest' := append_cancel_left (append_cancel_left h)
  have hshort := length_stripped_le rest
  rw [hrest', length_cons] at hshort
  omega

/-- The last break of the appended text is kept if the profile ended with one, or if the appended text has only breaks, of which the
rewriting added one. -/
def LastBreakKept (content appended : List Char) : Prop :=
  EndsWithBreak (bodyOf content) ∨ ¬ EndsWithBreak appended ∨
    (bodyOf content ≠ [] ∧ ∀ line ∈ parse appended, line = ⟨[], some (profileEol content)⟩)

lemma keeps_iff_lastBreakKept (hcontent : Unmanaged options (parse (bodyOf content))) (happended : Unmanaged options (parse appended))
    (hapart : Apart (profileEol content) appended) : Keeps options content appended ↔ LastBreakKept content appended := by
  have hrestored := restored_of_apart hcontent happended hapart
  by_cases hends : EndsWithBreak (bodyOf content)
  · rw [render_finished_of_ends hends, ← append_assoc, bomOf_append_bodyOf] at hrestored
    exact iff_of_true (.inl hrestored) (.inl hends)
  by_cases hempty : bodyOf content = []
  · have hbom : bomOf content = content := by
      have h := bomOf_append_bodyOf content
      rwa [hempty, append_nil] at h
    rw [hempty, render_finished_of_empty, hbom] at hrestored
    by_cases hbreak : EndsWithBreak appended
    · refine iff_of_false (fun h => ?_) ?_
      · have hlength := h.length
        have hshort := length_stripped_lt hbreak
        rw [hrestored, hbom, hempty, length_append, length_nil] at hlength
        omega
      · rintro (h | h | h)
        · exact hends h
        · exact h hbreak
        · exact h.1 hempty
    · rw [stripped_of_not_ends hbreak] at hrestored
      exact iff_of_true (.inl hrestored) (.inr (.inl hbreak))
  by_cases hnil : appended = []
  · subst hnil
    rw [render_finished_nil, bomOf_append_bodyOf] at hrestored
    exact iff_of_true (.inl (by rw [hrestored, append_nil])) (.inr (.inl (by decide)))
  rw [render_finished_of_not_ends hempty hends hnil, ← append_assoc, bomOf_append_bodyOf] at hrestored
  by_cases hbreak : EndsWithBreak appended
  · have hlong : (profileEol content).text ++ stripped appended ≠ (profileEol content).text ++ appended := by
      intro h
      have hshort := length_stripped_lt hbreak
      rw [append_cancel_left h] at hshort
      exact lt_irrefl _ hshort
    have hkeeps : Keeps options content appended ↔ (profileEol content).text ++ stripped appended = appended := by
      rw [Keeps, hrestored, append_assoc, append_cancel_left_eq, append_cancel_left_eq]
      exact or_iff_left hlong
    rw [hkeeps, eol_append_stripped_iff hbreak hapart, LastBreakKept]
    simp only [hends, hbreak, hempty, not_true_eq_false, not_false_eq_true, ne_eq, false_or, true_and]
  · rw [stripped_of_not_ends hbreak, ← append_assoc] at hrestored
    exact iff_of_true (.inr hrestored) (.inr (.inl hbreak))

/-- The profile and an appended text are kept exactly if neither has lines of Port Manager, no line feed joins the activation block, and the
note about the last break is right for the appended text. -/
theorem restore_keeps_iff (options : ManagedShellProfileOptions) (content appended : List Char) :
    Keeps options content appended ↔
      Unmanaged options (parse (bodyOf content)) ∧ Unmanaged options (parse appended) ∧ Apart (profileEol content) appended ∧
        LastBreakKept content appended := by
  constructor
  · intro h
    obtain ⟨hcontent, happended⟩ := h.unmanaged
    exact ⟨hcontent, happended, h.apart, (keeps_iff_lastBreakKept hcontent happended h.apart).mp h⟩
  · rintro ⟨hcontent, happended, hapart, hlast⟩
    exact (keeps_iff_lastBreakKept hcontent happended hapart).mpr hlast

/-- A line `b` with its break after a profile without a final break: the break is lost. -/
theorem appended_break_lost : restored rootOptions ['a'] ['b', '\n'] = ['a', '\n', 'b'] ∧ ¬ Keeps rootOptions ['a'] ['b', '\n'] := by
  have h : restored rootOptions ['a'] ['b', '\n'] = ['a', '\n', 'b'] := by decide +kernel
  refine ⟨h, ?_⟩
  rw [Keeps, h]
  decide +kernel

end PortManager.ShellProfile
