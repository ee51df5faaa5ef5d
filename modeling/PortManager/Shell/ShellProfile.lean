import PortManager.Base.LineRecords
import PortManager.Base.BlockRemoval

/-!
# The managed blocks of a shell profile

`rewriteManagedShellProfile` puts a prelude block before the user's lines of a profile and an activation block after them;
`restoreShellProfileContent` takes the blocks out. A text is cut into lines with their ends (`LineRecords`), and blocks are recognised by
their exact lines (`BlockRemoval`). The prelude block notes whether the user's text ended with a line break, because the rewriting
completes its last line.
-/

namespace PortManager.ShellProfile

open LineRecords List Line BlockRemoval

def profilePreludeStart : List Char := "# >>> Port Manager profile prelude >>>".toList

def profilePreludeEnd : List Char := "# <<< Port Manager profile prelude <<<".toList

def profilePostludeStart : List Char := "# >>> Port Manager profile activation >>>".toList

def profilePostludeEnd : List Char := "# <<< Port Manager profile activation <<<".toList

def profileFinalNewlinePrefix : List Char := "# Port Manager original final newline: ".toList

def finalNewlineLine (originalFinalNewline : Bool) : List Char :=
  profileFinalNewlinePrefix ++ (if originalFinalNewline then "present" else "absent").toList

/-- What Port Manager writes into a profile and what it takes for its own. -/
structure ManagedShellProfileOptions where
  preludeLine : List Char
  postludeLine : List Char
  legacyLines : List (List Char)
  legacyPreludeLines : List (List Char)
  legacyPostludeLines : List (List Char)
  preludeLine_unbroken : Unbroken preludeLine
  postludeLine_unbroken : Unbroken postludeLine
  /-- A source line is not a marker. -/
  postludeStart_notMem : profilePostludeStart ∉ preludeLine :: legacyPreludeLines ∧ profilePostludeStart ∉ postludeLine :: legacyPostludeLines
  /-- A source line is longer than a line break. -/
  owned_long : ∀ line ∈ preludeLine :: postludeLine :: legacyLines, 2 < line.length

namespace ManagedShellProfileOptions

variable (options : ManagedShellProfileOptions)

def preludeLines : List (List Char) := options.preludeLine :: options.legacyPreludeLines

def postludeLines : List (List Char) := options.postludeLine :: options.legacyPostludeLines

def ownedLines : List (List Char) := options.preludeLine :: options.postludeLine :: options.legacyLines

end ManagedShellProfileOptions

/-! ## The options of the extension -/

def apostrophe : Char := Char.ofNat 39

def shellSingleQuote (value : List Char) : List Char :=
  apostrophe :: value.flatMap (fun c => if c = apostrophe then "'\"'\"'".toList else [c]) ++ [apostrophe]

variable (filePath : List Char)

def buildShellProfileSourceLine (legacy : Bool) : List Char :=
  let source := ". ".toList ++ shellSingleQuote filePath
  if legacy then source else "if [ -z \"$\x7bPORT_MANAGER_GUARDED_SESSION_ID:-\x7d\" ]; then ".toList ++ source ++ "; fi".toList

lemma unbroken_append {first second : List Char} : Unbroken (first ++ second) ↔ Unbroken first ∧ Unbroken second := by
  simp only [Unbroken, mem_append, not_or]
  tauto

lemma unbroken_shellSingleQuote {value : List Char} (h : Unbroken value) : Unbroken (shellSingleQuote value) := by
  have hquoted : ∀ c ∈ value, '\r' ∉ (if c = apostrophe then "'\"'\"'".toList else [c]) ∧
      '\n' ∉ (if c = apostrophe then "'\"'\"'".toList else [c]) := by
    intro c hc
    split
    · decide +kernel
    constructor
    · rintro hcr
      exact h.1 (mem_singleton.mp hcr ▸ hc)
    · rintro hlf
      exact h.2 (mem_singleton.mp hlf ▸ hc)
  have hbody : Unbroken (value.flatMap fun c => if c = apostrophe then "'\"'\"'".toList else [c]) := by
    constructor
    · rintro hcr
      obtain ⟨c, hc, hmem⟩ := mem_flatMap.mp hcr
      exact (hquoted c hc).1 hmem
    · rintro hlf
      obtain ⟨c, hc, hmem⟩ := mem_flatMap.mp hlf
      exact (hquoted c hc).2 hmem
  have hquote : Unbroken [apostrophe] := by decide +kernel
  have hopened : Unbroken ([apostrophe] ++ value.flatMap fun c => if c = apostrophe then "'\"'\"'".toList else [c]) :=
    unbroken_append.mpr ⟨hquote, hbody⟩
  exact unbroken_append.mpr ⟨hopened, hquote⟩

lemma unbroken_sourceLine {filePath : List Char} (h : Unbroken filePath) (legacy : Bool) :
    Unbroken (buildShellProfileSourceLine filePath legacy) := by
  have hsource : Unbroken (". ".toList ++ shellSingleQuote filePath) :=
    unbroken_append.mpr ⟨by decide +kernel, unbroken_shellSingleQuote h⟩
  cases legacy with
  | true => exact hsource
  | false => exact unbroken_append.mpr ⟨unbroken_append.mpr ⟨by decide +kernel, hsource⟩, by decide +kernel⟩

variable (legacy : Bool)

lemma head?_sourceLine : (buildShellProfileSourceLine filePath legacy).head? = some (if legacy then '.' else 'i') := by
  cases legacy <;> rfl

lemma sourceLine_ne_start : profilePostludeStart ≠ buildShellProfileSourceLine filePath legacy := by
  intro h
  have hhead := head?_sourceLine filePath legacy
  rw [← h] at hhead
  cases legacy <;> exact absurd hhead (by decide +kernel)

lemma length_sourceLine : 2 < (buildShellProfileSourceLine filePath legacy).length := by
  cases legacy <;> simp [buildShellProfileSourceLine, shellSingleQuote]

/-- The options that the extension builds for the directory of its hook scripts. -/
def profileOptions (hookDirectory : List Char) (h : Unbroken hookDirectory) : ManagedShellProfileOptions :=
  let profilePreludeScriptPath := hookDirectory ++ "/portmanager-profile-pre.sh".toList
  let profilePostludeScriptPath := hookDirectory ++ "/portmanager-profile-post.sh".toList
  let hookScriptPath := hookDirectory ++ "/portmanager-hook.sh".toList
  { preludeLine := buildShellProfileSourceLine profilePreludeScriptPath false
    postludeLine := buildShellProfileSourceLine profilePostludeScriptPath false
    legacyPreludeLines := [buildShellProfileSourceLine profilePreludeScriptPath true]
    legacyPostludeLines := [buildShellProfileSourceLine profilePostludeScriptPath true]
    legacyLines :=
      [". \"".toList ++ hookScriptPath ++ "\"".toList, buildShellProfileSourceLine hookScriptPath true,
        buildShellProfileSourceLine hookScriptPath false]
    preludeLine_unbroken := unbroken_sourceLine (unbroken_append.mpr ⟨h, by decide +kernel⟩) false
    postludeLine_unbroken := unbroken_sourceLine (unbroken_append.mpr ⟨h, by decide +kernel⟩) false
    postludeStart_notMem := by
      simp only [List.mem_cons, List.not_mem_nil, or_false, not_or]
      exact ⟨⟨sourceLine_ne_start _ _, sourceLine_ne_start _ _⟩, sourceLine_ne_start _ _, sourceLine_ne_start _ _⟩
    owned_long := by
      simp only [List.forall_mem_cons]
      refine ⟨length_sourceLine _ _, length_sourceLine _ _, ?_, length_sourceLine _ _, length_sourceLine _ _, nofun⟩
      simp }

/-! ## The blocks -/

variable (options : ManagedShellProfileOptions)

/-- The prelude block, with or without its note, and the activation block. -/
def managedBlock : BlockRemoval.Recogniser Line Bool
  | line :: next :: metadata :: rest =>
    if line.content = profilePreludeStart ∧ next.content ∈ options.preludeLines ∧ metadata.content = profilePreludeEnd then
      some (2, none)
    else if line.content = profilePreludeStart ∧ next.content ∈ options.preludeLines ∧
        (metadata.content = finalNewlineLine true ∨ metadata.content = finalNewlineLine false) ∧
        rest.head?.map Line.content = some profilePreludeEnd then
      some (3, some (decide (metadata.content = finalNewlineLine true)))
    else if line.content = profilePostludeStart ∧ next.content ∈ options.postludeLines ∧ metadata.content = profilePostludeEnd then
      some (2, none)
    else none
  | _ => none

variable (records : List Line)

/-- The records outside of the blocks, and the note of the last prelude block that has one. -/
def removeManagedBlocks (options : ManagedShellProfileOptions) : List Line × Option Bool :=
  BlockRemoval.remove (managedBlock options) 0 records

def userRecords (options : ManagedShellProfileOptions) : List Line :=
  (removeManagedBlocks records options).1.filter fun record => record.content ∉ options.ownedLines

/-! ## The two functions -/

def byteOrderMark : Char := Char.ofNat 0xFEFF

variable (content : List Char)

def bomOf : List Char := if content.head? = some byteOrderMark then [byteOrderMark] else []

def bodyOf : List Char := if content.head? = some byteOrderMark then content.tail else content

def eolOf : LineEnd := (records.findSome? Line.eol).getD .lf

def withLastEol (eol : Option LineEnd) (records : List Line) : List Line :=
  match records.getLast? with
  | some last => records.dropLast ++ [{ last with eol := eol }]
  | none => []

def lastEnded : Bool := records.getLast?.any fun last => last.eol.isSome

def completeLast (eol : LineEnd) (records : List Line) : List Line :=
  if records ≠ [] ∧ ¬ lastEnded records then withLastEol (some eol) records else records

def preludeBlock (originalFinalNewline : Bool) (eol : LineEnd) : List Line :=
  [⟨profilePreludeStart, some eol⟩, ⟨options.preludeLine, some eol⟩, ⟨finalNewlineLine originalFinalNewline, some eol⟩,
    ⟨profilePreludeEnd, some eol⟩]

def postludeBlock (eol : LineEnd) : List Line :=
  [⟨profilePostludeStart, some eol⟩, ⟨options.postludeLine, some eol⟩, ⟨profilePostludeEnd, some eol⟩]

def rewriteManagedShellProfile (options : ManagedShellProfileOptions) : List Char :=
  let records := parse (bodyOf content)
  let user := userRecords records options
  let eol := eolOf records
  let originalFinalNewline := (removeManagedBlocks records options).2.getD (lastEnded user)
  bomOf content ++ render (preludeBlock options originalFinalNewline eol ++ (completeLast eol user ++ postludeBlock options eol))

def restoreShellProfileContent (options : ManagedShellProfileOptions) : List Char :=
  let records := parse (bodyOf content)
  let user := userRecords records options
  bomOf content ++ render (if (removeManagedBlocks records options).2 = some false then withLastEol none user else user)

variable {options : ManagedShellProfileOptions}

/-! ## Recognising the blocks -/

variable {lines lines' prelude user postlude appended records : List Line}
    {originalFinalNewline : Bool} {eol : LineEnd} {content rest : List Char}

variable (h : lines.map Line.content = lines'.map Line.content)
include h

lemma managedBlock_congr : managedBlock options lines = managedBlock options lines' := by
  rcases lines with _ | ⟨a, _ | ⟨b, _ | ⟨c, rest⟩⟩⟩ <;> rcases lines' with _ | ⟨a', _ | ⟨b', _ | ⟨c', rest'⟩⟩⟩ <;>
    simp only [map_cons, map_nil, cons.injEq, reduceCtorEq, and_false] at h
  · rfl
  · rfl
  · rfl
  obtain ⟨ha, hb, hc, hrest⟩ := h
  have hhead : rest.head?.map content = rest'.head?.map content := by
    rw [← head?_map, ← head?_map, hrest]
  simp only [managedBlock, ha, hb, hc, hhead]

lemma free_congr :
    BlockRemoval.Free (managedBlock options) lines ↔ BlockRemoval.Free (managedBlock options) lines' := by
  induction lines generalizing lines' with
  | nil =>
    rw [map_nil, eq_comm, map_eq_nil_iff] at h
    rw [h]
  | cons line lines ih =>
    cases lines' with
    | nil => cases h
    | cons line' lines' => rw [BlockRemoval.Free, BlockRemoval.Free, managedBlock_congr h, ih (cons.inj h).2]

omit h

lemma managedBlock_within : BlockRemoval.Within (managedBlock options) := by
  intro lines more note h
  match lines, h with
  | a :: b :: c :: rest, h =>
    simp only [managedBlock] at h
    split at h
    · cases h
      simp
    split at h
    · next hnoted =>
      cases h
      cases rest with
      | nil => exact absurd hnoted.2.2.2 nofun
      | cons => simp
    split at h
    · cases h
      simp
    · cases h

lemma start_of_managedBlock {line : Line} {rest : List Line} (h : managedBlock options (line :: rest) ≠ none) :
    line.content = profilePreludeStart ∨ line.content = profilePostludeStart := by
  match rest, h with
  | b :: c :: rest, h =>
    simp only [managedBlock] at h
    split at h
    · next hblock => exact .inl hblock.1
    split at h
    · next hblock => exact .inl hblock.1
    split at h
    · next hblock => exact .inr hblock.1
    · exact absurd rfl h
  | [b], h => exact absurd rfl h
  | [], h => exact absurd rfl h

lemma managedBlock_apart {start : Line} (hstart : start.content = profilePostludeStart) (rest : List Line) :
    BlockRemoval.Apart (managedBlock options) (start :: rest) := by
  have hprelude : profilePostludeStart ∉ options.preludeLines := options.postludeStart_notMem.1
  have hpostlude : profilePostludeStart ∉ options.postludeLines := options.postludeStart_notMem.2
  have hend : profilePostludeStart ≠ profilePreludeEnd := by decide +kernel
  have hend' : profilePostludeStart ≠ profilePostludeEnd := by decide +kernel
  have hnote : profilePostludeStart ≠ finalNewlineLine true := by decide +kernel
  have hnote' : profilePostludeStart ≠ finalNewlineLine false := by decide +kernel
  intro first hne
  match first with
  | [] => exact absurd rfl hne
  | [a] =>
    cases rest with
    | nil => rfl
    | cons b rest => simp [managedBlock, hstart, hprelude, hpostlude]
  | [a, b] => simp [managedBlock, hstart, hend, hend', hnote, hnote']
  | [a, b, c] => simp [managedBlock, hstart, hend]
  | a :: b :: c :: d :: first => simp [managedBlock]

/-! ## Removing the blocks that are written -/

lemma remove_preludeBlock
    (h : lines.map Line.content = (preludeBlock options originalFinalNewline eol).map Line.content) (rest : List Line) :
    removeManagedBlocks (lines ++ rest) options =
      ((removeManagedBlocks rest options).1, (removeManagedBlocks rest options).2.or (some originalFinalNewline)) := by
  have hend : finalNewlineLine originalFinalNewline ≠ profilePreludeEnd := by
    cases originalFinalNewline <;> decide +kernel
  have hnote : finalNewlineLine false ≠ finalNewlineLine true := by decide +kernel
  simp only [preludeBlock, map_cons, map_nil, map_eq_cons_iff, map_eq_nil_iff] at h
  obtain ⟨a, _, rfl, ha, b, _, rfl, hb, c, _, rfl, hc, d, _, rfl, hd, rfl⟩ := h
  have hblock : managedBlock options (a :: b :: c :: d :: rest) = some (3, some originalFinalNewline) := by
    cases originalFinalNewline <;> simp [managedBlock, ha, hb, hc, hd, hend, hnote, ManagedShellProfileOptions.preludeLines]
  simp only [removeManagedBlocks, cons_append, nil_append]
  rw [remove_of_some hblock]
  simp only [remove_succ]

lemma remove_postludeBlock
    (h : lines.map Line.content = (postludeBlock options eol).map Line.content) (rest : List Line) :
    removeManagedBlocks (lines ++ rest) options = removeManagedBlocks rest options := by
  have hstart : profilePostludeStart ≠ profilePreludeStart := by decide +kernel
  simp only [postludeBlock, map_cons, map_nil, map_eq_cons_iff, map_eq_nil_iff] at h
  obtain ⟨a, _, rfl, ha, b, _, rfl, hb, c, _, rfl, hc, rfl⟩ := h
  have hblock : managedBlock options (a :: b :: c :: rest) = some (2, none) := by
    simp [managedBlock, ha, hb, hc, hstart, ManagedShellProfileOptions.postludeLines]
  simp only [removeManagedBlocks, cons_append, nil_append]
  rw [remove_of_some hblock]
  simp only [remove_succ, Option.or_none]

variable (hprelude : prelude.map Line.content = (preludeBlock options originalFinalNewline eol).map Line.content)
    (hpostlude : postlude.map Line.content = (postludeBlock options eol).map Line.content)
include hprelude hpostlude

lemma remove_written :
    removeManagedBlocks (prelude ++ (user ++ (postlude ++ appended))) options =
      ((removeManagedBlocks user options).1 ++ (removeManagedBlocks appended options).1,
        ((removeManagedBlocks appended options).2.or (removeManagedBlocks user options).2).or (some originalFinalNewline)) := by
  have hsplit : removeManagedBlocks (user ++ (postlude ++ appended)) options =
      ((removeManagedBlocks user options).1 ++ (removeManagedBlocks (postlude ++ appended) options).1,
        (removeManagedBlocks (postlude ++ appended) options).2.or (removeManagedBlocks user options).2) := by
    cases postlude with
    | nil => cases hpostlude
    | cons start postlude =>
      have hstart : start.content = profilePostludeStart := (cons.inj hpostlude).1
      exact remove_append managedBlock_within (managedBlock_apart hstart _) (Nat.zero_le _)
  rw [remove_preludeBlock hprelude, hsplit, remove_postludeBlock hpostlude]

lemma userRecords_written :
    userRecords (prelude ++ (user ++ (postlude ++ appended))) options = userRecords user options ++ userRecords appended options := by
  rw [userRecords, remove_written hprelude hpostlude, filter_append]
  rfl

omit hprelude hpostlude

/-! ## Profiles without a line or a block of Port Manager -/

def Unmanaged (options : ManagedShellProfileOptions) (records : List Line) : Prop :=
  BlockRemoval.Free (managedBlock options) records ∧ ∀ record ∈ records, record.content ∉ options.ownedLines

instance (options : ManagedShellProfileOptions) (records : List Line) : Decidable (Unmanaged options records) :=
  inferInstanceAs (Decidable (_ ∧ _))

lemma unmanaged_congr (h : lines.map Line.content = lines'.map Line.content) :
    Unmanaged options lines ↔ Unmanaged options lines' := by
  have howned (records : List Line) : (∀ record ∈ records, record.content ∉ options.ownedLines) ↔
      ∀ content ∈ records.map Line.content, content ∉ options.ownedLines := by
    rw [forall_mem_map]
  rw [Unmanaged, Unmanaged, free_congr h, howned lines, howned lines', h]

lemma Unmanaged.remove_eq (h : Unmanaged options records) : removeManagedBlocks records options = (records, none) :=
  remove_of_free h.1

lemma Unmanaged.userRecords_eq (h : Unmanaged options records) : userRecords records options = records := by
  rw [userRecords, h.remove_eq]
  exact filter_eq_self.mpr fun record hrecord => decide_eq_true (h.2 record hrecord)

/-! ### The end of the last record -/

@[simp] lemma withLastEol_append (eol : Option LineEnd) (records : List Line) (last : Line) :
    withLastEol eol (records ++ [last]) = records ++ [⟨last.content, eol⟩] := by
  simp [withLastEol]

@[simp] lemma lastEnded_append (records : List Line) (last : Line) : lastEnded (records ++ [last]) = last.eol.isSome := by
  simp [lastEnded]

@[simp] lemma completeLast_nil (eol : LineEnd) : completeLast eol [] = [] := rfl

@[simp] lemma completeLast_append (eol : LineEnd) (records : List Line) (last : Line) :
    completeLast eol (records ++ [last]) = records ++ [⟨last.content, some (last.eol.getD eol)⟩] := by
  obtain ⟨content, end?⟩ := last
  cases end? <;> simp [completeLast]

lemma map_content_completeLast (eol : LineEnd) (records : List Line) :
    (completeLast eol records).map Line.content = records.map Line.content := by
  induction records using reverseRecOn with
  | nil => rfl
  | append_singleton records last _ => simp

lemma completeLast_of_ended (h : records ≠ [] → lastEnded records) : completeLast eol records = records := by
  rw [completeLast, if_neg]
  rintro ⟨hne, hopen⟩
  exact hopen (h hne)

lemma lastEnded_completeLast (h : completeLast eol records ≠ []) : lastEnded (completeLast eol records) := by
  induction records using reverseRecOn with
  | nil => exact absurd rfl h
  | append_singleton records last _ => simp

lemma complete_completeLast (eol : LineEnd) (records : List Line) : Complete (completeLast eol records) := by
  induction records using reverseRecOn with
  | nil => rintro _ ⟨⟩
  | append_singleton records last _ => simp [Complete]

lemma wellFormed_completeLast (eol : LineEnd) (h : WellFormed records) : WellFormed (completeLast eol records) := by
  induction records using reverseRecOn with
  | nil => exact h
  | append_singleton records last _ =>
    obtain ⟨content, end?⟩ := last
    cases end? with
    | some _ => simpa using h
    | none =>
      obtain ⟨hrecords, hlast, hborder⟩ := wellFormed_append.mp h
      have hvalid := hlast.1 _ mem_cons_self
      rw [completeLast_append]
      refine wellFormed_append.mpr ⟨hrecords, ?_, ?_⟩
      · exact wellFormed_cons.mpr ⟨⟨hvalid.1, nofun⟩, nofun, wellFormed_nil⟩
      rintro line hline next ⟨⟩
      refine ⟨(hborder line hline _ rfl).1, fun _ hempty => ?_⟩
      -- an unfinished line is not empty
      exact hvalid.2 rfl (congrArg Line.content hempty)

lemma head?_completeLast (h : WellFormed records) (hhead : (completeLast eol records).head? = some ⟨[], some .lf⟩) :
    records.head? = some ⟨[], some .lf⟩ := by
  induction records using reverseRecOn with
  | nil => exact hhead
  | append_singleton records last _ =>
    rw [completeLast_append] at hhead
    cases records with
    | cons first records => exact hhead
    | nil =>
      obtain ⟨content, end?⟩ := last
      have hvalid := h.1 _ mem_cons_self
      simp only [nil_append, head?_cons, Option.some.injEq, mk.injEq] at hhead ⊢
      obtain ⟨rfl, heol⟩ := hhead
      cases end? with
      | none => exact absurd rfl (hvalid.2 rfl)
      | some end? => exact ⟨rfl, congrArg some heol⟩

/-! ### The records that are written -/

def written (options : ManagedShellProfileOptions) (records : List Line) : List Line :=
  preludeBlock options (lastEnded records) (eolOf records) ++
    (completeLast (eolOf records) records ++ postludeBlock options (eolOf records))

lemma rewrite_of_unmanaged (h : Unmanaged options (parse (bodyOf content))) :
    rewriteManagedShellProfile content options = bomOf content ++ render (written options (parse (bodyOf content))) := by
  simp only [rewriteManagedShellProfile, h.userRecords_eq, h.remove_eq, Option.getD_none]
  rfl

lemma unbroken_finalNewlineLine (originalFinalNewline : Bool) : Unbroken (finalNewlineLine originalFinalNewline) := by
  cases originalFinalNewline <;> decide +kernel

lemma wellFormed_of_eol (h : ∀ line ∈ lines, Unbroken line.content ∧ line.eol = some eol) : WellFormed lines := by
  induction lines with
  | nil => exact wellFormed_nil
  | cons line lines ih =>
    obtain ⟨⟨hunbroken, heol⟩, hlines⟩ := forall_mem_cons.mp h
    refine wellFormed_cons.mpr ⟨⟨hunbroken, by simp [heol]⟩, fun next hnext => ⟨by simp [heol], ?_⟩, ih hlines⟩
    rintro hcr rfl
    have hnext' := (hlines _ (mem_of_mem_head? hnext)).2
    rw [heol] at hcr
    rw [hcr] at hnext'
    cases hnext'

lemma wellFormed_preludeBlock (originalFinalNewline : Bool) (eol : LineEnd) :
    WellFormed (preludeBlock options originalFinalNewline eol) := by
  refine wellFormed_of_eol (?_ : ∀ line ∈ preludeBlock options originalFinalNewline eol, Unbroken line.content ∧ line.eol = some eol)
  simp only [preludeBlock, forall_mem_cons, and_true]
  exact ⟨by decide +kernel, options.preludeLine_unbroken, unbroken_finalNewlineLine _, by decide +kernel, nofun⟩

lemma wellFormed_postludeBlock (eol : LineEnd) : WellFormed (postludeBlock options eol) := by
  refine wellFormed_of_eol (?_ : ∀ line ∈ postludeBlock options eol, Unbroken line.content ∧ line.eol = some eol)
  simp only [postludeBlock, forall_mem_cons, and_true]
  exact ⟨by decide +kernel, options.postludeLine_unbroken, by decide +kernel, nofun⟩

lemma profilePostludeStart_ne_nil : profilePostludeStart ≠ [] := by decide +kernel

lemma wellFormed_written (h : WellFormed records) : WellFormed (written options records) := by
  have hmarker (line : Line) (hline : line.eol ≠ none) : ∀ next ∈ (postludeBlock options (eolOf records)).head?, Follows line next := by
    rintro _ ⟨⟩
    refine ⟨hline, fun _ hempty => ?_⟩
    exact profilePostludeStart_ne_nil (congrArg content hempty)
  have hrest : WellFormed (completeLast (eolOf records) records ++ postludeBlock options (eolOf records)) := by
    refine wellFormed_append.mpr ⟨wellFormed_completeLast _ h, wellFormed_postludeBlock _, fun line hline => ?_⟩
    exact hmarker line (complete_completeLast _ _ line hline)
  refine wellFormed_append.mpr ⟨wellFormed_preludeBlock _ _, hrest, ?_⟩
  rintro _ ⟨⟩ next hnext
  refine ⟨nofun, ?_⟩
  -- the end is that of the first record that has one, so an empty first record with a line feed gives a line feed
  rintro hcr rfl
  rw [head?_append] at hnext
  obtain hfirst | hmarked := Option.or_eq_some_iff.mp hnext
  · have hhead := head?_completeLast h hfirst
    obtain ⟨rest, rfl⟩ := head?_eq_some_iff.mp hhead
    exact absurd hcr (by simp [eolOf])
  · exact profilePostludeStart_ne_nil (congrArg content (Option.some.inj hmarked.2))

lemma eolOf_written (records : List Line) : eolOf (written options records) = eolOf records := rfl

/-! ### The byte order mark -/

lemma bomOf_append_bodyOf (content : List Char) : bomOf content ++ bodyOf content = content := by
  rw [bomOf, bodyOf]
  split
  · next h =>
    obtain ⟨rest, rfl⟩ := head?_eq_some_iff.mp h
    rfl
  · rfl

lemma head?_written (options : ManagedShellProfileOptions) (records : List Line) (rest : List Char) : (render (written options records) ++ rest).head? ≠ some byteOrderMark := by
  have h : (render (written options records) ++ rest).head? = some '#' := rfl
  rw [h]
  decide +kernel

lemma bomOf_append (h : rest.head? ≠ some byteOrderMark) : bomOf (bomOf content ++ rest) = bomOf content := by
  by_cases hmark : content.head? = some byteOrderMark
  · simp [bomOf, hmark]
  · simp [bomOf, hmark, h]

lemma bodyOf_append (h : rest.head? ≠ some byteOrderMark) : bodyOf (bomOf content ++ rest) = rest := by
  by_cases hmark : content.head? = some byteOrderMark
  · simp [bomOf, bodyOf, hmark]
  · simp [bomOf, bodyOf, hmark, h]

/-! ### Rewriting and restoring -/

lemma parse_rewrite (h : Unmanaged options (parse (bodyOf content))) :
    bomOf (rewriteManagedShellProfile content options) = bomOf content ∧
      parse (bodyOf (rewriteManagedShellProfile content options)) = written options (parse (bodyOf content)) := by
  have hhead : (render (written options (parse (bodyOf content)))).head? ≠ some byteOrderMark := by
    simpa using head?_written options (parse (bodyOf content)) []
  rw [rewrite_of_unmanaged h, bomOf_append hhead, bodyOf_append hhead]
  exact ⟨rfl, parse_render (wellFormed_written (wellFormed_parse _))⟩

lemma Unmanaged.completeLast (h : Unmanaged options records) (eol : LineEnd) :
    Unmanaged options (completeLast eol records) :=
  (unmanaged_congr (map_content_completeLast eol records)).mpr h

lemma scan_written (h : Unmanaged options records) :
    removeManagedBlocks (written options records) options = (completeLast (eolOf records) records, some (lastEnded records)) ∧
      userRecords (written options records) options = completeLast (eolOf records) records := by
  have hcompleted := h.completeLast (eolOf records)
  have hwritten : written options records = preludeBlock options (lastEnded records) (eolOf records) ++
      (completeLast (eolOf records) records ++ (postludeBlock options (eolOf records) ++ [])) := by rw [append_nil, written]
  rw [hwritten]
  constructor
  · rw [remove_written rfl rfl, hcompleted.remove_eq]
    simp [removeManagedBlocks]
  · rw [userRecords_written rfl rfl, hcompleted.userRecords_eq]
    simp [userRecords, removeManagedBlocks]

lemma restore_completeLast (eol : LineEnd) (records : List Line) :
    (if some (lastEnded records) = some false then withLastEol none (completeLast eol records) else completeLast eol records) = records := by
  induction records using reverseRecOn with
  | nil => rfl
  | append_singleton records last _ =>
    obtain ⟨content, end?⟩ := last
    cases end? <;> simp

/-- A profile without lines of Port Manager is restored as it was, and a second rewriting changes nothing. -/
theorem rewrite_restore {content : List Char} (h : Unmanaged options (parse (bodyOf content))) :
    restoreShellProfileContent (rewriteManagedShellProfile content options) options = content ∧
      rewriteManagedShellProfile (rewriteManagedShellProfile content options) options = rewriteManagedShellProfile content options := by
  obtain ⟨hbom, hparse⟩ := parse_rewrite h
  obtain ⟨hremove, huser⟩ := scan_written h
  constructor
  · rw [restoreShellProfileContent]
    simp only [hbom, hparse, hremove, huser]
    rw [restore_completeLast, render_parse, bomOf_append_bodyOf]
  have hsecond : completeLast (eolOf (parse (bodyOf content))) (completeLast (eolOf (parse (bodyOf content))) (parse (bodyOf content))) =
      completeLast (eolOf (parse (bodyOf content))) (parse (bodyOf content)) :=
    completeLast_of_ended lastEnded_completeLast
  rw [rewriteManagedShellProfile]
  simp only [hbom, hparse, hremove, huser, eolOf_written, Option.getD_some, hsecond]
  rw [rewrite_of_unmanaged h]
  rfl

def rootOptions : ManagedShellProfileOptions := profileOptions "/root/.portmanager".toList (by decide +kernel)

/-- The profile `a` without a final line break. -/
theorem rewrite_restore_line :
    restoreShellProfileContent (rewriteManagedShellProfile ['a'] rootOptions) rootOptions = ['a'] := by
  have hunmanaged : Unmanaged rootOptions (parse (bodyOf ['a'])) := by decide +kernel
  exact (rewrite_restore hunmanaged).1

end PortManager.ShellProfile
