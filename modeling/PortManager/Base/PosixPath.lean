import PortManager.Base.SplitText

/-!
# Paths of Node

The functions of Node's `path.posix` that take a path apart (`parse`) and put one together (`join`, with
`normalize`). A path is the list of its UTF-16 code units; 47 is the slash and 46 the dot.

The rules of the module are about a plain file name, one without a slash that is neither empty nor `.` nor
`..`: joining it to a directory puts it behind the normalized directory (`join_plain`), and taking the
result apart gives it back, with a directory that joins to the same places (`parse_join_file`,
`join_parse_dir`).
-/

namespace PosixPath
open List

/-- One segment of `normalizeString`. The segments kept so far come last first; a `..` takes back the one
before it. -/
def push (allowAboveRoot : Bool) (kept : List (List Nat)) (segment : List Nat) : List (List Nat) :=
  if segment = [] ∨ segment = [46] then kept
  else if segment = [46, 46] then
    match kept with
    | [] => if allowAboveRoot then [segment] else []
    | last :: rest =>
      if last = [46, 46] then if allowAboveRoot then segment :: last :: rest else last :: rest else rest
  else segment :: kept

variable (path : List Nat)

def isAbsolute : Bool := path.head? = some 47

/-- The root of a path, empty for a relative one. -/
def root : List Nat := if isAbsolute path then [47] else []

/-- The segments that `normalizeString` keeps, last first. -/
def segments : List (List Nat) := (path.splitOn 47).foldl (push !isAbsolute path) []

def normalize : List Nat :=
  let body := [47].intercalate (segments path).reverse
  let trailing := path.getLast? = some 47
  if path = [] then [46]
  else if body = [] then if isAbsolute path then [47] else if trailing then [46, 47] else [46]
  else root path ++ (body ++ if trailing then [47] else [])

def join (parts : List (List Nat)) : List Nat :=
  if (parts.filter (· ≠ [])) = [] then [46] else normalize ([47].intercalate (parts.filter (· ≠ [])))

/-- What `path.parse` returns, without its `root` and `base`. -/
structure Parts where
  dir : List Nat
  name : List Nat
  ext : List Nat
deriving DecidableEq

/-- A file name at its last dot. A leading dot starts no extension, and neither does that of `..`, except
directly below the root. -/
def splitName (belowRoot : Bool) (file : List Nat) : List Nat × List Nat :=
  let stem := (file.rdropWhile (· ≠ 46)).dropLast
  if stem = [] ∨ (file = [46, 46] ∧ belowRoot = false) then (file, [])
  else (stem, 46 :: file.rtakeWhile (· ≠ 46))

def parse : Parts :=
  let body := if isAbsolute path then path.tail else path
  let trimmed := body.rdropWhile (· = 47)
  let file := trimmed.rtakeWhile (· ≠ 47)
  let names := splitName (isAbsolute path && trimmed = file) file
  ⟨root path ++ (trimmed.rdropWhile (· ≠ 47)).dropLast, names.1, names.2⟩

/-! ## Normalized directories -/

/-- Segments that a second pass over them keeps as they are. -/
def Settled (allowAboveRoot : Bool) : List (List Nat) → Prop
  | [] => True
  | segment :: rest => push allowAboveRoot rest segment = segment :: rest ∧ Settled allowAboveRoot rest

/-- What a segment does: it is dropped, takes back the segment before it, or is kept. -/
lemma push_cases (allowAboveRoot : Bool) (kept : List (List Nat)) (segment : List Nat) :
    push allowAboveRoot kept segment = kept ∨
      (∃ last, kept = last :: push allowAboveRoot kept segment) ∨
      (segment ≠ [] ∧ push allowAboveRoot kept segment = segment :: kept) := by
  unfold push
  split
  · exact .inl rfl
  next hsegment =>
    have hne : segment ≠ [] := fun h => hsegment (.inl h)
    split
    · cases kept with
      | nil =>
        cases allowAboveRoot with
        | false => exact .inl rfl
        | true => exact .inr (.inr ⟨hne, rfl⟩)
      | cons last rest =>
        by_cases hlast : last = [46, 46]
        · cases allowAboveRoot with
          | false => exact .inl (if_pos hlast)
          | true => exact .inr (.inr ⟨hne, if_pos hlast⟩)
        · exact .inr (.inl ⟨last, congrArg _ (if_neg hlast).symm⟩)
    · exact .inr (.inr ⟨hne, rfl⟩)

lemma Settled.push {allowAboveRoot : Bool} {kept : List (List Nat)} (h : Settled allowAboveRoot kept)
    (segment : List Nat) : Settled allowAboveRoot (push allowAboveRoot kept segment) := by
  rcases push_cases allowAboveRoot kept segment with hsame | ⟨last, hback⟩ | ⟨-, hadds⟩
  · rw [hsame]
    exact h
  · rw [hback] at h
    exact h.2
  · rw [hadds]
    exact ⟨hadds, h⟩

variable {allowAboveRoot : Bool} {kept parts : List (List Nat)}
    {segment other path dir file front back : List Nat} {p : Nat → Bool}

lemma settled_foldl (parts : List (List Nat)) (h : Settled allowAboveRoot kept) :
    Settled allowAboveRoot (parts.foldl (push allowAboveRoot) kept) := by
  induction parts generalizing kept with
  | nil => exact h
  | cons part parts ih => exact ih (h.push part)

lemma Settled.foldl_reverse (h : Settled allowAboveRoot kept) :
    kept.reverse.foldl (PosixPath.push allowAboveRoot) [] = kept := by
  induction kept with
  | nil => rfl
  | cons segment rest ih => rw [reverse_cons, foldl_concat, ih h.2, h.1]

lemma mem_of_mem_push (h : other ∈ push allowAboveRoot kept segment) :
    other ∈ kept ∨ (other = segment ∧ segment ≠ []) := by
  rcases push_cases allowAboveRoot kept segment with hsame | ⟨last, hback⟩ | ⟨hne, hadds⟩
  · exact .inl (hsame ▸ h)
  · rw [hback]
    exact .inl (mem_cons_of_mem _ h)
  rw [hadds] at h
  rcases mem_cons.mp h with h | h
  · exact .inr ⟨h, hne⟩
  · exact .inl h

lemma mem_of_mem_segments (h : segment ∈ segments path) : segment ≠ [] ∧ 47 ∉ segment := by
  have hfold : ∀ (parts kept : List (List Nat)), (∀ s ∈ parts, 47 ∉ s) → (∀ s ∈ kept, s ≠ [] ∧ 47 ∉ s) →
      ∀ s ∈ parts.foldl (push !isAbsolute path) kept, s ≠ [] ∧ 47 ∉ s := by
    intro parts
    induction parts with
    | nil => exact fun kept _ hkept => hkept
    | cons part parts ih =>
      intro kept hparts hkept
      refine ih _ (fun s hs => hparts s (mem_cons_of_mem _ hs)) fun s hs => ?_
      rcases mem_of_mem_push hs with h | ⟨rfl, hne⟩
      · exact hkept s h
      · exact ⟨hne, hparts s mem_cons_self⟩
  exact hfold _ [] (fun s hs => SplitText.not_mem_of_mem_splitOn hs) (fun s hs => by cases hs) segment h

/-- The normalized directory with the slash behind it, empty for the working directory. -/
def directory (dir : List Nat) : List Nat := root dir ++ (segments dir).reverse.flatMap (· ++ [47])

/-! ## Plain file names -/

/-- A file name without a slash that stands for itself. -/
structure Plain (file : List Nat) : Prop where
  ne_nil : file ≠ []
  ne_dot : file ≠ [46]
  ne_dots : file ≠ [46, 46]
  no_slash : 47 ∉ file

lemma Plain.push {file : List Nat} (h : Plain file) (allowAboveRoot : Bool) (kept : List (List Nat)) :
    PosixPath.push allowAboveRoot kept file = file :: kept := by
  unfold PosixPath.push
  rw [if_neg (by simp [h.ne_nil, h.ne_dot]), if_neg h.ne_dots]

lemma intercalate_concat (parts : List (List Nat)) (file : List Nat) :
    [47].intercalate (parts ++ [file]) = parts.flatMap (· ++ [47]) ++ file := by
  induction parts with
  | nil => simp
  | cons part parts ih =>
    rw [cons_append, intercalate_cons_of_ne_nil (by simp), ih]
    simp

lemma isAbsolute_append_slash (hdir : dir ≠ []) (rest : List Nat) :
    isAbsolute (dir ++ 47 :: rest) = isAbsolute dir := by
  cases dir with
  | nil => exact absurd rfl hdir
  | cons c dir => rfl

lemma root_of_absolute (h : isAbsolute path = true) : root path = [47] := if_pos h

lemma root_of_relative (h : isAbsolute path = false) : root path = [] := by
  rw [root, h]
  rfl

lemma not_isAbsolute_of_no_slash (h : 47 ∉ path) : isAbsolute path = false := by
  cases path with
  | nil => rfl
  | cons c path =>
    have hc : c ≠ 47 := fun hc => h (hc ▸ mem_cons_self)
    simpa [isAbsolute] using hc

lemma Plain.getLast?_ne (h : Plain file) : file.getLast? ≠ some 47 :=
  fun hlast => h.no_slash (mem_of_getLast? hlast)

lemma join_plain (dir : List Nat) (h : Plain file) : join [dir, file] = directory dir ++ file := by
  -- the joined path has the segments of the directory and then the file
  have hnormal : ∀ path, path ≠ [] → path.getLast? ≠ some 47 → root path = root dir →
      segments path = file :: segments dir → normalize path = directory dir ++ file := by
    intro path hpath hlast hroot hsegments
    have hbody : [47].intercalate (segments path).reverse =
        (segments dir).reverse.flatMap (· ++ [47]) ++ file := by
      rw [hsegments, reverse_cons, intercalate_concat]
    have hne : (segments dir).reverse.flatMap (· ++ [47]) ++ file ≠ [] := by simp [h.ne_nil]
    simp only [normalize, hbody, if_neg hpath, if_neg hne, if_neg hlast, append_nil, hroot, directory,
      append_assoc]
  cases dir with
  | nil =>
    have hparts : [[], file].filter (· ≠ []) = [file] := by simp [h.ne_nil]
    have hone : [47].intercalate [file] = file := by simp
    rw [join, hparts, if_neg (by simp), hone]
    refine hnormal file h.ne_nil h.getLast?_ne ?_ ?_
    · rw [root_of_relative (not_isAbsolute_of_no_slash h.no_slash)]
      rfl
    · rw [segments, splitOn_eq_singleton h.no_slash]
      exact h.push _ []
  | cons c dir =>
    have hparts : [c :: dir, file].filter (· ≠ []) = [c :: dir, file] := by simp [h.ne_nil]
    have htwo : [47].intercalate [c :: dir, file] = (c :: dir) ++ 47 :: file := by simp
    have habsolute := isAbsolute_append_slash (cons_ne_nil c dir) file
    rw [join, hparts, if_neg (by simp), htwo]
    refine hnormal _ (by simp) ?_ ?_ ?_
    · have hlast := h.getLast?_ne
      rw [getLast?_append, getLast?_cons_of_ne_nil h.ne_nil]
      cases hfile : file.getLast? with
      | none => exact absurd (getLast?_eq_none_iff.mp hfile) h.ne_nil
      | some last =>
        rw [hfile] at hlast
        exact hlast
    · rw [root, habsolute]
      rfl
    · rw [segments, habsolute, splitOn_append_cons_self, splitOn_eq_singleton h.no_slash,
        foldl_append]
      exact h.push _ _

lemma rtakeWhile_append (hback : ∀ c ∈ back, p c = true) :
    (front ++ back).rtakeWhile p = front.rtakeWhile p ++ back := by
  unfold List.rtakeWhile
  rw [reverse_append, takeWhile_append_of_pos (by simpa using hback), reverse_append,
    reverse_reverse]

lemma rdropWhile_append (hback : ∀ c ∈ back, p c = true) : (front ++ back).rdropWhile p = front.rdropWhile p := by
  unfold List.rdropWhile
  rw [reverse_append, dropWhile_append_of_pos (by simpa using hback)]

lemma flatMap_slash (hparts : parts ≠ []) : parts.flatMap (· ++ [47]) = [47].intercalate parts ++ [47] := by
  induction parts with
  | nil => exact absurd rfl hparts
  | cons part parts ih =>
    cases parts with
    | nil => simp
    | cons second rest =>
      rw [flatMap_cons, ih (cons_ne_nil _ _), intercalate_cons_of_ne_nil (cons_ne_nil _ _)]
      simp

lemma not_isAbsolute_flatMap (hparts : ∀ part ∈ parts, part ≠ [] ∧ 47 ∉ part) {rest : List Nat}
    (hrest : isAbsolute rest = false) : isAbsolute (parts.flatMap (· ++ [47]) ++ rest) = false := by
  cases parts with
  | nil => exact hrest
  | cons part parts =>
    obtain ⟨hne, hslash⟩ := hparts part mem_cons_self
    cases part with
    | nil => exact absurd rfl hne
    | cons c part =>
      have hc : c ≠ 47 := fun hc => hslash (hc ▸ mem_cons_self)
      simpa [isAbsolute] using hc

lemma isAbsolute_directory_append (h : Plain file) : isAbsolute (directory dir ++ file) = isAbsolute dir := by
  unfold directory
  cases habsolute : isAbsolute dir with
  | true =>
    rw [root_of_absolute habsolute]
    rfl
  | false =>
    rw [root_of_relative habsolute]
    exact not_isAbsolute_flatMap (fun part hpart => mem_of_mem_segments (mem_reverse.mp hpart))
      (not_isAbsolute_of_no_slash h.no_slash)

lemma splitName_of_ne (h : file ≠ [46, 46]) (belowRoot : Bool) : splitName belowRoot file = splitName false file := by
  simp [splitName, h]

variable (dir)

lemma parse_directory_append (h : Plain file) :
    parse (directory dir ++ file) =
      ⟨root dir ++ [47].intercalate (segments dir).reverse, (splitName false file).1,
        (splitName false file).2⟩ := by
  have hroot : root (directory dir ++ file) = root dir := by
    rw [root, isAbsolute_directory_append h]
    rfl
  have hbody : (if isAbsolute (directory dir ++ file) then (directory dir ++ file).tail
      else directory dir ++ file) = (segments dir).reverse.flatMap (· ++ [47]) ++ file := by
    rw [isAbsolute_directory_append h]
    cases habsolute : isAbsolute dir with
    | true => simp [directory, root_of_absolute habsolute]
    | false => simp [directory, root_of_relative habsolute]
  generalize hslashed : (segments dir).reverse.flatMap (· ++ [47]) = slashed at hbody
  have htrimmed : (slashed ++ file).rdropWhile (· = 47) = slashed ++ file := by
    refine rdropWhile_eq_self_iff.mpr fun hne => ?_
    have hlast : (slashed ++ file).getLast hne ∈ file := by
      rw [getLast_append_of_ne_nil _ h.ne_nil]
      exact getLast_mem h.ne_nil
    exact fun hslash => h.no_slash (of_decide_eq_true hslash ▸ hlast)
  have hplain : ∀ c ∈ file, decide (c ≠ 47) = true := by
    intro c hc
    exact decide_eq_true fun hslash => h.no_slash (hslash ▸ hc)
  -- what stands before the file is empty or ends with a slash
  have hfront : slashed.rtakeWhile (· ≠ 47) = [] ∧
      (slashed.rdropWhile (· ≠ 47)).dropLast = [47].intercalate (segments dir).reverse := by
    by_cases hparts : (segments dir).reverse = []
    · rw [hparts] at hslashed ⊢
      simp [← hslashed]
    rw [flatMap_slash hparts] at hslashed
    rw [← hslashed, rtakeWhile_concat_neg _ _ _ (by simp), rdropWhile_concat_neg _ _ _ (by simp),
      dropLast_concat]
    exact ⟨rfl, rfl⟩
  unfold parse
  simp only [hbody, hroot, htrimmed, rtakeWhile_append hplain, rdropWhile_append hplain, hfront.1, hfront.2,
    nil_append, splitName_of_ne h.ne_dots]

/-- The directory of a joined path joins to the same places. -/
lemma directory_settled : directory (root dir ++ [47].intercalate (segments dir).reverse) = directory dir := by
  have hsettled : Settled (!isAbsolute dir) (segments dir) := settled_foldl _ trivial
  -- reading the kept segments again keeps them
  have hparts : (([47].intercalate (segments dir).reverse).splitOn 47).foldl (push !isAbsolute dir) [] =
      segments dir := by
    by_cases hnone : (segments dir).reverse = []
    · rw [hnone, reverse_eq_nil_iff.mp hnone]
      rfl
    · rw [splitOn_intercalate _ (fun s hs => (mem_of_mem_segments (mem_reverse.mp hs)).2) hnone]
      exact hsettled.foldl_reverse
  have habsolute : isAbsolute (root dir ++ [47].intercalate (segments dir).reverse) = isAbsolute dir := by
    cases habs : isAbsolute dir with
    | true =>
      rw [root_of_absolute habs]
      rfl
    | false =>
      rw [root_of_relative habs]
      cases hrev : segments dir with
      | nil => rfl
      | cons last front =>
        have hmem : ∀ part ∈ last :: front, part ≠ [] ∧ 47 ∉ part :=
          fun part hpart => mem_of_mem_segments (hrev ▸ hpart)
        rw [reverse_cons, intercalate_concat]
        exact not_isAbsolute_flatMap (fun part hpart => hmem part (mem_cons_of_mem _ (mem_reverse.mp hpart)))
          (not_isAbsolute_of_no_slash (hmem last mem_cons_self).2)
  have hsegments : segments (root dir ++ [47].intercalate (segments dir).reverse) = segments dir := by
    rw [segments, habsolute]
    cases habs : isAbsolute dir with
    | true =>
      rw [habs] at hparts
      rw [root_of_absolute habs, singleton_append, show 47 :: [47].intercalate (segments dir).reverse =
        [] ++ 47 :: [47].intercalate (segments dir).reverse from rfl, splitOn_append_cons_self]
      simpa [push] using hparts
    | false =>
      rw [habs] at hparts
      rw [root_of_relative habs]
      exact hparts
  rw [directory, hsegments, root, habsolute]
  rfl

lemma directory_rtakeWhile : (directory dir).rtakeWhile (· ≠ 47) = [] := by
  unfold directory
  by_cases hparts : (segments dir).reverse = []
  · rw [hparts]
    cases habsolute : isAbsolute dir with
    | true =>
      rw [root_of_absolute habsolute]
      rfl
    | false =>
      rw [root_of_relative habsolute]
      rfl
  · rw [flatMap_slash hparts, ← append_assoc, rtakeWhile_concat_neg _ _ _ (by simp)]

lemma rtakeWhile_join (h : Plain file) : (join [dir, file]).rtakeWhile (· ≠ 47) = file := by
  have hplain : ∀ c ∈ file, decide (c ≠ 47) = true :=
    fun c hc => decide_eq_true fun hslash => h.no_slash (hslash ▸ hc)
  rw [join_plain dir h, rtakeWhile_append hplain, directory_rtakeWhile, nil_append]

lemma parse_join_file (h : Plain file) :
    ((parse (join [dir, file])).name, (parse (join [dir, file])).ext) = splitName false file := by
  rw [join_plain dir h, parse_directory_append dir h]

lemma join_parse_dir (h : Plain file) (hother : Plain other) :
    join [(parse (join [dir, file])).dir, other] = join [dir, other] := by
  rw [join_plain dir h, parse_directory_append dir h, join_plain _ hother, join_plain _ hother,
    directory_settled]

variable {dir} (belowRoot : Bool)

lemma splitName_append {stem ext : List Nat} (hstem : stem ≠ []) (hext : 46 ∉ ext)
    (hplain : stem ++ 46 :: ext ≠ [46, 46]) : splitName belowRoot (stem ++ 46 :: ext) = (stem, 46 :: ext) := by
  have hno : ∀ c ∈ ext, decide (c ≠ 46) = true := by
    intro c hc
    exact decide_eq_true fun hdot => hext (hdot ▸ hc)
  have hfile : stem ++ 46 :: ext = (stem ++ [46]) ++ ext := by simp
  rw [splitName_of_ne hplain, splitName]
  simp only [hfile, rdropWhile_append hno, rtakeWhile_append hno]
  rw [rdropWhile_concat_neg _ _ _ (by simp), rtakeWhile_concat_neg _ _ _ (by simp),
    dropLast_concat, if_neg]
  · rfl
  rintro (h | ⟨h, -⟩)
  · exact hstem h
  · exact hplain (hfile ▸ h)

lemma slash_not_mem_splitName (h : 47 ∉ file) :
    47 ∉ (splitName belowRoot file).1 ∧ 47 ∉ (splitName belowRoot file).2 := by
  simp only [splitName]
  split
  · exact ⟨h, not_mem_nil⟩
  refine ⟨fun hmem => h ?_, fun hmem => ?_⟩
  · exact ( rdropWhile_prefix _ _).mem (mem_of_mem_dropLast hmem)
  rcases mem_cons.mp hmem with hdot | hmem
  · cases hdot
  · exact h ((rtakeWhile_suffix _ _).mem hmem)

lemma splitName_ext (file : List Nat) :
    (splitName belowRoot file).2 = [] ∨ ∃ ext, (splitName belowRoot file).2 = 46 :: ext ∧ 46 ∉ ext := by
  simp only [splitName]
  split
  · exact .inl rfl
  refine .inr ⟨_, rfl, fun hmem => ?_⟩
  have hdot := mem_rtakeWhile_imp hmem
  exact absurd rfl (of_decide_eq_true hdot)

end PosixPath
