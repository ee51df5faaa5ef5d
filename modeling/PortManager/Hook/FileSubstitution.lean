import PortManager.Base.CText

/-!
# Substitute files of a network

Embeds the mapping of an opened path to its substitute in `portmanager_hook.c`: `pm_file_substitution_candidate`,
`pm_file_substitution_target`, the tests of a relative path they use, and `pm_file_substitution_open_target`. What the file system
says about a path is a function of its text. The directories are walked as they are after the calls that
`pm_file_substitution_target` makes for the path (copies, new parents, links), so they may depend on the path.

A path that is opened onto a substitute has no empty name below the root, since `openat` fails on an empty name. So no other
path with the same names and other slashes is opened onto a substitute.
-/

namespace PortManager.Hook

open CText List Option

/-! ## Texts -/

/-- What follows the first place where the needle occurs, as `strstr` finds it. -/
def afterFirst (needle : Text) : Text → Option Text
  | [] => if needle = [] then some [] else none
  | c :: rest => if needle.isPrefixOf (c :: rest) then some ((c :: rest).drop needle.length) else afterFirst needle rest

def contains (needle text : Text) : Bool := (afterFirst needle text).isSome

def basename (path : Text) : Text := (path.splitOn 47).getLast?.getD []

/-- One name of the path is a background directory. -/
def relativeIsExcluded (relative : Text) : Bool :=
  (relative.splitOn 47).any (isOneOf · [".git", "node_modules", ".venv", "venv", "__pycache__"])

/-- A path in a directory with a dot, or a name with a dot in front, without one or with the suffix of a state file. -/
def relativeIsState (relative : Text) : Bool :=
  (relative.splitOn 47).dropLast.any (fun name => name.head? = some 46 && !isOneOf name [".", ".."]) ||
    (basename relative).head? = some 46 || !(basename relative).contains 46 ||
    [".pid", ".lock", ".log", ".sock", ".tmp", ".state", ".db", ".sqlite", ".sqlite3"].any fun suffix =>
      (ascii suffix).length < (basename relative).length && (ascii suffix).isSuffixOf (basename relative)

def relativeIsDotenv (relative : Text) : Bool :=
  basename relative = ascii ".env" || (ascii ".env.").isPrefixOf (basename relative)

/-! ## The file system -/

inductive FileKind where
  | absent
  | regular
  | symlink
  | other
deriving DecidableEq

/-- Directories `D` and files `F`; no entry has an empty name. -/
structure Tree (D F : Type) where
  root : Option D
  openDirectory : D → Text → Option D
  openFile : D → Text → Option F
  openDirectory_empty : ∀ directory, openDirectory directory [] = none
  openFile_empty : ∀ directory, openFile directory [] = none

structure Substitution (D F : Type) where
  /-- `pm_file_substitution_ready`: `none` before the initialisation, `some false` without ownership -/
  ready : Option Bool
  root : Text
  /-- the directory of the network, below the root -/
  networkDirectory : Text
  cwd : Option Text
  statIsRegular : Text → Bool
  lstat : Text → FileKind
  readlink : Text → Option Text
  tree : Text → Tree D F

def PM_MAX_PATH : Nat := 4096

namespace Substitution

variable {D F : Type} (substitution : Substitution D F) (path : Text)

def mirror : Text := substitution.root ++ 47 :: substitution.networkDirectory ++ ascii "/files"

def absolute : Option Text :=
  if path.head? = some 47 then some path else substitution.cwd.map (· ++ 47 :: path)

/-- `pm_file_substitution_candidate`: the path relative to the root, where the mirror may have a counterpart. -/
def relative : Option Text :=
  if substitution.ready = none ∨ substitution.root = [] ∨ path = [] ∨ relativeIsExcluded path = true then none
  else
    (substitution.absolute path).bind fun absolute =>
      if PM_MAX_PATH ≤ absolute.length ∨ contains (ascii "/.portmanager/") absolute = true ∨
          contains (ascii "/../") absolute = true then none
      else if (substitution.root ++ [47]).isPrefixOf absolute then
        let relative := absolute.drop (substitution.root.length + 1)
        if relative = [] ∨ PM_MAX_PATH ≤ (substitution.mirror ++ 47 :: relative).length then none else some relative
      else none

def originalIsVirtual (absolute : Text) : Bool :=
  match substitution.lstat absolute with
  | .absent => true
  | .symlink =>
    ((substitution.readlink absolute).filter (· ≠ [])).any fun current =>
      contains (ascii "/.portmanager/files/") current ||
        (afterFirst (ascii "/.portmanager/namespaces/") current).any (contains (ascii "/files/"))
  | _ => false

/-- `pm_file_substitution_target` returns the candidate. -/
def isSubstituted (absolute relative candidate : Text) : Bool :=
  let isPrivate := relativeIsState relative && substitution.originalIsVirtual absolute
  if substitution.ready = some false then relativeIsDotenv relative || isPrivate
  else
    substitution.statIsRegular candidate ||
      (!relativeIsExcluded relative &&
        ((relativeIsDotenv relative && (substitution.lstat absolute = .regular || substitution.lstat absolute = .symlink)) || isPrivate))

def walk (tree : Tree D F) (directory : D) : List Text → Option F
  | [] => none
  | [name] => tree.openFile directory name
  | name :: next :: names => (tree.openDirectory directory name).bind fun below => walk tree below (next :: names)

/-- `pm_file_substitution_open_target`. -/
def openTarget (tree : Tree D F) (target : Text) : Option F :=
  if substitution.ready = some false then none
  else if (substitution.root ++ [47]).isPrefixOf target then
    tree.root.bind fun directory => walk tree directory ((target.drop (substitution.root.length + 1)).splitOn 47)
  else none

def opened : Option F :=
  (substitution.relative path).bind fun relative =>
    (substitution.absolute path).bind fun absolute =>
      let candidate := substitution.mirror ++ 47 :: relative
      if substitution.isSubstituted absolute relative candidate then substitution.openTarget (substitution.tree path) candidate else none

variable {substitution path} {target relative : Text} {tree : Tree D F} {directory : D} {file : F}

/-! ## Slashes -/

/-- Every run of slashes becomes one; `slash` tells whether a slash is in front. -/
def squeeze : Bool → Text → Text
  | _, [] => []
  | slash, c :: rest =>
    if c = 47 then (if slash then squeeze true rest else 47 :: squeeze true rest) else c :: squeeze false rest

lemma squeeze_append_slash (slash : Bool) (front rest : Text) :
    squeeze slash (front ++ 47 :: rest) = squeeze slash (front ++ [47]) ++ squeeze true rest := by
  induction front generalizing slash with
  | nil => cases slash <;> simp [squeeze]
  | cons c front ih =>
    simp only [cons_append, squeeze]
    split
    · split
      · exact ih true
      · rw [ih, cons_append]
    · rw [ih, cons_append]

lemma head?_squeeze : (squeeze false path).head? = path.head? := by
  cases path with
  | nil => rfl
  | cons c rest =>
    unfold squeeze
    split
    next hc => exact congrArg some hc.symm
    next => rfl

lemma squeeze_of_names {slash : Bool} (htail : ∀ name ∈ (path.splitOn 47).tail, name ≠ [])
    (hhead : slash = true → ∀ name, (path.splitOn 47).head? = some name → name ≠ []) : squeeze slash path = path := by
  induction path generalizing slash with
  | nil => rfl
  | cons c rest ih =>
    rw [splitOn_cons_eq_if_modifyHead] at htail hhead
    unfold squeeze
    split
    next hc =>
      subst hc
      simp only [beq_self_eq_true, if_true, tail_cons, head?_cons, some_inj] at htail hhead
      have hslash : ¬slash = true := fun hslash => hhead hslash [] rfl rfl
      rw [if_neg hslash, ih (fun name hname => htail name (mem_of_mem_tail hname))
        fun _ name hname => htail name (mem_of_head? hname)]
    next hc =>
      simp only [beq_iff_eq, hc, if_false, tail_modifyHead] at htail
      rw [ih htail fun hfalse => absurd hfalse Bool.false_ne_true]

/-! ## What is opened has no empty name -/

lemma names_of_walk {names : List Text} (h : walk tree directory names = some file) : ∀ name ∈ names, name ≠ [] := by
  induction names generalizing directory with
  | nil => cases h
  | cons name names ih =>
    cases names with
    | nil =>
      rintro other hother rfl
      rw [← mem_singleton.mp hother] at h
      simp [walk, tree.openFile_empty] at h
    | cons next names =>
      obtain ⟨below, hbelow, hrest⟩ := bind_eq_some_iff.mp h
      rintro other hother
      rcases mem_cons.mp hother with rfl | hother
      · rintro rfl
        rw [tree.openDirectory_empty] at hbelow
        cases hbelow
      · exact ih hrest other hother

lemma relative_spec (habsolute : path.head? = some 47) (h : substitution.relative path = some relative) :
    path = substitution.root ++ 47 :: relative := by
  simp only [Substitution.relative, absolute, habsolute, if_true] at h
  split at h
  · cases h
  rw [bind_some] at h
  split at h
  · cases h
  split at h
  next hroot =>
    obtain ⟨rest, hrest⟩ := isPrefixOf_iff_prefix.mp hroot
    split at h
    · cases h
    rw [some_inj] at h
    rw [← h, ← hrest]
    simp
  next => cases h

lemma opened_spec (habsolute : path.head? = some 47) (h : substitution.opened path = some file) :
    ∃ relative, path = substitution.root ++ 47 :: relative ∧ ∀ name ∈ relative.splitOn 47, name ≠ [] := by
  obtain ⟨relative, hrelative, h⟩ := bind_eq_some_iff.mp h
  obtain ⟨absolute, -, h⟩ := bind_eq_some_iff.mp h
  refine ⟨relative, relative_spec habsolute hrelative, fun name hname => ?_⟩
  simp only at h
  split at h
  · unfold openTarget at h
    split at h
    · cases h
    split at h
    · obtain ⟨directory, -, hwalk⟩ := bind_eq_some_iff.mp h
      refine names_of_walk hwalk name ?_
      have hdrop : (substitution.mirror ++ 47 :: relative).drop (substitution.root.length + 1) =
          (substitution.networkDirectory ++ ascii "/files") ++ 47 :: relative := by
        simp [mirror]
      rw [hdrop, splitOn_append_cons_self]
      exact mem_append_right _ hname
    · cases h
  · cases h

def anyTree : Tree Unit Unit where
  root := some ()
  openDirectory _ name := if name = [] then none else some ()
  openFile _ name := if name = [] then none else some ()
  openDirectory_empty _ := rfl
  openFile_empty _ := rfl

def inRepo : Substitution Unit Unit where
  ready := some true
  root := ascii "/repo"
  networkDirectory := ascii ".portmanager/namespaces/net"
  cwd := some (ascii "/repo")
  statIsRegular _ := true
  lstat _ := .regular
  readlink _ := none
  tree _ := anyTree

end Substitution

end PortManager.Hook
