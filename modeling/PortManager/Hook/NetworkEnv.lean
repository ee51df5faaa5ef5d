import PortManager.Base.SplitText
import PortManager.Hook.NetworkScope

/-!
# The environment file of a network

Embeds `pm_apply_network_env_file` of `portmanager_hook.c` with `pm_network_env_apply_line`, `pm_network_env_key_is_valid` and
`pm_network_env_key_is_reserved`. An environment is a function from names to values, which is what `getenv` sees of it; `setenv`
succeeds. Which file is found is the business of the caller.

The file is read by `fgets` into a buffer of 4096 bytes, so a longer line is applied in pieces, each one as a line of its own.
-/

namespace PortManager.Hook

open CText List Option

abbrev Environment := Text → Option Text

/-! ## One line -/

/-- The key starts with one of two words or is one of four. -/
def keyIsReserved (key : Text) : Bool :=
  (ascii "PORT_MANAGER_").isPrefixOf key || (ascii "NEWDLOPS_PM_").isPrefixOf key ||
    isOneOf key ["PATH", "BASH_ENV", "DYLD_INSERT_LIBRARIES", "LD_PRELOAD"]

def isKeyStart (c : UInt8) : Bool := (65 ≤ c && c ≤ 90) || (97 ≤ c && c ≤ 122) || c == 95

def keyIsValid : Text → Bool
  | [] => false
  | c :: rest => isKeyStart c && rest.all fun c => isKeyStart c || isdigit c

def isBlank (c : UInt8) : Bool := c == 32 || c == 9

/-- One pair of equal quotes around the value is removed. -/
def unquoted (value : Text) : Text :=
  match value with
  | quote :: rest => if (quote = 34 ∨ quote = 39) ∧ rest.getLast? = some quote then rest.dropLast else value
  | [] => []

/-- The key and the value of a line without blanks and comment in front, before the key is checked. -/
def splitAssignment (line : Text) : Option (Text × Text) :=
  let line := if (ascii "export ").isPrefixOf line then (line.drop 7).dropWhile isBlank else line
  let key := line.takeWhile (· ≠ 61)
  if key = [] ∨ key = line then none
  else
    let value := (line.drop (key.length + 1)).dropWhile isBlank
    some (key.rdropWhile isBlank, unquoted (value.rdropWhile fun c => isBlank c || c == 13))

def assignment (line : Text) : Option (Text × Text) :=
  let line := line.dropWhile isBlank
  if line.head? = none ∨ line.head? = some 35 then none
  else (splitAssignment line).filter fun entry => keyIsValid entry.1 && !keyIsReserved entry.1

/-- `pm_network_env_apply_line`. -/
def applyLine (environment : Environment) (line : Text) : Environment :=
  match assignment line with
  | none => environment
  | some (key, value) => Function.update environment key (some value)

def applyLines (lines : List Text) (environment : Environment) : Environment := lines.foldl applyLine environment

/-! ## The file -/

/-- The texts that `fgets` gives one after the other, without the line feed at their end, when the buffer has room for `size`
bytes and `room` of them are left. (After the last line feed there is one more empty text, which assigns nothing.) -/
def fgetsLines (size : Nat) : Nat → Text → List Text
  | _, [] => [[]]
  | 0, c :: rest =>
    -- the buffer is full: the next call starts with this byte
    [] :: (if c = 10 then [] :: fgetsLines size size rest else (fgetsLines size (size - 1) rest).modifyHead (c :: ·))
  | room + 1, c :: rest =>
    if c = 10 then [] :: fgetsLines size size rest else (fgetsLines size room rest).modifyHead (c :: ·)

/-- `char line[4096]` without the terminator. -/
def LINE_BYTES : Nat := 4095

def PM_MAX_TEXT : Nat := 512

def appliedName : Text := ascii "PORT_MANAGER_NETWORK_ENV_APPLIED"

structure HookedProcess where
  environment : Environment
  hookEnabled : Bool
  scopeIsGlobal : Bool
  network : Option Text

namespace HookedProcess

variable (process : HookedProcess)

def pendingNetwork : Option Text :=
  if process.hookEnabled = false ∨ process.scopeIsGlobal then none
  else process.network.filter fun network =>
    network ≠ [] && network.length < PM_MAX_TEXT && process.environment appliedName ≠ some network

/-- The environment with the marker of the process tree. -/
def marked : Environment :=
  match process.pendingNetwork with
  | none => process.environment
  | some network => Function.update process.environment appliedName (some network)

/-- `pm_apply_network_env_file`, for the content of the file that is found. -/
def applyNetworkEnvFile (file : Option Text) : Environment :=
  match process.pendingNetwork, file with
  | some _, some content => applyLines (fgetsLines LINE_BYTES LINE_BYTES content) process.marked
  | _, _ => process.marked

end HookedProcess

/-! ## What a list of lines does -/

def lastAssigned (lines : List Text) (key : Text) : Option Text :=
  ((lines.filterMap assignment).reverse.find? fun entry => entry.1 = key).map Prod.snd

variable {key : Text} {environment : Environment} {line content : Text} {lines : List Text}

lemma keyIsReserved_of_assignment {entry : Text × Text} (h : assignment line = some entry) :
    keyIsReserved entry.1 = false := by
  simp only [assignment] at h
  split at h
  · cases h
  rw [filter_eq_some_iff] at h
  obtain ⟨-, hkey⟩ := h
  simp only [Bool.and_eq_true, Bool.not_eq_true'] at hkey
  exact hkey.2

lemma applyLine_eq : applyLine environment line key = (lastAssigned [line] key).or (environment key) := by
  unfold applyLine lastAssigned
  cases h : assignment line with
  | none => simp [h]
  | some entry =>
    by_cases e : entry.1 = key
    · subst e
      simp [h]
    · simp [h, e, Function.update_of_ne (Ne.symm e)]

lemma lastAssigned_concat : lastAssigned (lines ++ [line]) key = (lastAssigned [line] key).or (lastAssigned lines key) := by
  unfold lastAssigned
  rw [filterMap_append, reverse_append, find?_append, map_or]

/-- After a list of lines a variable has the last value assigned to it. -/
lemma applyLines_eq : applyLines lines environment key = (lastAssigned lines key).or (environment key) := by
  induction lines using List.reverseRecOn with
  | nil => rfl
  | append_singleton lines line ih =>
    rw [applyLines, foldl_append, foldl_cons, foldl_nil, ← applyLines, applyLine_eq, ih,
      lastAssigned_concat, Option.or_assoc]

lemma lastAssigned_of_reserved (h : keyIsReserved key = true) : lastAssigned lines key = none := by
  unfold lastAssigned
  rw [map_eq_none_iff, find?_eq_none]
  intro entry hentry hkey
  rw [mem_reverse, mem_filterMap] at hentry
  obtain ⟨line, -, hline⟩ := hentry
  rw [← of_decide_eq_true hkey, keyIsReserved_of_assignment hline] at h
  cases h

lemma fgetsLines_of_short {size room : Nat} (hall : ∀ line ∈ content.splitOn 10, line.length < size)
    (hhead : ∀ line, (content.splitOn 10).head? = some line → line.length < room) :
    fgetsLines size room content = content.splitOn 10 := by
  induction content generalizing room with
  | nil =>
    unfold fgetsLines
    rfl
  | cons c rest ih =>
    rw [splitOn_cons_eq_if_modifyHead] at hall hhead ⊢
    cases room with
    | zero =>
      -- some line comes first, and it is not shorter than nothing
      have hne : (if (c == 10) = true then [] :: rest.splitOn 10 else (rest.splitOn 10).modifyHead (c :: ·)) ≠ [] := by
        split
        · exact cons_ne_nil _ _
        · simp
      obtain ⟨first, hfirst⟩ := isSome_iff_exists.mp (isSome_head?.mpr hne)
      exact absurd (hhead first hfirst) (Nat.not_lt_zero _)
    | succ room =>
      unfold fgetsLines
      by_cases hc : c = 10
      · subst hc
        simp only [beq_self_eq_true, if_true, mem_cons] at hall ⊢
        rw [ih (fun line hline => hall line (.inr hline)) fun line hline => hall line (.inr (mem_of_head? hline))]
      simp only [beq_iff_eq, hc, if_false] at hall hhead ⊢
      cases hrest : rest.splitOn 10 with
      | nil => exact absurd hrest (splitOn_ne_nil _ _)
      | cons first others =>
        rw [hrest] at hall hhead ih
        simp only [modifyHead_cons, mem_cons, head?_cons, some_inj] at hall hhead ih ⊢
        have hfirst : first.length < room := Nat.lt_of_succ_lt_succ (hhead (c :: first) rfl)
        have hread : fgetsLines size room rest = first :: others := by
          apply ih
          · rintro line (rfl | hline)
            · exact Nat.lt_of_succ_lt (hall (c :: line) (.inl rfl))
            · exact hall line (.inr hline)
          · rintro line rfl
            exact hfirst
        rw [hread]
        rfl

lemma fgetsLines_append {size room : Nat} {text : Text} (h : 10 ∉ text) :
    fgetsLines size (text.length + room) (text ++ content) = (fgetsLines size room content).modifyHead (text ++ ·) := by
  induction text with
  | nil => cases hlines : fgetsLines size room content <;> simp [hlines]
  | cons c text ih =>
    rw [mem_cons, not_or] at h
    rw [length_cons, add_right_comm, cons_append]
    simp only [fgetsLines]
    rw [if_neg (Ne.symm h.1), ih h.2, modifyHead_modifyHead]
    rfl

lemma assignment_comment (rest : Text) : assignment (35 :: rest) = none := by simp [assignment, isBlank]

namespace HookedProcess

def fresh : HookedProcess := ⟨fun _ => none, true, false, some (ascii "net")⟩

lemma applied_after_comment {comment : Text} (h : 10 ∉ 35 :: comment) (hlength : (35 :: comment).length = LINE_BYTES) :
    fresh.applyNetworkEnvFile (some (35 :: comment ++ ascii "A=1\n")) (ascii "A") = some (ascii "1") ∧
      applyLines ((35 :: comment ++ ascii "A=1\n").splitOn 10) fresh.marked (ascii "A") = none := by
  have hpieces : fgetsLines LINE_BYTES LINE_BYTES (35 :: comment ++ ascii "A=1\n") = [35 :: comment, ascii "A=1", []] := by
    have hfull : fgetsLines LINE_BYTES ((35 :: comment).length + 0) (35 :: comment ++ ascii "A=1\n") =
        (fgetsLines LINE_BYTES 0 (ascii "A=1\n")).modifyHead (35 :: comment ++ ·) := fgetsLines_append h
    rw [hlength, add_zero] at hfull
    rw [hfull, show fgetsLines LINE_BYTES 0 (ascii "A=1\n") = [[], ascii "A=1", []] from by decide +kernel,
      modifyHead_cons, append_nil]
  have hlines : (35 :: comment ++ ascii "A=1\n").splitOn 10 = [35 :: (comment ++ ascii "A=1"), []] := by
    rw [SplitText.splitOn_eq_iff]
    · simp [ascii, List.intercalate]
    · simpa [ascii] using h
    · exact cons_ne_nil _ _
  constructor
  · have hread : fresh.applyNetworkEnvFile (some (35 :: comment ++ ascii "A=1\n")) =
        applyLines (fgetsLines LINE_BYTES LINE_BYTES (35 :: comment ++ ascii "A=1\n")) fresh.marked := rfl
    rw [hread, applyLines_eq, hpieces]
    unfold lastAssigned
    rw [filterMap_cons_none (assignment_comment _)]
    decide +kernel
  · rw [applyLines_eq, hlines]
    unfold lastAssigned
    rw [filterMap_cons_none (assignment_comment _)]
    decide +kernel

end HookedProcess

end PortManager.Hook
