import PortManager.Base.SplitText
import PortManager.Hook.NetworkScope

/-!
# The preload variable of a child

Embeds `pm_prepare_child_environment`: before an exec the hook's library is put back in front of the libraries that the child
preloads. The value is read from the first entry that assigns the variable, but the last such entry is replaced, so that a child
with two of them does not read the repaired one (`preload_repaired_iff`).
-/

namespace PortManager.Hook
open CText List

variable (platform : Platform)

/-- `PM_PRELOAD_ENV`. -/
def preloadEnv : Text :=
  match platform with
  | .apple => ascii "DYLD_INSERT_LIBRARIES"
  | .elf => ascii "LD_PRELOAD"

/-- `PM_PRELOAD_HINT_ENV`. -/
def preloadHintEnv : Text := ascii "PORT_MANAGER_" ++ preloadEnv platform

variable (hookPath : Text)

/-- The loop of `pm_preload_value_is_normalized` over the segments. -/
def normalizedFrom (segmentIndex : Nat) (sawHook : Bool) : List Text → Bool
  | [] => sawHook
  | segment :: segments =>
    if segment = [] then false
    else if segment = hookPath then
      if segmentIndex ≠ 0 ∨ sawHook then false else normalizedFrom (segmentIndex + 1) true segments
    else if segmentIndex = 0 then false
    else normalizedFrom (segmentIndex + 1) sawHook segments

def preloadValueIsNormalized (value : Option Text) : Bool :=
  value.any fun value => value ≠ [] && hookPath ≠ [] && normalizedFrom hookPath 0 false (value.splitOn 58)

def otherSegments (value : Option Text) : List Text :=
  ((value.getD []).splitOn 58).filter fun segment => segment ≠ [] ∧ segment ≠ hookPath

/-- The hook's library, and the other segments behind it. -/
def repairedValue (value : Option Text) : Text := [58].intercalate (hookPath :: otherSegments hookPath value)

def makePreloadAssignment (currentValue : Option Text) : Text :=
  preloadEnv platform ++ 61 :: (hookPath ++ (otherSegments hookPath currentValue).flatMap (58 :: ·))

/-- The loop that looks for the entry to replace: the last one that assigns the variable. -/
def preloadIndex (name : Text) (count : Nat) (found : Option Nat) : List Text → Option Nat
  | [] => found
  | entry :: envp => preloadIndex name (count + 1) (if (assigned name entry).isSome then some count else found) envp

def replaceLast (name assignment : Text) (envp : List Text) : List Text :=
  match preloadIndex name 0 none envp with
  | none => envp ++ [assignment]
  | some index => envp.set index assignment

/-- The hook is on, in this process (`hooked`) and for the child, and the child asks for the repair. -/
def repairEnabled (hooked : Bool) (envp : List Text) : Bool :=
  hooked && hookEnabled envp && envpValue envp (ascii "PORT_MANAGER_PRELOAD_REPAIR") = some (ascii "1")

def prepareChildEnvironment (hooked : Bool) (envp : List Text) : List Text :=
  let currentPreload := envpValue envp (preloadEnv platform)
  match envpValue envp (preloadHintEnv platform) with
  | none => envp
  | some hookPath =>
    if !repairEnabled hooked envp || hookPath = [] || preloadValueIsNormalized hookPath currentPreload then envp
    else replaceLast (preloadEnv platform) (makePreloadAssignment platform hookPath currentPreload) envp

/-! ## The value of the variable -/

section Value

variable {hookPath} (segments : List Text)

lemma normalizedFrom_succ (segmentIndex : Nat) : normalizedFrom hookPath (segmentIndex + 1) true segments = true ↔
    ∀ segment ∈ segments, decide (segment ≠ [] ∧ segment ≠ hookPath) = true := by
  induction segments generalizing segmentIndex with
  | nil => simp [normalizedFrom]
  | cons segment segments ih =>
    rw [forall_mem_cons, normalizedFrom]
    by_cases hempty : segment = []
    · simp [hempty]
    · by_cases hhook : segment = hookPath <;> simp [hempty, hhook, ih]

/-- A value is normalized when its segments are the hook's and then others. -/
lemma normalizedFrom_iff (hne : hookPath ≠ []) : normalizedFrom hookPath 0 false segments = true ↔
    segments = hookPath :: segments.filter fun segment => segment ≠ [] ∧ segment ≠ hookPath := by
  cases segments with
  | nil => simp [normalizedFrom]
  | cons segment segments =>
    by_cases hhook : segment = hookPath
    · subst hhook
      have hfrom : normalizedFrom segment 0 false (segment :: segments) = normalizedFrom segment 1 true segments := by
        simp [normalizedFrom, hne]
      rw [hfrom, normalizedFrom_succ, filter_cons_of_neg (by simp), cons_inj_right, eq_comm, filter_eq_self]
    · simp [normalizedFrom, hhook]

lemma intercalate_cons_eq (first : Text) : [58].intercalate (first :: segments) = first ++ segments.flatMap (58 :: ·) := by
  induction segments generalizing first with
  | nil => simp
  | cons segment segments ih =>
    rw [intercalate_cons_cons, ih, flatMap_cons, append_assoc]
    rfl

lemma preloadValueIsNormalized_iff (hne : hookPath ≠ []) (hcolon : (58 : UInt8) ∉ hookPath) (value : Option Text) :
    preloadValueIsNormalized hookPath value = true ↔ value = some (repairedValue hookPath value) := by
  cases value with
  | none => simp [preloadValueIsNormalized]
  | some value =>
    have hpieces : ∀ piece ∈ hookPath :: otherSegments hookPath (some value), (58 : UInt8) ∉ piece :=
      forall_mem_cons.mpr ⟨hcolon, fun _ hpiece => SplitText.not_mem_of_mem_splitOn (mem_of_mem_filter hpiece)⟩
    have hempty : value.splitOn 58 = hookPath :: otherSegments hookPath (some value) → value ≠ [] := by
      rintro hvalue rfl
      exact hne (List.cons.inj hvalue).1.symm
    rw [repairedValue, Option.some.injEq, ← SplitText.splitOn_eq_iff hpieces (cons_ne_nil _ _)]
    simp only [preloadValueIsNormalized, Option.any_some, Bool.and_eq_true, decide_eq_true_eq, normalizedFrom_iff _ hne]
    exact ⟨fun h => h.2, fun h => ⟨⟨hempty h, hne⟩, h⟩⟩

lemma assigned_makePreloadAssignment (value : Option Text) :
    assigned (preloadEnv platform) (makePreloadAssignment platform hookPath value) = some (repairedValue hookPath value) := by
  have hsplit : makePreloadAssignment platform hookPath value =
      preloadEnv platform ++ [61] ++ (hookPath ++ (otherSegments hookPath value).flatMap (58 :: ·)) := append_cons ..
  rw [hsplit, assigned, if_pos ( isPrefixOf_iff_prefix.mpr ( prefix_append _ _)), drop_left' (by simp), repairedValue,
    intercalate_cons_eq]

end Value

/-! ## The repair -/

section Index

variable {name : Text} {after : List Text} (hafter : ∀ entry ∈ after, assigned name entry = none)
include hafter

lemma preloadIndex_none (count : Nat) (found : Option Nat) : preloadIndex name count found after = found := by
  induction after generalizing count with
  | nil => rfl
  | cons entry after ih =>
    obtain ⟨hentry, hrest⟩ := forall_mem_cons.mp hafter
    rw [preloadIndex, hentry]
    exact ih hrest _

lemma preloadIndex_last {entry value : Text} (hentry : assigned name entry = some value) (before : List Text) (count : Nat)
    (found : Option Nat) : preloadIndex name count found (before ++ entry :: after) = some (count + before.length) := by
  induction before generalizing count found with
  | nil => rw [nil_append, preloadIndex, hentry, preloadIndex_none hafter]; rfl
  | cons other before ih => rw [cons_append, preloadIndex, ih, length_cons, add_right_comm, add_assoc]

end Index

/-- The first entry of the result that assigns the variable assigns the value; every other entry is as it was, where it was. -/
def Repaired (name value : Text) (envp result : List Text) : Prop :=
  ∃ before entry after, result = before ++ entry :: after ∧ (∀ other ∈ before, assigned name other = none) ∧
    assigned name entry = some value ∧ (envp = before ∧ after = [] ∨ ∃ old, envp = before ++ old :: after)

variable {name value assignment : Text} {envp result : List Text}

lemma repaired_self (hvalue : envpValue envp name = some value) : Repaired name value envp envp := by
  obtain ⟨before, entry, after, hsplit, hentry, hbefore⟩ := findSome?_eq_some_iff.mp hvalue
  exact ⟨before, entry, after, hsplit, hbefore, hentry, .inr ⟨entry, hsplit⟩⟩

lemma Repaired.envpValue_eq (h : Repaired name value envp result) : envpValue result name = some value := by
  obtain ⟨before, entry, after, hsplit, hbefore, hentry, -⟩ := h
  exact findSome?_eq_some_iff.mpr ⟨before, entry, after, hsplit, hentry, hbefore⟩

lemma envpValue_append (before : List Text) (hfirst : envpValue before name = some value) (after : List Text) :
    envpValue (before ++ after) name = some value := by
  rw [envpValue, findSome?_append, ← envpValue, hfirst]
  rfl

/-- The last entry that assigns a variable, if there is one. -/
lemma exists_last (name : Text) (envp : List Text) : (∀ entry ∈ envp, assigned name entry = none) ∨
    ∃ before entry value after, envp = before ++ entry :: after ∧ assigned name entry = some value ∧
      ∀ entry ∈ after, assigned name entry = none := by
  cases hlast : envp.reverse.findSome? (assigned name) with
  | none => exact .inl fun entry hentry => findSome?_eq_none_iff.mp hlast entry (mem_reverse.mpr hentry)
  | some value =>
    obtain ⟨after, entry, before, hsplit, hentry, hafter⟩ := findSome?_eq_some_iff.mp hlast
    refine .inr ⟨before.reverse, entry, value, after.reverse, ?_, hentry, fun entry hentry => hafter entry (mem_reverse.mp hentry)⟩
    rw [← reverse_reverse envp, hsplit]
    simp

lemma repaired_replaceLast_iff (hassigned : assigned name assignment = some value) (hother : envpValue envp name ≠ some value) :
    Repaired name value envp (replaceLast name assignment envp) ↔
      envp.countP (fun entry => (assigned name entry).isSome) ≤ 1 := by
  have hzero : ∀ {entries : List Text}, (∀ entry ∈ entries, assigned name entry = none) →
      entries.countP (fun entry => (assigned name entry).isSome) = 0 :=
    fun hnone => countP_eq_zero.mpr fun entry hentry => by simp [hnone entry hentry]
  unfold replaceLast
  rcases exists_last name envp with hnone | ⟨before, entry, last, after, rfl, hentry, hafter⟩
  · rw [preloadIndex_none hnone, hzero hnone]
    exact iff_of_true ⟨envp, assignment, [], rfl, hnone, hassigned, .inl ⟨rfl, rfl⟩⟩ (Nat.zero_le _)
  have hset : (before ++ entry :: after).set (0 + before.length) assignment = before ++ assignment :: after := by simp
  simp only [preloadIndex_last hafter hentry, hset]
  rw [countP_append, countP_cons_of_pos (by rw [hentry]; rfl), hzero hafter]
  cases hfirst : envpValue before name with
  | none =>
    have hbefore := findSome?_eq_none_iff.mp hfirst
    rw [hzero hbefore]
    exact iff_of_true ⟨before, assignment, after, rfl, hbefore, hassigned, .inr ⟨entry, rfl⟩⟩ (le_refl _)
  | some first =>
    -- the first entry stays as it is
    refine iff_of_false (fun hrepaired => hother ?_) fun hcount => ?_
    · rw [envpValue_append before hfirst, ← hrepaired.envpValue_eq, envpValue_append before hfirst]
    obtain ⟨front, found, back, rfl, hfound, -⟩ := findSome?_eq_some_iff.mp hfirst
    rw [countP_append, countP_cons_of_pos (by rw [hfound]; rfl)] at hcount
    omega

/-- In the environment of a child that asks for the repair the first entry for the preload variable has the hook's library once,
with the other segments of the first value behind it, and every other entry is in place, exactly when the value was in order
before or at most one entry assigns the variable. -/
theorem preload_repaired_iff {hookPath : Text} {envp : List Text} {hooked : Bool} (henabled : repairEnabled hooked envp = true)
    (hhint : envpValue envp (preloadHintEnv platform) = some hookPath) (hne : hookPath ≠ []) (hcolon : (58 : UInt8) ∉ hookPath) :
    Repaired (preloadEnv platform) (repairedValue hookPath (envpValue envp (preloadEnv platform))) envp
        (prepareChildEnvironment platform hooked envp) ↔
      preloadValueIsNormalized hookPath (envpValue envp (preloadEnv platform)) = true ∨
        envp.countP (fun entry => (assigned (preloadEnv platform) entry).isSome) ≤ 1 := by
  simp only [prepareChildEnvironment, hhint, henabled, hne, Bool.not_true, decide_false, Bool.or_false, Bool.false_or]
  split
  next hnormal => exact iff_of_true (repaired_self ((preloadValueIsNormalized_iff hne hcolon _).mp hnormal)) (.inl hnormal)
  next hnormal =>
    rw [or_iff_right hnormal]
    exact repaired_replaceLast_iff (assigned_makePreloadAssignment platform _)
      ((preloadValueIsNormalized_iff hne hcolon _).not.mp hnormal)

/-- An environment with some entries behind the two that ask for the repair. -/
def sampleEnvp (entries : List String) : List Text :=
  (["PORT_MANAGER_PRELOAD_REPAIR=1", "PORT_MANAGER_LD_PRELOAD=/h.so"] ++ entries).map ascii

/-- One entry is repaired. -/
theorem preload_repaired_single :
    Repaired (preloadEnv .elf) (repairedValue (ascii "/h.so") (envpValue (sampleEnvp ["LD_PRELOAD=/a.so"]) (preloadEnv .elf)))
      (sampleEnvp ["LD_PRELOAD=/a.so"]) (prepareChildEnvironment .elf true (sampleEnvp ["LD_PRELOAD=/a.so"])) :=
  (preload_repaired_iff .elf (by decide +kernel) (by decide +kernel) (by decide) (by decide)).mpr (.inr (by decide +kernel))

/-- With two entries the second one is replaced, and the child goes on reading the first one. -/
theorem preload_repaired_behind :
    let result := prepareChildEnvironment .elf true (sampleEnvp ["LD_PRELOAD=/a.so", "LD_PRELOAD=/b.so"])
    result = sampleEnvp ["LD_PRELOAD=/a.so", "LD_PRELOAD=/h.so:/a.so"] ∧ envpValue result (preloadEnv .elf) = some (ascii "/a.so") := by
  decide +kernel

end PortManager.Hook
