import PortManager.Node.RoutePaths

/-!
# Variables recovered from a running process

Embeds how hook-route recovery reads variables of another process
(`platform/process/node-process-environment.ts`). The captured entries become one text, a line each, and
every variable is found in it by the pattern `(?:^|\s)NAME=([^\s]+)`.

The text no longer shows where an entry ends. A value is cut at its first blank, and a blank inside the
value of any variable may be followed by the name of another one (`recovered_variables_exact_iff`).
-/

namespace PortManager.Node
open JsonText List Option

/-! ## The pattern -/

/-- What a key and a run of other characters than blanks match at the start of a text: the run. -/
def valueAt : List Nat → List Nat → Option (List Nat)
  | [], text => (some (text.takeWhile fun c => !isSpaceUnit c)).filter (· ≠ [])
  | k :: key, c :: text => if k = c then valueAt key text else none
  | _ :: _, [] => none

/-- The first match at the start of the text or behind a blank. -/
def scanValue (key : List Nat) : Bool → List Nat → Option (List Nat)
  | _, [] => none
  | atStart, c :: text => (if atStart then valueAt key (c :: text) else none).or (scanValue key (isSpaceUnit c) text)

variable (output : List Nat)

def matchVariable (name : String) : Option (List Nat) := scanValue (codes name ++ [61]) true output

def parseProcessEnvironmentValue (names : List String) : Option (List Nat) :=
  names.findSome? fun name => ((matchVariable output name).map trim).filter (· ≠ [])

def ROUTING_NETWORK_VARIABLES : List String :=
  ["PORT_MANAGER_NETWORK_ID", "PORT_MANAGER_ROUTE_TABLE_NETWORK_ID", "PORT_MANAGER_BORROWED_NETWORK_ID",
    "NEWDLOPS_PM_NETWORK_ID", "NEWDLOPS_PM_BORROWED_NETWORK_ID"]

def parseRoutingNetworkIdFromProcessEnvironment : Option (List Nat) :=
  parseProcessEnvironmentValue output ROUTING_NETWORK_VARIABLES

/-- The variables of the Port Manager that `recoverHookRoute` reads. -/
def recoveryVariables : List String :=
  ROUTING_NETWORK_VARIABLES ++
    ["PORT_MANAGER_HOOK_DISABLED", "PORT_MANAGER_HOOK", "PORT_MANAGER_DYLD_INSERT_LIBRARIES", "PORT_MANAGER_LD_PRELOAD",
      "PORT_MANAGER_EXPERIMENTAL_ROUTE_OWNERSHIP_MODE", "PORT_MANAGER_TERMINAL_SESSION_ID",
      "PORT_MANAGER_TERMINAL_PROCESS_GROUP_ID", "PORT_MANAGER_NETWORK_LOOPBACK_HOST",
      "PORT_MANAGER_ACTUAL_LOOPBACK_HOST"]

variable (entries : List (List Nat)) (listing : List Nat) (name : String)

/-- The text of `captureHookRecoveryProcessMetadata`; without entries it is what `ps` lists. -/
def environmentOutput : List Nat := if entries.length = 0 then listing else [10].intercalate entries

/-! ## The entries themselves -/

def isEntryOf (entry : List Nat) : Bool := (codes name ++ [61]).isPrefixOf entry

/-- The value of the entry of a name, as `getenv` gives it. -/
def entryValue : Option (List Nat) := (entries.find? (isEntryOf name)).map (·.drop (codes name ++ [61]).length)

def strayValue : Option (List Nat) :=
  if entries.length = 0 then matchVariable listing name
  else (entries.takeWhile fun entry => !isEntryOf name entry).findSome? fun entry => matchVariable entry name

/-! ## Matches in a joined text -/

variable {key text rest value : List Nat} {c : Nat} {atStart : Bool} (hkey : ∀ k ∈ key, isSpaceUnit k = false)
include hkey

lemma valueAt_append (hc : isSpaceUnit c = true) : valueAt key (text ++ c :: rest) = valueAt key text := by
  induction key generalizing text with
  | nil =>
    have htake : (text ++ c :: rest).takeWhile (fun c => !isSpaceUnit c) = text.takeWhile fun c => !isSpaceUnit c := by
      induction text with
      | nil => simp [hc]
      | cons d text ih => simp only [cons_append, takeWhile_cons, ih]
    simp only [valueAt, htake]
  | cons k key ih =>
    obtain ⟨hk, hkey⟩ := forall_mem_cons.mp hkey
    cases text with
    | nil =>
      have hne : k ≠ c := by
        rintro rfl
        simp [hk] at hc
      simp [valueAt, hne]
    | cons d text => simp only [cons_append, valueAt, ih hkey]

lemma scanValue_append (hc : isSpaceUnit c = true) :
    scanValue key atStart (text ++ c :: rest) = (scanValue key atStart text).or (scanValue key true rest) := by
  induction text generalizing atStart with
  | nil =>
    have hnone : valueAt key (c :: rest) = none := by
      rw [← nil_append (c :: rest), valueAt_append hkey hc]
      cases key <;> rfl
    simp [scanValue, hnone, hc]
  | cons d text ih =>
    rw [cons_append, scanValue, scanValue, ih, ← cons_append, valueAt_append hkey hc, Option.or_assoc]

lemma scanValue_intercalate :
    scanValue key true ([10].intercalate entries) = entries.findSome? (scanValue key true) := by
  induction entries with
  | nil => rfl
  | cons entry entries ih =>
    cases entries with
    | nil => rw [intercalate_singleton, findSome?_singleton]
    | cons next entries =>
      rw [intercalate_cons_cons, append_assoc, singleton_append, scanValue_append hkey (by decide), ih,
        ← findSome?_singleton (f := scanValue key true), ← findSome?_append, singleton_append]

omit hkey

def IsWord (value : List Nat) : Prop := value ≠ [] ∧ ∀ c ∈ value, isSpaceUnit c = false

lemma isWord_of_valueAt (h : valueAt key text = some value) : IsWord value := by
  induction key, text using valueAt.induct with
  | case1 text =>
    obtain ⟨hsome, hne⟩ := filter_eq_some_iff.mp h
    cases hsome
    refine ⟨by simpa using hne, fun c hc => ?_⟩
    simpa using mem_takeWhile_imp hc
  | case2 k key text ih => exact ih (by simpa [valueAt] using h)
  | case3 k key c text hne => simp [valueAt, hne] at h
  | case4 => cases h

lemma isWord_of_scanValue (h : scanValue key atStart text = some value) : IsWord value := by
  induction text generalizing atStart with
  | nil => cases h
  | cons c text ih =>
    rw [scanValue, or_eq_some_iff] at h
    rcases h with h | ⟨-, h⟩
    · cases atStart with
      | false => cases h
      | true => exact isWord_of_valueAt h
    · exact ih h

lemma valueAt_append_self (h : IsWord value) : valueAt key (key ++ value) = some value := by
  induction key with
  | nil =>
    have htake : value.takeWhile (fun c => !isSpaceUnit c) = value :=
      takeWhile_eq_self_iff.mpr fun c hc => by simp [h.2 c hc]
    simp [valueAt, htake, h.1]
  | cons k key ih => simpa [valueAt] using ih

lemma scanValue_append_self (h : IsWord value) : scanValue key true (key ++ value) = some value := by
  cases htext : key ++ value with
  | nil => exact absurd (append_eq_nil_iff.mp htext).2 h.1
  | cons c text => rw [scanValue, if_pos rfl, ← htext, valueAt_append_self h, some_or]

lemma trim_of_isWord (h : IsWord value) : trim value = value := by
  rw [trim, dropWhile_eq_self_iff.mpr fun hl => by simp [h.2 _ (getElem_mem hl)],
    rdropWhile_eq_self_iff.mpr fun hl => by simp [h.2 _ (getLast_mem hl)]]

lemma parse_eq (names : List String) :
    parseProcessEnvironmentValue output names = names.findSome? (matchVariable output) := by
  refine congrArg names.findSome? (funext fun name => ?_)
  cases h : matchVariable output name with
  | none => rfl
  | some value =>
    have hvalue := isWord_of_scanValue h
    simp [trim_of_isWord hvalue, hvalue.1]

/-! ## Which values are read -/

lemma variable_read_iff (hname : ∀ k ∈ codes name ++ [61], isSpaceUnit k = false) :
    matchVariable (environmentOutput entries listing) name = entryValue entries name ↔
      (∀ value, strayValue entries listing name = some value → entryValue entries name = some value) ∧
        (strayValue entries listing name = none → ∀ value, entryValue entries name = some value → IsWord value) := by
  cases entries with
  | nil =>
    simp only [environmentOutput, strayValue, entryValue, length_nil, if_true, find?_nil, map_none]
    cases matchVariable listing name <;> simp
  | cons first others =>
    have hread : matchVariable (environmentOutput (first :: others) listing) name =
        (strayValue (first :: others) listing name).or
          (((first :: others).dropWhile fun entry => !isEntryOf name entry).findSome? (matchVariable · name)) := by
      rw [environmentOutput, strayValue, if_neg (by simp), if_neg (by simp), matchVariable, scanValue_intercalate _ hname,
        ← findSome?_append, takeWhile_append_dropWhile]
      rfl
    rw [hread, entryValue, find?_eq_head?_dropWhile_not]
    cases strayValue (first :: others) listing name with
    | some stray =>
      rw [some_or]
      exact ⟨fun h => ⟨fun _ hstray => hstray ▸ h.symm, fun hstray => by cases hstray⟩, fun h => (h.1 stray rfl).symm⟩
    | none =>
      have hhead := head?_dropWhile_not (fun entry => !isEntryOf name entry) (first :: others)
      cases hrest : (first :: others).dropWhile fun entry => !isEntryOf name entry with
      | nil => simp
      | cons entry after =>
        obtain ⟨value, rfl⟩ := isPrefixOf_iff_prefix.mp (show isEntryOf name entry = true by simpa [hrest] using hhead)
        simp only [none_or, head?_cons, map_some, drop_left, some.injEq, forall_eq']
        constructor
        · intro h
          obtain ⟨entry, -, hmatch⟩ := exists_of_findSome?_eq_some h
          exact ⟨fun _ hstray => (by cases hstray), fun _ => isWord_of_scanValue hmatch⟩
        · intro h
          rw [findSome?_cons, matchVariable, scanValue_append_self (h.2 trivial)]

/-- Every variable of the Port Manager and the network id are read as they are in the environment, exactly
when this is so for each variable: nothing before its entry matches, or matches with the same value, and its
own value is a word. -/
theorem recovered_variables_exact_iff :
    ((∀ name ∈ recoveryVariables,
        parseProcessEnvironmentValue (environmentOutput entries listing) [name] = entryValue entries name) ∧
      parseRoutingNetworkIdFromProcessEnvironment (environmentOutput entries listing) =
        ROUTING_NETWORK_VARIABLES.findSome? (entryValue entries)) ↔
    ∀ name ∈ recoveryVariables,
      (∀ value, strayValue entries listing name = some value → entryValue entries name = some value) ∧
        (strayValue entries listing name = none → ∀ value, entryValue entries name = some value → IsWord value) := by
  have hwords : ∀ name ∈ recoveryVariables, ∀ k ∈ codes name ++ [61], isSpaceUnit k = false := by decide +kernel
  have heach : (∀ name ∈ recoveryVariables,
      parseProcessEnvironmentValue (environmentOutput entries listing) [name] = entryValue entries name) ↔ _ :=
    forall₂_congr fun name hname => by
      rw [parse_eq, findSome?_singleton, variable_read_iff entries listing name (hwords name hname)]
  rw [← heach, and_iff_left_iff_imp]
  intro hread
  rw [parseRoutingNetworkIdFromProcessEnvironment, parse_eq, ← head?_filterMap, ← head?_filterMap]
  refine congrArg List.head? (filterMap_congr fun name hname => ?_)
  rw [← hread name (mem_append_left _ hname), parse_eq, findSome?_singleton]

/-- A process without a network is taken to be in the one that the value of another variable mentions. -/
theorem value_mentions_network :
    entryValue [codes "NOTE=see PORT_MANAGER_NETWORK_ID=other"] "PORT_MANAGER_NETWORK_ID" = none ∧
      parseRoutingNetworkIdFromProcessEnvironment
        (environmentOutput [codes "NOTE=see PORT_MANAGER_NETWORK_ID=other"] []) = some (codes "other") := by
  decide +kernel

end PortManager.Node
