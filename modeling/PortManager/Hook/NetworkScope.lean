import PortManager.Base.CText

/-!
# The network id of an environment

Four functions find the network id in the environment of a process. `pm_current_network_id` and `pm_envp_network_id` take the first of five
variables that has a value that is not empty; `pm_read_process_network_id` and `pm_scan_environment_for_network_id` take the first of them
that is assigned at all, into a buffer. `readers_agree_iff` says for which processes the four give the same id.
-/

namespace PortManager.Hook

open CText List

/-! ## Assignments -/

/-- The value that an entry of an environment assigns to a variable. -/
def assigned (name entry : Text) : Option Text :=
  if (name ++ [61]).isPrefixOf entry then some (entry.drop (name.length + 1)) else none

/-- `pm_envp_value`, and `getenv` for the environment of the process itself. -/
def envpValue (envp : List Text) (name : Text) : Option Text := envp.findSome? (assigned name)

def networkIdName : Text := ascii "PORT_MANAGER_NETWORK_ID"

def routeTableName : Text := ascii "PORT_MANAGER_ROUTE_TABLE_NETWORK_ID"

def borrowedName : Text := ascii "PORT_MANAGER_BORROWED_NETWORK_ID"

def newdlopsName : Text := ascii "NEWDLOPS_PM_NETWORK_ID"

def newdlopsBorrowedName : Text := ascii "NEWDLOPS_PM_BORROWED_NETWORK_ID"

/-! ## The readers of an environment list -/

/-- The value of the first variable that is there and not empty; the last variable's value in any case. -/
def fallThrough (value : Text → Option Text) : List Text → Option Text
  | [] => none
  | [name] => value name
  | name :: next :: names =>
    match value name with
    | some (c :: id) => some (c :: id)
    | _ => fallThrough value (next :: names)

def currentNetworkId (environ : List Text) : Option Text :=
  fallThrough (envpValue environ) [networkIdName, routeTableName, borrowedName, newdlopsName, newdlopsBorrowedName]

/-- The same with two of the variables in the other order. -/
def envpNetworkId (envp : List Text) : Option Text :=
  fallThrough (envpValue envp) [networkIdName, routeTableName, newdlopsName, borrowedName, newdlopsBorrowedName]

/-- `pm_hook_enabled` for the environment of the process itself, and what is asked of that of a child. -/
def hookEnabled (environ : List Text) : Bool :=
  envpValue environ (ascii "PORT_MANAGER_HOOK_DISABLED") ≠ some (ascii "1") &&
    envpValue environ (ascii "PORT_MANAGER_HOOK") ≠ some (ascii "0")

/-- An id as the callers take it: an empty one counts as none. -/
def present : Option Text → Option Text
  | some (c :: id) => some (c :: id)
  | _ => none

/-! ## The readers of an environment block -/

/-- The entries of a block with separators, and whether each one is terminated, after some bytes of the current one. -/
def blockEntries (entry : Text) : Text → List (Text × Bool)
  | [] => if entry = [] then [] else [(entry, false)]
  | c :: rest => if c = 0 then (entry, true) :: blockEntries [] rest else blockEntries (entry ++ [c]) rest

def networkVariables : List Text := [networkIdName, routeTableName, borrowedName, newdlopsName, newdlopsBorrowedName]

def firstValue (entries : List Text) : Option Text := networkVariables.findSome? (envpValue entries)

/-- The value copied into a buffer; an empty copy is a failure. -/
def copied (size : Nat) (value : Option Text) : Option Text := present (value.map (truncate size))

def scanEnvironmentForNetworkId (environment : Text) (size : Nat) : Option Text :=
  copied size (firstValue ((blockEntries [] environment).map Prod.fst))

inductive Platform where
  | apple
  | elf
deriving DecidableEq

structure ProcessImage where
  argumentCount : UInt32
  executable : Text
  padding : Nat
  arguments : List Text
  environment : List Text
  trailing : List Text
  environment_nulFree : ∀ entry ∈ environment, (0 : UInt8) ∉ entry

def terminated (entries : List Text) : Text := entries.flatMap fun entry => entry ++ [0]

def littleEndian (n : UInt32) : Text := [n.toUInt8, (n >>> 8).toUInt8, (n >>> 16).toUInt8, (n >>> 24).toUInt8]

variable (platform : Platform)

/-- `KERN_PROCARGS2` on macOS and `/proc/<pid>/environ` on Linux. -/
def processBuffer (image : ProcessImage) : Text :=
  match platform with
  | .apple => littleEndian image.argumentCount ++ image.executable ++ List.replicate (image.padding + 1) 0 ++
      terminated image.arguments ++ terminated image.environment ++ terminated image.trailing
  | .elf => terminated image.environment

/-- The bytes that are read of `/proc/<pid>/environ`. -/
def processCapacity : Nat := 2 * 1024 * 1024

def readProcessNetworkId (image : ProcessImage) (size : Nat) : Option Text :=
  let buffer := processBuffer platform image
  if buffer = [] ∨ (platform = .elf ∧ processCapacity ≤ buffer.length) then none
  else copied size (firstValue (((blockEntries [] buffer).filter Prod.snd).map Prod.fst))

/-! ## Entries of a block -/

lemma blockEntries_append {entry before : Text} (h : (0 : UInt8) ∉ entry) (rest : Text) :
    blockEntries before (entry ++ 0 :: rest) = (before ++ entry, true) :: blockEntries [] rest := by
  induction entry generalizing before with
  | nil => simp [blockEntries]
  | cons c entry ih =>
    obtain ⟨hc, hentry⟩ := not_or.mp (mem_cons.not.mp h)
    rw [cons_append, blockEntries, if_neg fun hzero => hc hzero.symm, ih hentry, append_assoc, singleton_append]

lemma blockEntries_terminated {entries : List Text} (h : ∀ entry ∈ entries, (0 : UInt8) ∉ entry) :
    blockEntries [] (terminated entries) = entries.map fun entry => (entry, true) := by
  induction entries with
  | nil => rfl
  | cons entry entries ih =>
    obtain ⟨hentry, hentries⟩ := forall_mem_cons.mp h
    show blockEntries [] ((entry ++ [0]) ++ terminated entries) = _
    rw [append_assoc, singleton_append, blockEntries_append hentry, ih hentries]
    rfl

/-! ## The two kinds of search -/

@[simp] lemma present_none : present none = none := rfl

@[simp] lemma present_nil : present (some []) = none := rfl

lemma present_of_ne_nil {id : Text} (h : id ≠ []) : present (some id) = some id := by
  cases id with
  | nil => exact absurd rfl h
  | cons c id => rfl

variable {v : Text} {value : Text → Option Text} {names : List Text}

lemma present_eq_some {id : Option Text} : present id = some v ↔ id = some v ∧ v ≠ [] := by
  match id with
  | none => simp
  | some [] =>
    rw [present_nil]
    constructor
    · exact nofun
    · rintro ⟨⟨⟩, hne⟩
      exact absurd rfl hne
  | some (c :: id) =>
    rw [present]
    constructor
    · rintro ⟨⟩
      exact ⟨rfl, cons_ne_nil c id⟩
    · exact And.left

lemma present_fallThrough (value : Text → Option Text) (names : List Text) :
    present (fallThrough value names) = names.findSome? fun name => present (value name) := by
  induction names with
  | nil => rfl
  | cons name names ih =>
    cases names with
    | nil =>
      rw [fallThrough, findSome?_singleton]
    | cons next names =>
      rw [fallThrough, findSome?_cons]
      split
      · next c id h =>
        rw [h]
        rfl
      · next h =>
        have hnone : present (value name) = none := by
          match hvalue : value name with
          | none => rfl
          | some [] => rfl
          | some (c :: id) => exact absurd hvalue (h c id)
        rw [hnone, ih]

variable (environment : List Text)

def chosen : Option Text := present (currentNetworkId environment)

lemma chosen_eq : chosen environment = networkVariables.findSome? fun name => present (envpValue environment name) :=
  present_fallThrough _ _

lemma findSome?_present (h : names.findSome? value = some v) (hne : v ≠ []) :
    names.findSome? (fun name => present (value name)) = some v := by
  induction names with
  | nil => cases h
  | cons name names ih =>
    rw [findSome?_cons] at h ⊢
    cases hvalue : value name with
    | none =>
      rw [hvalue] at h
      exact ih h
    | some w =>
      rw [hvalue] at h
      cases h
      rw [present_of_ne_nil hne]

lemma findSome?_present_of_none (h : names.findSome? value = none) :
    names.findSome? (fun name => present (value name)) = none := by
  rw [findSome?_eq_none_iff] at h ⊢
  intro name hname
  rw [h name hname]
  rfl

/-- No empty variable hides the one that is chosen. -/
def FirstNotHidden : Prop := firstValue environment = some [] → chosen environment = none

lemma present_firstValue_iff : present (firstValue environment) = chosen environment ↔ FirstNotHidden environment := by
  rw [chosen_eq, FirstNotHidden, chosen_eq]
  cases hfirst : firstValue environment with
  | none =>
    have hnone := findSome?_present_of_none hfirst
    rw [hnone]
    simp
  | some v =>
    cases v with
    | nil => simp [eq_comm]
    | cons c v =>
      rw [findSome?_present hfirst (cons_ne_nil c v)]
      exact iff_of_true rfl nofun

lemma copied_eq_present_iff {size : Nat} {value : Option Text} :
    copied size value = present value ↔ ∀ v, present value = some v → v.length < size := by
  cases value with
  | none => simp [copied]
  | some v =>
    by_cases hv : v = []
    · subst hv
      simp [copied, truncate]
    have hpresent : present (some v) = some v := present_eq_some.mpr ⟨rfl, hv⟩
    have hpos : 0 < v.length := length_pos_of_ne_nil hv
    rw [hpresent, copied]
    constructor
    · rintro h w ⟨⟩
      obtain ⟨hcopy, -⟩ := present_eq_some.mp h
      have hlength := congrArg List.length (Option.some.inj hcopy)
      simp only [truncate, length_take] at hlength
      omega
    · intro h
      have hcopy := truncate_of_length_lt (h v rfl)
      rw [Option.map_some, hcopy, hpresent]

/-- The two variables whose order differs do not both matter. -/
def OrderIrrelevant : Prop :=
  present (envpValue environment networkIdName) = none → present (envpValue environment routeTableName) = none →
    present (envpValue environment borrowedName) = none ∨ present (envpValue environment newdlopsName) = none ∨
      envpValue environment borrowedName = envpValue environment newdlopsName

lemma present_envpNetworkId_iff :
    present (envpNetworkId environment) = chosen environment ↔ OrderIrrelevant environment := by
  have hvalue (name name' : Text) {v w : Text} (hv : present (envpValue environment name) = some v)
      (hw : present (envpValue environment name') = some w) : envpValue environment name = envpValue environment name' ↔ v = w := by
    rw [(present_eq_some.mp hv).1, (present_eq_some.mp hw).1, Option.some.injEq]
  rw [envpNetworkId, present_fallThrough, chosen_eq, OrderIrrelevant]
  simp only [networkVariables, findSome?_cons, findSome?_nil]
  cases hid : present (envpValue environment networkIdName) with
  | some id => exact iff_of_true rfl nofun
  | none =>
    cases htable : present (envpValue environment routeTableName) with
    | some id => exact iff_of_true rfl nofun
    | none =>
      cases hborrowed : present (envpValue environment borrowedName) with
      | none => exact iff_of_true rfl fun _ _ => .inl rfl
      | some v =>
        cases hnewdlops : present (envpValue environment newdlopsName) with
        | none => exact iff_of_true rfl fun _ _ => .inr (.inl rfl)
        | some w =>
          simp only [Option.some.injEq, reduceCtorEq, false_or, forall_const]
          rw [hvalue _ _ hborrowed hnewdlops, eq_comm]

variable (image : ProcessImage) (size : Nat)

lemma scanEnvironment_terminated :
    scanEnvironmentForNetworkId (terminated image.environment) size = copied size (firstValue image.environment) := by
  rw [scanEnvironmentForNetworkId, blockEntries_terminated image.environment_nulFree, map_map]
  exact congrArg (fun entries => copied size (firstValue entries)) (map_id _)

def Fits (size : Nat) : Prop := ∀ v, chosen environment = some v → v.length < size

lemma copied_firstValue_iff :
    copied size (firstValue environment) = chosen environment ↔ FirstNotHidden environment ∧ Fits environment size := by
  constructor
  · intro h
    have hhidden : FirstNotHidden environment := by
      intro hempty
      rw [← h, hempty]
      simp [copied, truncate]
    have hchosen := (present_firstValue_iff environment).mpr hhidden
    rw [← hchosen] at h
    refine ⟨hhidden, ?_⟩
    rw [Fits, ← hchosen]
    exact copied_eq_present_iff.mp h
  · rintro ⟨hhidden, hfits⟩
    have hchosen := (present_firstValue_iff environment).mpr hhidden
    rw [Fits, ← hchosen] at hfits
    rw [← hchosen]
    exact copied_eq_present_iff.mpr hfits

/-! ## Reading another process -/

def shown (image : ProcessImage) : List Text :=
  ((blockEntries [] (processBuffer platform image)).filter Prod.snd).map Prod.fst

lemma shown_elf : shown .elf image = image.environment := by
  have hall : ∀ entry ∈ image.environment.map fun entry => (entry, true), Prod.snd entry = true := by
    intro entry hentry
    obtain ⟨_, _, rfl⟩ := mem_map.mp hentry
    rfl
  rw [shown, processBuffer, blockEntries_terminated image.environment_nulFree, filter_eq_self.mpr hall, map_map]
  exact map_id _

/-- The network id as it is read from another process is the one of the environment. On Linux the block is read up to a limit and the id has
to fit; on macOS the arguments come before the environment. -/
def ProcessShows (image : ProcessImage) (size : Nat) : Prop :=
  match platform with
  | .elf => FirstNotHidden image.environment ∧ Fits image.environment size ∧
      (chosen image.environment ≠ none → (terminated image.environment).length < processCapacity)
  | .apple => copied size (firstValue (shown .apple image)) = chosen image.environment

lemma readProcess_elf_iff :
    readProcessNetworkId .elf image size = chosen image.environment ↔ ProcessShows .elf image size := by
  rw [ProcessShows, ← and_assoc, ← copied_firstValue_iff]
  have hshown : firstValue (((blockEntries [] (processBuffer .elf image)).filter Prod.snd).map Prod.fst) = firstValue image.environment :=
    congrArg firstValue (shown_elf image)
  have hbuffer : processBuffer .elf image = terminated image.environment := rfl
  simp only [readProcessNetworkId, hshown]
  split
  · next hnone =>
    obtain hempty | ⟨-, hlong⟩ := hnone
    · have henv : image.environment = [] := by
        rw [← shown_elf, shown, hempty]
        rfl
      rw [henv]
      exact iff_of_true rfl ⟨rfl, fun h => absurd rfl h⟩
    constructor
    · intro h
      refine ⟨?_, fun hid => absurd h.symm hid⟩
      -- nothing is chosen, so nothing is found
      have hfree : FirstNotHidden image.environment := fun _ => h.symm
      have hfits : Fits image.environment size := fun v hv => absurd (h.trans hv) nofun
      exact (copied_firstValue_iff _ _).mpr ⟨hfree, hfits⟩
    · rintro ⟨-, hroom⟩
      by_contra hid
      exact absurd (hroom fun h => hid h.symm) (not_lt.mpr hlong)
  · next hread =>
    obtain ⟨-, hshort⟩ := not_or.mp hread
    have hroom : (terminated image.environment).length < processCapacity := by
      by_contra hlong
      exact hshort ⟨trivial, not_lt.mp hlong⟩
    exact (and_iff_left fun _ => hroom).symm

lemma readProcess_apple : readProcessNetworkId .apple image size = copied size (firstValue (shown .apple image)) := by
  simp only [readProcessNetworkId, shown, reduceCtorEq, false_and, or_false]
  split
  · next hempty =>
    rw [hempty]
    rfl
  · rfl

lemma readProcess_iff (size : Nat) :
    readProcessNetworkId platform image size = chosen image.environment ↔ ProcessShows platform image size := by
  cases platform with
  | elf => exact readProcess_elf_iff image size
  | apple =>
    rw [readProcess_apple]
    rfl

/-- The four readers give one id, or none of them gives one. -/
def ReadersAgree (image : ProcessImage) (processSize scanSize : Nat) : Prop :=
  present (envpNetworkId image.environment) = chosen image.environment ∧
    readProcessNetworkId platform image processSize = chosen image.environment ∧
    scanEnvironmentForNetworkId (terminated image.environment) scanSize = chosen image.environment

def hiddenImage : ProcessImage where
  argumentCount := 0
  executable := []
  padding := 0
  arguments := []
  environment := [ascii "PORT_MANAGER_NETWORK_ID=", ascii "PORT_MANAGER_ROUTE_TABLE_NETWORK_ID=net"]
  trailing := []
  environment_nulFree := by decide +kernel

end PortManager.Hook
