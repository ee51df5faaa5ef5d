import PortManager.Base.CText

/-!
# The arguments of a Compose command

Embeds the functions of `portmanager_docker_shim.c` that read and rewrite the arguments of `docker compose`:
`pm_compose_subcommand_index`, `pm_compose_should_detach_up`, `pm_argv_references_compose_file`, `pm_rewrite_compose_args` and
`pm_compose_requested_project_name`. The arguments are those after `argv[0]`; `start` is how many of them come before the place
where the subcommand is looked for. Allocation succeeds. The names of directories and files are functions of the caller.

Both the rewriting and the search for the project name go on after the subcommand, through the arguments of a command that runs
inside a container.
-/

namespace PortManager.DockerShim

open CText List

/-! ## Options -/

/-- What follows the name of an option in the same argument. -/
def attachedValue (option : String) (arg : Text) : Option Text :=
  if (ascii option).isPrefixOf arg then some (arg.drop (ascii option).length) else none

/-- The same when something follows. -/
def attachedNonempty (option : String) (arg : Text) : Option Text := (attachedValue option arg).filter (· ≠ [])

def composeOptionTakesValue (arg : Text) : Bool :=
  isOneOf arg ["-f", "--file", "-p", "--project-name", "--profile", "--env-file", "--project-directory", "--parallel",
    "--progress", "--ansi"]

/-- The walk of `pm_compose_subcommand_index`. Arguments with an attached value and flags start with a dash, like every
argument it passes over. -/
def subcommandOffset : Bool → List Text → Nat
  | _, [] => 0
  | true, _ :: rest => subcommandOffset false rest + 1
  | false, arg :: rest =>
    if composeOptionTakesValue arg then subcommandOffset true rest + 1
    else if arg.head? = some 45 then subcommandOffset false rest + 1
    else 0

def composeSubcommandIndex (args : List Text) (start : Nat) : Nat :=
  (args.take start).length + subcommandOffset false (args.drop start)

def composeUpOptionKeepsForeground (arg : Text) : Bool :=
  isOneOf arg ["-d", "--detach", "--wait", "--abort-on-container-exit", "--abort-on-container-failure", "--exit-code-from",
    "--attach", "--attach-dependencies", "--menu"] ||
  ["--detach=", "--wait=", "--abort-on-container-exit=", "--abort-on-container-failure=", "--exit-code-from=", "--attach=",
    "--attach-dependencies=", "--menu="].any fun option => (attachedValue option arg).isSome

def composeShouldDetachUp (args : List Text) (start : Nat) : Bool :=
  match args.drop (composeSubcommandIndex args start) with
  | [] => false
  | subcommand :: rest => subcommand = ascii "up" && !rest.any composeUpOptionKeepsForeground

/-- `pm_argv_references_compose_file`, from some argument on. -/
def argvReferencesComposeFile (samePath : Text → Text → Bool) (expectedFile : Text) : Bool → List Text → Bool
  | _, [] => false
  | true, arg :: rest => samePath expectedFile arg || argvReferencesComposeFile samePath expectedFile false rest
  | false, arg :: rest =>
    if isOneOf arg ["-f", "--file"] then argvReferencesComposeFile samePath expectedFile true rest
    else (attachedValue "--file=" arg).any (samePath expectedFile) || (attachedNonempty "-f" arg).any (samePath expectedFile) ||
      argvReferencesComposeFile samePath expectedFile false rest

/-! ## Rewriting -/

/-- What the loop of `pm_rewrite_compose_args` knows. -/
structure Rewrite where
  attachedProject : Text
  /-- the override file, if it is inserted -/
  override : Option Text
  subcommandIndex : Nat

def isCopied (rewriteNext : Bool) (arg : Text) : Bool :=
  !rewriteNext && !isOneOf arg ["-p", "--project-name"] && (attachedValue "--project-name=" arg).isNone &&
    (attachedNonempty "-p" arg).isNone

namespace Rewrite

variable (rewrite : Rewrite)

def overrideArgs : List Text :=
  match rewrite.override with
  | none => []
  | some file => [ascii "-f", file]

/-- The argument at a place, and whether the next one is a project name. -/
def rewriteArg (rewriteNext : Bool) (arg : Text) : Text × Bool :=
  if rewriteNext then (rewrite.attachedProject, false)
  else if isOneOf arg ["-p", "--project-name"] then (arg, true)
  else if (attachedValue "--project-name=" arg).isSome then (ascii "--project-name=" ++ rewrite.attachedProject, false)
  else if (attachedNonempty "-p" arg).isSome then (ascii "-p" ++ rewrite.attachedProject, false)
  else (arg, false)

def loop (index : Nat) (rewriteNext detachUp : Bool) : List Text → List Text
  | [] =>
    (if index = rewrite.subcommandIndex then rewrite.overrideArgs else []) ++ if detachUp then [ascii "--detach"] else []
  | arg :: rest =>
    let detaches := detachUp && isCopied rewriteNext arg && index = rewrite.subcommandIndex
    (if index = rewrite.subcommandIndex then rewrite.overrideArgs else []) ++ (rewrite.rewriteArg rewriteNext arg).1 ::
      ((if detaches then [ascii "--detach"] else []) ++
        loop (index + 1) (rewrite.rewriteArg rewriteNext arg).2 (detachUp && !detaches) rest)

end Rewrite

variable (samePath : Text → Text → Bool)

def composeRewrite (args : List Text) (attachedProject overrideFile : Text) (start : Nat) : Rewrite where
  attachedProject := attachedProject
  override :=
    if overrideFile ≠ [] ∧ argvReferencesComposeFile samePath overrideFile false args = false then some overrideFile
    else none
  subcommandIndex := composeSubcommandIndex args start

/-- `pm_rewrite_compose_args`, without the path of the runtime. -/
def rewriteComposeArgs (args : List Text) (attachedProject overrideFile : Text) (start : Nat) : List Text :=
  (composeRewrite samePath args attachedProject overrideFile start).loop 0 false (composeShouldDetachUp args start) args

/-! ## The project name -/

def PM_MAX_FIELD : Nat := 4096

/-- The variables of `pm_compose_requested_project_name`. -/
structure NameScan where
  nextIsProject : Bool
  nextIsFile : Bool
  nextIsProjectDirectory : Bool
  firstFile : Text
  projectDirectory : Text

variable (scan : NameScan)

/-- One argument; a project option ends the scan with its value. -/
def NameScan.scanArg (arg : Text) : Except Text NameScan :=
  if scan.nextIsProject then .error arg
  else if scan.nextIsFile then
    .ok { scan with nextIsFile := false, firstFile := if scan.firstFile = [] then truncate PM_MAX_FIELD arg else scan.firstFile }
  else if scan.nextIsProjectDirectory then
    .ok { scan with nextIsProjectDirectory := false, projectDirectory := truncate PM_MAX_FIELD arg }
  else if isOneOf arg ["-p", "--project-name"] then .ok { scan with nextIsProject := true }
  else
    match attachedValue "--project-name=" arg, attachedNonempty "-p" arg with
    | some value, _ => .error value
    | none, some value => .error value
    | none, none =>
      if isOneOf arg ["-f", "--file"] then .ok { scan with nextIsFile := true }
      else
        match (attachedValue "--file=" arg).or (attachedNonempty "-f" arg) with
        | some value => .ok { scan with firstFile := if scan.firstFile = [] then truncate PM_MAX_FIELD value else scan.firstFile }
        | none =>
          if arg = ascii "--project-directory" then .ok { scan with nextIsProjectDirectory := true }
          else
            match attachedValue "--project-directory=" arg with
            | some value => .ok { scan with projectDirectory := truncate PM_MAX_FIELD value }
            | none => .ok scan

def NameScan.initial : NameScan := ⟨false, false, false, [], []⟩

/-- The environment and the names of directories and files. -/
structure NameSources where
  composeProjectName : Option Text
  fromDirectory : Text → Option Text
  fromFile : Text → Option Text

/-- A text that is not empty, as it fits the buffer. -/
def copiedName (name : Text) : Option Text := if name = [] then none else some (truncate PM_MAX_FIELD name)

/-- `pm_compose_requested_project_name`. -/
def composeRequestedProjectName (sources : NameSources) (args : List Text) : Option Text :=
  match args.foldlM NameScan.scanArg NameScan.initial with
  | .error value => copiedName value
  | .ok scan =>
    (sources.composeProjectName.bind copiedName).or <|
      (if scan.projectDirectory = [] then none else sources.fromDirectory scan.projectDirectory).or <|
        (if scan.firstFile = [] then none else sources.fromFile scan.firstFile).or (sources.fromDirectory (ascii "."))

/-! ## The place of the subcommand -/

section Offset

variable {arg : Text} {skip : Bool} {args : List Text} {start : Nat}

def IsWord (arg : Text) : Prop := arg.head? ≠ some 45

instance decidableIsWord (arg : Text) : Decidable (IsWord arg) := inferInstanceAs (Decidable (arg.head? ≠ some 45))

lemma IsWord.takes_no_value (h : IsWord arg) : composeOptionTakesValue arg = false := by
  rw [Bool.eq_false_iff]
  intro htakes
  simp only [composeOptionTakesValue, isOneOf, any_cons, any_nil, Bool.or_false, Bool.or_eq_true,
    decide_eq_true_eq] at htakes
  rcases htakes with rfl | rfl | rfl | rfl | rfl | rfl | rfl | rfl | rfl | rfl
  all_goals exact absurd (by decide) h

lemma subcommandOffset_spec (h : subcommandOffset skip args < args.length) :
    ∃ before subcommand after, args = before ++ subcommand :: after ∧ before.length = subcommandOffset skip args ∧
      IsWord subcommand ∧
      ∀ word rest, IsWord word → subcommandOffset skip (before ++ word :: rest) = before.length := by
  induction args generalizing skip with
  | nil => exact absurd h (Nat.not_lt_zero _)
  | cons arg args ih =>
    -- one more argument is passed over
    have hpass : ∀ next, subcommandOffset skip (arg :: args) = subcommandOffset next args + 1 →
        (∀ list, subcommandOffset skip (arg :: list) = subcommandOffset next list + 1) →
        ∃ before subcommand after, arg :: args = before ++ subcommand :: after ∧
          before.length = subcommandOffset skip (arg :: args) ∧ IsWord subcommand ∧
          ∀ word rest, IsWord word → subcommandOffset skip (before ++ word :: rest) = before.length := by
      intro next heq hall
      rw [heq, length_cons, add_lt_add_iff_right] at h
      obtain ⟨before, subcommand, after, hargs, hlength, hword, hspec⟩ := ih h
      refine ⟨arg :: before, subcommand, after, by rw [hargs, cons_append], ?_, hword, fun word rest hother => ?_⟩
      · rw [heq, length_cons, hlength]
      · rw [cons_append, hall, hspec word rest hother, length_cons]
    cases skip with
    | true => exact hpass false rfl fun _ => rfl
    | false =>
      by_cases hvalue : composeOptionTakesValue arg = true
      · exact hpass true (by simp [subcommandOffset, hvalue]) fun _ => by simp [subcommandOffset, hvalue]
      by_cases hdash : arg.head? = some 45
      · exact hpass false (by simp [subcommandOffset, hvalue, hdash]) fun _ => by simp [subcommandOffset, hvalue, hdash]
      refine ⟨[], arg, args, rfl, by simp [subcommandOffset, hvalue, hdash], hdash, fun word rest hother => ?_⟩
      have hnone := hother.takes_no_value
      simp [subcommandOffset, hnone, show word.head? ≠ some 45 from hother]

lemma subcommandOffset_le : subcommandOffset skip args ≤ args.length := by
  induction args generalizing skip with
  | nil => exact le_refl 0
  | cons arg args ih =>
    cases skip with
    | true => exact Nat.succ_le_succ ih
    | false =>
      unfold subcommandOffset
      split
      · exact Nat.succ_le_succ ih
      split
      · exact Nat.succ_le_succ ih
      · exact Nat.zero_le _

lemma composeSubcommandIndex_spec (h : composeSubcommandIndex args start < args.length) :
    ∃ before subcommand after, args = before ++ subcommand :: after ∧
      before.length = composeSubcommandIndex args start ∧ IsWord subcommand ∧
      ∀ word rest, IsWord word → composeSubcommandIndex (before ++ word :: rest) start = before.length := by
  have hsplit : (args.take start).length + (args.drop start).length = args.length := by
    rw [← length_append, take_append_drop]
  have hoffset : subcommandOffset false (args.drop start) < (args.drop start).length := by
    unfold composeSubcommandIndex at h
    omega
  obtain ⟨before, subcommand, after, hargs, hlength, hword, hspec⟩ := subcommandOffset_spec hoffset
  have hstart : (args.take start).length = start := by
    rw [length_take]
    rw [length_drop] at hoffset
    omega
  refine ⟨args.take start ++ before, subcommand, after, ?_, ?_, hword, fun word rest hother => ?_⟩
  · rw [append_assoc, ← hargs, take_append_drop]
  · rw [length_append, hlength]
    rfl
  unfold composeSubcommandIndex
  rw [append_assoc, take_append_of_le_length hstart.ge, drop_append_of_le_length hstart.ge,
    take_take, min_self, drop_eq_nil_of_le hstart.le, nil_append, hspec word rest hother,
    length_append]

end Offset

/-! ## What is rewritten -/

lemma attachedValue_eq_some {option : String} {arg value : Text} :
    attachedValue option arg = some value ↔ arg = ascii option ++ value := by
  unfold attachedValue
  split
  next h =>
    obtain ⟨rest, rfl⟩ := isPrefixOf_iff_prefix.mp h
    rw [drop_left, Option.some_inj, append_cancel_left_eq]
  next h =>
    refine iff_of_false (Option.some_ne_none value).symm fun e => h ?_
    rw [e]
    exact isPrefixOf_iff_prefix.mpr (prefix_append _ _)

def ownProject (arg : Text) : Option Text := (attachedValue "--project-name=" arg).or (attachedNonempty "-p" arg)

def projectValues : Bool → List Text → List Text
  | _, [] => []
  | true, arg :: rest => arg :: projectValues false rest
  | false, arg :: rest =>
    if isOneOf arg ["-p", "--project-name"] then projectValues true rest
    else (ownProject arg).toList ++ projectValues false rest

/-- One `--detach` is put in, or nothing is. -/
def InsertsOnlyDetach (args rest : List Text) : Prop :=
  rest = args ∨ ∃ before after, args = before ++ after ∧ rest = before ++ ascii "--detach" :: after

namespace Rewrite

variable {rewrite : Rewrite} {arg : Text} {args : List Text} {rewriteNext detachUp : Bool} {index : Nat}

variable (rewrite) in
def rewriteValues : Bool → List Text → List Text
  | _, [] => []
  | rewriteNext, arg :: rest =>
    (rewrite.rewriteArg rewriteNext arg).1 :: rewriteValues (rewrite.rewriteArg rewriteNext arg).2 rest

lemma rewriteArg_eq_iff (rewrite : Rewrite) (hoption : isOneOf arg ["-p", "--project-name"] = false) :
    (rewrite.rewriteArg false arg).2 = false ∧
      ((rewrite.rewriteArg false arg).1 = arg ↔ ∀ value ∈ ownProject arg, value = rewrite.attachedProject) := by
  cases hname : attachedValue "--project-name=" arg with
  | some value =>
    have harg := attachedValue_eq_some.mp hname
    simp only [rewriteArg, hoption, hname, ownProject, Bool.false_eq_true, if_false, Option.isSome_some, if_true,
      Option.some_or, Option.mem_some_iff, forall_eq', true_and]
    rw [harg, append_cancel_left_eq, eq_comm]
  | none =>
    cases hshort : attachedNonempty "-p" arg with
    | some value =>
      have harg := attachedValue_eq_some.mp (Option.filter_eq_some_iff.mp hshort).1
      simp only [rewriteArg, hoption, hname, hshort, ownProject, Bool.false_eq_true, if_false, Option.isSome_none,
        Option.isSome_some, if_true, Option.none_or, Option.mem_some_iff, forall_eq', true_and]
      rw [harg, append_cancel_left_eq, eq_comm]
    | none => simp [rewriteArg, hoption, hname, hshort, ownProject]

lemma rewriteValues_eq_iff :
    rewrite.rewriteValues rewriteNext args = args ↔
      ∀ value ∈ projectValues rewriteNext args, value = rewrite.attachedProject := by
  induction args generalizing rewriteNext with
  | nil => simp [rewriteValues, projectValues]
  | cons arg args ih =>
    unfold rewriteValues
    rw [List.cons.injEq, ih]
    cases rewriteNext with
    | true =>
      simp only [rewriteArg, if_true, projectValues, forall_mem_cons]
      rw [eq_comm]
    | false =>
      cases hoption : isOneOf arg ["-p", "--project-name"] with
      | true => simp [rewriteArg, hoption, projectValues]
      | false =>
        obtain ⟨hnext, hsame⟩ := rewrite.rewriteArg_eq_iff hoption
        rw [hnext, hsame]
        simp [projectValues, hoption, or_imp, forall_and]

lemma loop_past (h : rewrite.subcommandIndex < index) :
    rewrite.loop index rewriteNext detachUp args =
      rewrite.rewriteValues rewriteNext args ++ if detachUp then [ascii "--detach"] else [] := by
  induction args generalizing index rewriteNext with
  | nil => simp [loop, rewriteValues, h.ne']
  | cons arg args ih =>
    simp only [loop, h.ne', decide_false, Bool.and_false, if_false, Bool.not_false, Bool.and_true, Bool.false_eq_true,
      nil_append, rewriteValues, cons_append]
    rw [ih (Nat.lt_succ_of_lt h)]

lemma isCopied_of_isWord (h : IsWord arg) : isCopied false arg = true := by
  have hdash : ∀ option value, (ascii option).head? = some 45 → arg ≠ ascii option ++ value := by
    rintro option value hoption rfl
    refine h ?_
    rw [head?_append, hoption, Option.some_or]
  have hplain : ∀ option, (ascii option).head? = some 45 → arg ≠ ascii option := by
    intro option hoption harg
    exact hdash option [] hoption (by rw [harg, append_nil])
  have hvalue : ∀ option, (ascii option).head? = some 45 → attachedValue option arg = none := by
    intro option hoption
    rw [Option.eq_none_iff_forall_ne_some]
    exact fun value harg => hdash option value hoption (attachedValue_eq_some.mp harg)
  simp [isCopied, isOneOf, attachedNonempty, hvalue "--project-name=" (by decide), hvalue "-p" (by decide),
    hplain "-p" (by decide), hplain "--project-name" (by decide)]

lemma rewriteArg_of_isCopied (h : isCopied false arg = true) : rewrite.rewriteArg false arg = (arg, false) := by
  simp only [isCopied, Bool.not_false, Bool.true_and, Bool.and_eq_true, Bool.not_eq_true', Option.isNone_iff_eq_none] at h
  obtain ⟨⟨hoption, hname⟩, hshort⟩ := h
  simp [rewriteArg, hoption, hname, hshort]

lemma loop_subcommand {before : List Text} {subcommand : Text} (hword : IsWord subcommand)
    (h : index + before.length = rewrite.subcommandIndex) (rewriteNext detachUp : Bool) (after : List Text) :
    ∃ front, front.length = before.length + rewrite.overrideArgs.length + 1 ∧
      (rewrite.loop index rewriteNext detachUp (before ++ subcommand :: after) =
          front ++ ((if detachUp then [ascii "--detach"] else []) ++ rewrite.rewriteValues false after) ∨
        rewrite.loop index rewriteNext detachUp (before ++ subcommand :: after) =
          front ++ (rewrite.rewriteValues false after ++ if detachUp then [ascii "--detach"] else [])) := by
  induction before generalizing index rewriteNext with
  | nil =>
    have hindex : index = rewrite.subcommandIndex := h
    have hpast : rewrite.subcommandIndex < index + 1 := by omega
    cases rewriteNext with
    | true =>
      -- the subcommand itself is taken for a project name
      refine ⟨rewrite.overrideArgs ++ [rewrite.attachedProject], by simp, .inr ?_⟩
      simp [loop, hindex, rewriteArg, isCopied, loop_past (hindex ▸ hpast)]
    | false =>
      refine ⟨rewrite.overrideArgs ++ [subcommand], by simp, .inl ?_⟩
      have hcopied := isCopied_of_isWord hword
      simp [loop, hindex, hcopied, rewriteArg_of_isCopied hcopied, loop_past (hindex ▸ hpast)]
  | cons arg before ih =>
    rw [length_cons] at h
    have hne : index ≠ rewrite.subcommandIndex := by omega
    have hnext : index + 1 + before.length = rewrite.subcommandIndex := by omega
    obtain ⟨front, hlength, hloop⟩ := ih hnext (rewrite.rewriteArg rewriteNext arg).2
    refine ⟨(rewrite.rewriteArg rewriteNext arg).1 :: front, ?_, ?_⟩
    · rw [length_cons, length_cons, hlength]
      omega
    simp only [cons_append, loop, hne, decide_false, Bool.and_false, if_false, Bool.not_false, Bool.and_true,
      Bool.false_eq_true, nil_append, List.cons.injEq, true_and]
    exact hloop

lemma length_loop (h : index + args.length = rewrite.subcommandIndex) :
    (rewrite.loop index rewriteNext false args).length = args.length + rewrite.overrideArgs.length := by
  induction args generalizing index rewriteNext with
  | nil =>
    have hindex : index = rewrite.subcommandIndex := h
    simp [loop, hindex]
  | cons arg args ih =>
    rw [length_cons] at h
    have hne : index ≠ rewrite.subcommandIndex := by omega
    have hnext : index + 1 + args.length = rewrite.subcommandIndex := by omega
    simp only [loop, hne, decide_false, Bool.and_false, if_false, Bool.not_false, Bool.and_true,
      Bool.false_eq_true, nil_append, length_cons, ih hnext]
    omega

lemma length_rewriteValues : (rewrite.rewriteValues rewriteNext args).length = args.length := by
  induction args generalizing rewriteNext with
  | nil => rfl
  | cons arg args ih => rw [rewriteValues, length_cons, length_cons, ih]

lemma insertsOnlyDetach_iff {after rest : List Text} (hnew : detachUp = true → ascii "--detach" ∉ after)
    (hrest : rest = (if detachUp then [ascii "--detach"] else []) ++ rewrite.rewriteValues false after ∨
      rest = rewrite.rewriteValues false after ++ if detachUp then [ascii "--detach"] else []) :
    InsertsOnlyDetach after rest ↔ rewrite.rewriteValues false after = after := by
  have hlength : (rewrite.rewriteValues false after).length = after.length := length_rewriteValues
  cases detachUp with
  | false =>
    have hsame : rest = rewrite.rewriteValues false after := by simpa using hrest
    rw [← hsame] at hlength ⊢
    refine ⟨?_, .inl⟩
    rintro (heq | ⟨front, back, rfl, rfl⟩)
    · exact heq
    · simp at hlength
  | true =>
    have habsent := hnew rfl
    simp only [if_true, singleton_append] at hrest
    constructor
    · rintro (rfl | ⟨front, back, rfl, heq⟩)
      · rcases hrest with h | h
        · exact absurd (h ▸ mem_cons_self) habsent
        · exact absurd (h ▸ mem_append_right _ (mem_singleton_self _)) habsent
      rcases hrest with h | h
      · rw [h] at heq
        cases front with
        | nil => exact (List.cons.inj heq).2
        | cons first front => exact absurd ((List.cons.inj heq).1 ▸ mem_cons_self) habsent
      rw [h] at heq
      rcases eq_nil_or_concat back with rfl | ⟨back, last, rfl⟩
      · rw [append_nil] at heq ⊢
        exact (append_inj' heq rfl).1
      have hlast := heq.trans (show _ = (front ++ ascii "--detach" :: back) ++ [last] from by simp)
      rw [singleton_inj.mp (append_inj' hlast rfl).2] at habsent
      exact absurd (by simp) habsent
    · intro heq
      rw [heq] at hrest
      rcases hrest with rfl | rfl
      · exact .inr ⟨[], after, rfl, rfl⟩
      · exact .inr ⟨after, [], (append_nil after).symm, rfl⟩

end Rewrite

lemma not_mem_of_shouldDetachUp {args before after : List Text} {subcommand : Text} {start : Nat}
    (hargs : args = before ++ subcommand :: after) (hindex : before.length = composeSubcommandIndex args start)
    (h : composeShouldDetachUp args start = true) : ascii "--detach" ∉ after := by
  have hdrop : args.drop (composeSubcommandIndex args start) = subcommand :: after := by
    rw [← hindex, hargs, drop_left]
  simp only [composeShouldDetachUp, hdrop, Bool.and_eq_true, Bool.not_eq_true', any_eq_false] at h
  intro hmem
  exact h.2 _ hmem (by decide +kernel)

/-- What comes after the subcommand is kept, apart from a `--detach`, exactly when its project options name the attached
project. -/
lemma rewriteComposeArgs_iff (args : List Text) (attachedProject overrideFile : Text) (start : Nat) :
    InsertsOnlyDetach (args.drop (composeSubcommandIndex args start + 1))
        ((rewriteComposeArgs samePath args attachedProject overrideFile start).drop
          (composeSubcommandIndex args start +
            (composeRewrite samePath args attachedProject overrideFile start).overrideArgs.length + 1)) ↔
      ∀ value ∈ projectValues false (args.drop (composeSubcommandIndex args start + 1)), value = attachedProject := by
  generalize hrewrite : composeRewrite samePath args attachedProject overrideFile start = rewrite
  have hattached : rewrite.attachedProject = attachedProject := by rw [← hrewrite, composeRewrite]
  have hsubcommand : rewrite.subcommandIndex = composeSubcommandIndex args start := by rw [← hrewrite, composeRewrite]
  rw [rewriteComposeArgs, hrewrite]
  by_cases hlt : composeSubcommandIndex args start < args.length
  · obtain ⟨before, subcommand, after, hargs, hindex, hword, -⟩ := composeSubcommandIndex_spec hlt
    have hafter : args.drop (composeSubcommandIndex args start + 1) = after := by
      rw [← hindex, hargs, ← drop_drop, drop_left]
      rfl
    have hplace : 0 + before.length = rewrite.subcommandIndex := by rw [zero_add, hsubcommand, hindex]
    obtain ⟨front, hlength, hloop⟩ :=
      Rewrite.loop_subcommand hword hplace false (composeShouldDetachUp args start) after
    rw [← hargs] at hloop
    rw [hafter, ← hindex, ← hlength, ← hattached, ← Rewrite.rewriteValues_eq_iff]
    refine Rewrite.insertsOnlyDetach_iff (not_mem_of_shouldDetachUp hargs hindex) ?_
    refine hloop.imp (fun h => ?_) (fun h => ?_)
    · rw [h, drop_left]
    · rw [h, drop_left]
  · -- no subcommand: nothing comes after it
    have hend : composeSubcommandIndex args start = args.length := by
      have hle : subcommandOffset false (args.drop start) ≤ (args.drop start).length := subcommandOffset_le
      have hsplit : (args.take start).length + (args.drop start).length = args.length := by
        rw [← length_append, take_append_drop]
      unfold composeSubcommandIndex at hlt ⊢
      omega
    have hdetach : composeShouldDetachUp args start = false := by
      rw [composeShouldDetachUp, hend, drop_length]
    have hplace : 0 + args.length = rewrite.subcommandIndex := by rw [zero_add, hsubcommand, hend]
    rw [hdetach, hend, drop_eq_nil_of_le (Nat.le_succ _), drop_eq_nil_of_le]
    · simp [InsertsOnlyDetach, projectValues]
    · rw [Rewrite.length_loop hplace]
      exact Nat.le_succ _

/-! ## The name depends on what follows -/

/-- A project option before the end of the arguments has ended the scan. -/
def NamesProject (args : List Text) : Prop := ∃ value, args.foldlM NameScan.scanArg NameScan.initial = .error value

lemma name_of_namesProject {sources : NameSources} {args rest : List Text} {value : Text}
    (h : args.foldlM NameScan.scanArg NameScan.initial = .error value) :
    composeRequestedProjectName sources (args ++ rest) = copiedName value := by
  rw [composeRequestedProjectName, foldlM_append, h]
  rfl

/-- A word is a value of the option before it, or is passed over. -/
def NameScan.afterWord : NameScan :=
  if scan.nextIsFile then
    { scan with nextIsFile := false, firstFile := if scan.firstFile = [] then ascii "x" else scan.firstFile }
  else if scan.nextIsProjectDirectory then { scan with nextIsProjectDirectory := false, projectDirectory := ascii "x" }
  else scan

variable {scan}

lemma scanArg_word (h : scan.nextIsProject = false) : scan.scanArg (ascii "x") = .ok scan.afterWord := by
  have hshort : truncate PM_MAX_FIELD (ascii "x") = ascii "x" := by decide +kernel
  have hproject : isOneOf (ascii "x") ["-p", "--project-name"] = false := by decide +kernel
  have hname : attachedValue "--project-name=" (ascii "x") = none := by decide +kernel
  have hp : attachedNonempty "-p" (ascii "x") = none := by decide +kernel
  have hfile : isOneOf (ascii "x") ["-f", "--file"] = false := by decide +kernel
  have hvalue : (attachedValue "--file=" (ascii "x")).or (attachedNonempty "-f" (ascii "x")) = none := by decide +kernel
  have hdirectory : ascii "x" ≠ ascii "--project-directory" := by decide +kernel
  have hassigned : attachedValue "--project-directory=" (ascii "x") = none := by decide +kernel
  unfold NameScan.scanArg NameScan.afterWord
  rw [h, hshort, hproject, hname, hp, hfile, hvalue, if_neg hdirectory, hassigned]
  cases scan.nextIsFile with
  | true => rfl
  | false =>
    cases scan.nextIsProjectDirectory with
    | true => rfl
    | false => rfl

lemma afterWord_nextIsProject : scan.afterWord.nextIsProject = scan.nextIsProject := by
  unfold NameScan.afterWord
  split
  · rfl
  · split <;> rfl

lemma afterWord_settled :
    scan.afterWord.afterWord.nextIsFile = false ∧ scan.afterWord.afterWord.nextIsProjectDirectory = false := by
  obtain ⟨project, file, directory, firstFile, projectDirectory⟩ := scan
  cases file <;> cases directory <;> exact ⟨rfl, rfl⟩

variable (scan)

lemma foldlM_ok {scan next : NameScan} {arg : Text} {rest : List Text} (h : scan.scanArg arg = .ok next) :
    (arg :: rest).foldlM NameScan.scanArg scan = rest.foldlM NameScan.scanArg next := by
  rw [foldlM_cons, h]
  rfl

lemma foldlM_error {scan : NameScan} {arg value : Text} {rest : List Text} (h : scan.scanArg arg = .error value) :
    (arg :: rest).foldlM NameScan.scanArg scan = .error value := by
  rw [foldlM_cons, h]
  rfl

/-- Arguments after which the scan ends with a name of our choice. -/
def naming (name : Text) : List Text :=
  if scan.nextIsProject then [name] else [ascii "x", ascii "x", ascii "-p", name]

lemma foldlM_naming (name : Text) : (naming scan name).foldlM NameScan.scanArg scan = .error name := by
  have hended : ∀ waiting : NameScan, waiting.nextIsProject = true → waiting.scanArg name = .error name := by
    intro waiting hwaiting
    simp [NameScan.scanArg, hwaiting]
  unfold naming
  split
  next hproject => exact foldlM_error (hended scan hproject)
  next hproject =>
    rw [Bool.not_eq_true] at hproject
    have hnext : scan.afterWord.nextIsProject = false := afterWord_nextIsProject.trans hproject
    have hsettled : scan.afterWord.afterWord.nextIsProject = false := afterWord_nextIsProject.trans hnext
    have hwaits : scan.afterWord.afterWord.nextIsFile = false ∧ scan.afterWord.afterWord.nextIsProjectDirectory = false :=
      afterWord_settled
    have hoption : scan.afterWord.afterWord.scanArg (ascii "-p") =
        .ok { scan.afterWord.afterWord with nextIsProject := true } := by
      have hp : isOneOf (ascii "-p") ["-p", "--project-name"] = true := by decide +kernel
      simp [NameScan.scanArg, hsettled, hwaits, hp]
    rw [foldlM_ok (scanArg_word hproject), foldlM_ok (scanArg_word hnext), foldlM_ok hoption]
    exact foldlM_error (hended _ rfl)

lemma requestedProjectName_iff (sources : NameSources) {before : List Text} {start : Nat}
    (hwords : ∀ word rest, IsWord word → composeSubcommandIndex (before ++ word :: rest) start = before.length) :
    (∀ rest rest', composeSubcommandIndex (before ++ rest) start = before.length →
        composeSubcommandIndex (before ++ rest') start = before.length →
        composeRequestedProjectName sources (before ++ rest) = composeRequestedProjectName sources (before ++ rest')) ↔
      NamesProject before := by
  constructor
  · intro h
    cases hscan : before.foldlM NameScan.scanArg NameScan.initial with
    | error value => exact ⟨value, hscan⟩
    | ok scan =>
      -- two names that differ
      have hindex : ∀ name, IsWord name → composeSubcommandIndex (before ++ naming scan name) start = before.length := by
        intro name hname
        unfold naming
        split
        · exact hwords _ _ hname
        · exact hwords _ _ (by decide)
      have hvalue : ∀ name, composeRequestedProjectName sources (before ++ naming scan name) = copiedName name := by
        intro name
        rw [composeRequestedProjectName, foldlM_append, hscan]
        change (match (naming scan name).foldlM NameScan.scanArg scan with
          | .error value => copiedName value
          | .ok scan => _) = _
        rw [foldlM_naming]
      have hdiffer := h (naming scan (ascii "a")) (naming scan (ascii "b")) (hindex _ (by decide)) (hindex _ (by decide))
      rw [hvalue, hvalue] at hdiffer
      exact absurd hdiffer (by decide +kernel)
  · rintro ⟨value, hvalue⟩ rest rest' - -
    rw [name_of_namesProject hvalue, name_of_namesProject hvalue]

/-- The two halves: what comes after the subcommand is kept, apart from one `--detach`, exactly when every project option in it
names the attached project; and for a command with a subcommand the requested name is fixed by what comes before it exactly
when a project option stands there. -/
theorem compose_tail_kept_iff (samePath : Text → Text → Bool) (sources : NameSources) (args : List Text)
    (attachedProject overrideFile : Text) (start : Nat) :
    (InsertsOnlyDetach (args.drop (composeSubcommandIndex args start + 1))
        ((rewriteComposeArgs samePath args attachedProject overrideFile start).drop
          (composeSubcommandIndex args start +
            (composeRewrite samePath args attachedProject overrideFile start).overrideArgs.length + 1)) ↔
      ∀ value ∈ projectValues false (args.drop (composeSubcommandIndex args start + 1)), value = attachedProject) ∧
    (composeSubcommandIndex args start < args.length →
      ((∀ rest rest',
          let before := args.take (composeSubcommandIndex args start)
          composeSubcommandIndex (before ++ rest) start = before.length →
          composeSubcommandIndex (before ++ rest') start = before.length →
          composeRequestedProjectName sources (before ++ rest) = composeRequestedProjectName sources (before ++ rest')) ↔
        NamesProject (args.take (composeSubcommandIndex args start)))) := by
  refine ⟨rewriteComposeArgs_iff samePath args attachedProject overrideFile start, fun hlt => ?_⟩
  obtain ⟨before, subcommand, after, hargs, hindex, -, hwords⟩ := composeSubcommandIndex_spec hlt
  have hbefore : args.take (composeSubcommandIndex args start) = before := by
    rw [← hindex, hargs, take_left]
  rw [hbefore]
  exact requestedProjectName_iff sources hwords

/-- `docker compose exec web cmd -p 80`: the option of the command inside the container is rewritten and names the project. -/
theorem container_option_rewritten :
    (let args := ["compose", "exec", "web", "cmd", "-p", "80"].map ascii
    rewriteComposeArgs (fun _ _ => false) args (ascii "attached") [] 1 =
        ["compose", "exec", "web", "cmd", "-p", "attached"].map ascii ∧
      composeRequestedProjectName ⟨none, fun _ => none, fun _ => none⟩ args = some (ascii "80")) := by
  decide +kernel

end PortManager.DockerShim
