import PortManager.Hook.RespawnMap
import PortManager.Base.Run

/-!
# Waiting for children that may have been relaunched

A parent process forks children; the control channel replaces some of them. `pm_wait_virtualized` turns every wait of the parent into waits of
the kernel: for an original it waits for the replacement, and a wait for any child hides the killed originals. A call of the parent is in progress
from its first look at the map until the kernel's answer; other calls, relaunches and exits come in between.

Processes are counted by their birth, because the kernel gives a pid again after its process was reaped. `OrdinaryTold` is what the parent is told
of a child that was never replaced and killed: `ordinary_exits_told`.
-/

namespace PortManager.Hook

open Run List RespawnMap List.Subset

/-! ## Processes and calls -/

inductive ProcessState where
  | running
  | zombie (status : Int)
  | reaped (status : Int)
deriving DecidableEq

/-- A child of the parent. Its root is the process it stands for: itself, or the original that it replaces. -/
structure Process where
  pid : Pid
  root : Nat
  /-- The control channel spawned it. -/
  replacement : Bool
  state : ProcessState
  /-- A stop or a continuation that no wait has reported yet. -/
  stopPending : Bool
  continuePending : Bool
  /-- It was replaced, and the signal of the relaunch went to it. -/
  killed : Bool
deriving DecidableEq

def Process.waitable (process : Process) : Bool :=
  match process.state with
  | .reaped _ => false
  | _ => true

structure WaitOptions where
  untraced : Bool
  continued : Bool
deriving DecidableEq

inductive Change where
  | exited (status : Int)
  | stopped
  | continued
deriving DecidableEq

/-- A call of the parent that the kernel has not answered. -/
inductive Call where
  | direct (pid : Pid) (options : WaitOptions)
  | forNew (pid newPid : Pid) (options : WaitOptions)
  | wildcard (pid : Pid) (options : WaitOptions)
deriving DecidableEq

structure Report where
  pid : Pid
  change : Change
  child : Nat
deriving DecidableEq

structure World where
  processes : List Process
  map : RespawnMap
  calls : List Call
  reports : List Report

def World.initial : World := ⟨[], .initial, [], []⟩

namespace World

/-! ## The kernel -/

variable (world : World) (pid : Pid)

def inUse : Bool := world.processes.any fun process => process.pid = pid && process.waitable

variable (process : Process)

/-- A zombie is gone after it was waited for. -/
def reap : Process :=
  match process.state with
  | .zombie status => { process with state := .reaped status }
  | _ => process

/-- The wait with `WNOHANG` and no status for a pid. -/
def reapPid : World :=
  { world with processes := world.processes.map fun process => if process.pid = pid then reap process else process }

/-- The process has this change to report to a wait with the options. -/
def Reports (options : WaitOptions) (process : Process) : Change → Prop
  | .exited status => process.state = .zombie status
  | .stopped => process.state = .running ∧ options.untraced ∧ process.stopPending
  | .continued => process.state = .running ∧ options.continued ∧ process.continuePending

instance (options : WaitOptions) (process : Process) (change : Change) : Decidable (Reports options process change) :=
  match change with
  | .exited _ => inferInstanceAs (Decidable (_ = _))
  | .stopped => inferInstanceAs (Decidable (_ ∧ _))
  | .continued => inferInstanceAs (Decidable (_ ∧ _))

/-- The kernel can answer a wait for the pid (for any child, if it is not positive) with this change of the process. -/
def Answers (options : WaitOptions) (process : Process) (change : Change) : Prop :=
  (0 < pid → process.pid = pid) ∧ Reports options process change

instance (pid : Pid) (options : WaitOptions) (process : Process) (change : Change) : Decidable (Answers pid options process change) :=
  inferInstanceAs (Decidable (_ ∧ _))

/-- The process after its change was reported to someone. -/
def consumed (change : Change) (process : Process) : Process :=
  match change with
  | .exited _ => reap process
  | .stopped => { process with stopPending := false }
  | .continued => { process with continuePending := false }

def change (child : Nat) (f : Process → Process) : World := { world with processes := world.processes.modify child f }

def consume (child : Nat) (change : Change) : World := world.change child (consumed change)

/-! ## The parent's calls -/

def begin (call : Call) : World := { world with calls := world.calls ++ [call] }

/-- A call for a pid that has no replacement: a killed original is consumed, and the call fails. -/
def waitUnmapped (options : WaitOptions) : World :=
  if (world.map.isSuppressedOld pid).1 then { world with map := (world.map.isSuppressedOld pid).2 }.reapPid pid
  else { world with map := (world.map.isSuppressedOld pid).2 }.begin (.direct pid options)

/-- `pm_wait_virtualized` up to its first wait of the kernel. -/
def wait (options : WaitOptions) : World :=
  if !world.map.active then world.begin (.direct pid options)
  else if 0 < pid then
    match world.map.newForOld pid with
    | some newPid => if 0 < newPid then world.begin (.forNew pid newPid options) else world.waitUnmapped pid options
    | none => world.waitUnmapped pid options
  else world.begin (.wildcard pid options)

variable (index : Nat)

def tell (report : Report) : World :=
  { world with calls := world.calls.eraseIdx index, reports := world.reports ++ [report] }

/-- The kernel answers the wait for a replacement. -/
def answerNew (pid newPid : Pid) (child : Nat) (change : Change) : World :=
  let world := world.consume child change
  let world := { world with map := (world.map.retireByNew newPid).2 }
  (world.reapPid pid).tell index ⟨pid, change, child⟩

/-- The kernel answers a wait for any child: the loop goes on after a killed original. -/
def answerAny (childPid : Pid) (child : Nat) (change : Change) : World :=
  let world := world.consume child change
  let retired := world.map.retireByNew childPid
  let world := { world with map := retired.2 }
  let suppressed := world.map.isSuppressedOld childPid
  match retired.1 with
  | some oldPid =>
    if 0 < oldPid then world.tell index ⟨oldPid, change, child⟩
    else if suppressed.1 then { world with map := suppressed.2 }
    else { world with map := suppressed.2 }.tell index ⟨childPid, change, child⟩
  | none =>
    if suppressed.1 then { world with map := suppressed.2 }
    else { world with map := suppressed.2 }.tell index ⟨childPid, change, child⟩

/-- The kernel answers a call in progress, with a change of a child or with nothing (`0` or an error). -/
def answer (outcome : Option (Nat × Change)) : World :=
  match world.calls[index]?, outcome with
  | none, _ => world
  | some _, none => { world with calls := world.calls.eraseIdx index }
  | some call, some (child, change) =>
    match world.processes[child]? with
    | none => world
    | some process =>
      match call with
      | .direct pid options =>
        if Answers pid options process change then (world.consume child change).tell index ⟨process.pid, change, child⟩ else world
      | .forNew pid newPid options =>
        if Answers newPid options process change then
          if process.pid = newPid then world.answerNew index pid newPid child change
          else (world.consume child change).tell index ⟨process.pid, change, child⟩
        else world
      | .wildcard pid options =>
        if Answers pid options process change then world.answerAny index process.pid child change else world

/-! ## The events -/

inductive Event where
  | fork (pid : Pid)
  | respawn (oldPid newPid : Pid) (killed : Bool)
  | stop (child : Nat)
  | resume (child : Nat)
  | exit (child : Nat) (status : Int)
  | wait (pid : Pid) (options : WaitOptions)
  | answer (index : Nat) (outcome : Option (Nat × Change))
deriving DecidableEq

/-- The root of a replacement: that of the process it was spawned for, if there is one. -/
def rootFor (oldPid : Pid) : Nat :=
  ((world.processes.find? fun process => process.pid = oldPid && process.waitable).map Process.root).getD world.processes.length

def whileRunning (change : Process → Process) (process : Process) : Process :=
  match process.state with
  | .running => change process
  | _ => process

/-- The original of a relaunch, if the signal went to it. -/
def markKilled (oldPid : Pid) (killed : Bool) : List Process :=
  world.processes.map fun process => if killed && process.pid = oldPid && process.waitable then { process with killed := true } else process

def step : Event → World
  | .fork pid =>
    if 0 < pid ∧ ¬ world.inUse pid then
      { world with processes := world.processes ++ [⟨pid, world.processes.length, false, .running, false, false, false⟩] }
    else world
  | .respawn oldPid newPid killed =>
    if 0 < newPid ∧ ¬ world.inUse newPid then
      { world with
        processes := world.markKilled oldPid killed ++ [⟨newPid, world.rootFor oldPid, true, .running, false, false, false⟩]
        map := world.map.record oldPid newPid }
    else world
  | .stop child => world.change child (whileRunning fun process => { process with stopPending := true })
  | .resume child => world.change child (whileRunning fun process => { process with stopPending := false, continuePending := true })
  | .exit child status => world.change child (whileRunning fun process => { process with state := .zombie status })
  | .wait pid options => world.wait pid options
  | .answer index outcome => world.answer index outcome

/-! ## What happens to a process -/

/-- A process later on: it has its pid and its root, may have been killed, and is not waited for again. -/
structure Later (before after : Process) : Prop where
  pid : after.pid = before.pid
  root : after.root = before.root
  replacement : after.replacement = before.replacement
  killed : before.killed → after.killed
  waitable : after.waitable → before.waitable
  reaped : ∀ status, before.state = .reaped status → after.state = .reaped status

lemma Later.refl : Later process process := ⟨rfl, rfl, rfl, id, id, fun _ => id⟩

lemma Later.trans {first second third : Process} (h : Later first second) (h' : Later second third) : Later first third :=
  ⟨h'.pid.trans h.pid, h'.root.trans h.root, h'.replacement.trans h.replacement, fun hk => h'.killed (h.killed hk), fun hw => h.waitable (h'.waitable hw),
    fun status hr => h'.reaped status (h.reaped status hr)⟩

lemma later_reap : Later process (reap process) := by
  rw [reap]
  split
  · next status hstate => exact ⟨rfl, rfl, rfl, id, by simp [Process.waitable], by simp [hstate]⟩
  · exact .refl process

lemma later_consumed (change : Change) (process : Process) : Later process (consumed change process) := by
  cases change with
  | exited status => exact later_reap process
  | stopped | continued => exact ⟨rfl, rfl, rfl, id, id, fun _ => id⟩

variable {f : Process → Process} {world after : World} {child id : Nat} {process before : Process}
    {pid oldPid newPid : Pid} {report : Report} {options : WaitOptions} {map : RespawnMap}
    {killed : Bool}

lemma later_whileRunning (hf : ∀ process, process.state = .running → Later process (f process))
    (process : Process) : Later process (whileRunning f process) := by
  rw [whileRunning]
  split
  · next hrunning => exact hf process hrunning
  · exact .refl process

def LaterOn (world after : World) : Prop :=
  world.processes.length = after.processes.length ∧
    ∀ (id : Nat) (process : Process), after.processes[id]? = some process → ∃ before, world.processes[id]? = some before ∧ Later before process

lemma LaterOn.trans {world middle after : World} (h : world.LaterOn middle) (h' : middle.LaterOn after) : world.LaterOn after := by
  refine ⟨h.1.trans h'.1, fun id process hprocess => ?_⟩
  obtain ⟨mid, hmid, hlater⟩ := h'.2 id process hprocess
  obtain ⟨before, hbefore, hlater'⟩ := h.2 id mid hmid
  exact ⟨before, hbefore, hlater'.trans hlater⟩

lemma laterOn_refl (h : after.processes = world.processes) : world.LaterOn after := by
  refine ⟨by rw [h], fun id process hprocess => ⟨process, ?_, .refl process⟩⟩
  rw [← h]
  exact hprocess

lemma getElem?_change (h : world.processes[id]? = some process) :
    (world.change child f).processes[id]? = some (if child = id then f process else process) := by
  rw [change, getElem?_modify, h]
  rfl

lemma laterOn_change (world : World) (child : Nat) (hf : ∀ process, Later process (f process)) :
    world.LaterOn (world.change child f) := by
  refine ⟨by simp [change], fun id process hprocess => ?_⟩
  simp only [change, getElem?_modify] at hprocess
  obtain ⟨before, hbefore, rfl⟩ := Option.map_eq_some_iff.mp hprocess
  refine ⟨before, hbefore, ?_⟩
  split
  · exact hf before
  · exact .refl before

lemma laterOn_map (hf : ∀ process, Later process (f process)) :
    world.LaterOn { world with processes := world.processes.map f } := by
  refine ⟨(length_map f).symm, fun id process hprocess => ?_⟩
  rw [getElem?_map] at hprocess
  obtain ⟨before, hbefore, rfl⟩ := Option.map_eq_some_iff.mp hprocess
  exact ⟨before, hbefore, hf before⟩

lemma laterOn_reapPid (world : World) (pid : Pid) : world.LaterOn (world.reapPid pid) := by
  refine laterOn_map fun process => ?_
  split
  · exact later_reap process
  · exact .refl process

/-! ## Children that are neither killed originals nor replacements -/

def Ordinary (process : Process) : Prop := process.replacement = false ∧ process.killed = false

lemma Later.ordinary (hlater : Later before process) (h : Ordinary process) : Ordinary before := by
  refine ⟨hlater.replacement ▸ h.1, ?_⟩
  by_contra hkilled
  exact absurd (hlater.killed (Bool.not_eq_false _ ▸ hkilled)) (by rw [h.2]; exact Bool.false_ne_true)

def Change.isExit : Change → Bool
  | .exited _ => true
  | _ => false

def exitReports (world : World) (id : Nat) : List Report := world.reports.filter fun report => report.child = id && Change.isExit report.change

/-- What the parent is to be told of the termination of a process. -/
def expected (id : Nat) (process : Process) : List Report :=
  match process.state with
  | .reaped status => [⟨process.pid, .exited status, id⟩]
  | _ => []

/-- The pid is none that the library redirects or hides. -/
structure Clear (world : World) (pid : Pid) : Prop where
  graveyard : pid ∉ world.map.graveyard
  pairs : ∀ pair ∈ world.map.pairs, pair.1 ≠ pid ∧ pair.2 ≠ pid
  calls : ∀ oldPid newPid options, Call.forNew oldPid newPid options ∈ world.calls → oldPid ≠ pid ∧ newPid ≠ pid

/-- The parent is told once of the termination of an ordinary child, when the kernel's report of it is gone; and until then its own waits for
the child are neither redirected nor refused. -/
def OrdinaryTold (world : World) : Prop :=
  ∀ (id : Nat) (process : Process), world.processes[id]? = some process → Ordinary process →
    world.exitReports id = expected id process ∧
      (process.waitable → world.map.newForOld process.pid = none ∧ (world.map.isSuppressedOld process.pid).1 = false)

/-- The state between the events of a run: pids are not shared, and what is said about ordinary children. -/
structure Sound (world : World) : Prop where
  unique : ∀ (i j : Nat) (p q : Process), world.processes[i]? = some p → world.processes[j]? = some q → p.waitable → q.waitable →
    p.pid = q.pid → i = j
  positive : ∀ process ∈ world.processes, 0 < process.pid
  clear : ∀ (id : Nat) (process : Process), world.processes[id]? = some process → Ordinary process → process.waitable → world.Clear process.pid
  told : ∀ (id : Nat) (process : Process), world.processes[id]? = some process → Ordinary process → world.exitReports id = expected id process
  born : ∀ report ∈ world.reports, report.child < world.processes.length

lemma Clear.untouched (h : world.Clear pid) :
    world.map.newForOld pid = none ∧ (world.map.isSuppressedOld pid).1 = false := by
  refine ⟨newForOld_eq_none_iff.mpr fun pair hpair => (h.pairs pair hpair).1, ?_⟩
  obtain ⟨hsuppressed, -⟩ | ⟨-, hburied⟩ | ⟨-, pair, hpair, hold⟩ := world.map.isSuppressedOld_cases pid
  · rw [hsuppressed]
  · exact absurd hburied h.graveyard
  · exact absurd hold (h.pairs pair hpair).1

lemma Sound.ordinaryTold (h : world.Sound) : world.OrdinaryTold := by
  intro id process hprocess hordinary
  exact ⟨h.told id process hprocess hordinary, fun hwaitable => (h.clear id process hprocess hordinary hwaitable).untouched⟩

def Awaited (world : World) (pid : Pid) : Prop :=
  ∃ process ∈ world.processes, Ordinary process ∧ process.waitable ∧ process.pid = pid

lemma Sound.clear_of_awaited (h : world.Sound) (hawaited : world.Awaited pid) : world.Clear pid := by
  obtain ⟨process, hmem, hordinary, hwaitable, rfl⟩ := hawaited
  obtain ⟨id, hid⟩ := mem_iff_getElem?.mp hmem
  exact h.clear id process hid hordinary hwaitable

lemma LaterOn.awaited (hlater : world.LaterOn after) (h : after.Awaited pid) : world.Awaited pid := by
  obtain ⟨process, hmem, hordinary, hwaitable, hpid⟩ := h
  obtain ⟨id, hid⟩ := mem_iff_getElem?.mp hmem
  obtain ⟨before, hbefore, hl⟩ := hlater.2 id process hid
  exact ⟨before, mem_of_getElem? hbefore, hl.ordinary hordinary, hl.waitable hwaitable, hl.pid.symm.trans hpid⟩

lemma Clear.same (h : world.Clear pid) (hmap : after.map = world.map) (hcalls : after.calls ⊆ world.calls) : after.Clear pid :=
  ⟨hmap ▸ h.graveyard, hmap ▸ h.pairs, fun oldPid newPid options hmem => h.calls oldPid newPid options (hcalls hmem)⟩

/-- What is to be shown of a step that makes no process. -/
lemma Sound.laterOn (h : world.Sound) (hlater : world.LaterOn after)
    (hclear : ∀ pid, world.Awaited pid → world.Clear pid → after.Clear pid)
    (htold : ∀ id before process, world.processes[id]? = some before → after.processes[id]? = some process →
      Ordinary before → world.exitReports id = expected id before → after.exitReports id = expected id process)
    (hborn : ∀ report ∈ after.reports, report.child < world.processes.length) : after.Sound := by
  have hprocesses := hlater.2
  constructor
  · intro i j p q hp hq hpw hqw hpid
    obtain ⟨p', hp', hlp⟩ := hprocesses i p hp
    obtain ⟨q', hq', hlq⟩ := hprocesses j q hq
    exact h.unique i j p' q' hp' hq' (hlp.waitable hpw) (hlq.waitable hqw) (hlp.pid ▸ hlq.pid ▸ hpid)
  · intro process hprocess
    obtain ⟨id, hid⟩ := mem_iff_getElem?.mp hprocess
    obtain ⟨before, hbefore, hl⟩ := hprocesses id process hid
    rw [hl.pid]
    exact h.positive before (mem_of_getElem? hbefore)
  · intro id process hprocess hord hwaitable
    have hawaited : after.Awaited process.pid := ⟨process, mem_of_getElem? hprocess, hord, hwaitable, rfl⟩
    exact hclear process.pid (hlater.awaited hawaited) (h.clear_of_awaited (hlater.awaited hawaited))
  · intro id process hprocess hord
    obtain ⟨before, hbefore, hl⟩ := hprocesses id process hprocess
    exact htold id before process hbefore hprocess (hl.ordinary hord) (h.told id before hbefore (hl.ordinary hord))
  · rw [← hlater.1]
    exact hborn

lemma Sound.unchanged (h : world.Sound) (hprocesses : after.processes = world.processes) (hreports : after.reports = world.reports)
    (hclear : ∀ pid, world.Awaited pid → world.Clear pid → after.Clear pid) : after.Sound := by
  refine h.laterOn (laterOn_refl hprocesses) hclear (fun id before process hbefore hprocess _ htold => ?_) (hreports ▸ h.born)
  rw [hprocesses] at hprocess
  obtain rfl := Option.mem_unique hbefore hprocess
  rw [exitReports, hreports]
  exact htold

lemma Sound.quiet {processes : List Process} (h : world.Sound) (hlater : world.LaterOn { world with processes := processes })
    (hexpected : ∀ id before process, world.processes[id]? = some before → processes[id]? = some process →
      Ordinary before → expected id process = expected id before) : World.Sound { world with processes := processes } := by
  refine h.laterOn hlater (fun _ _ hclear => hclear.same rfl (refl _)) ?_ h.born
  intro id before process hbefore hprocess hordinary htold
  exact htold.trans (hexpected id before process hbefore hprocess hordinary).symm

/-! ## One step -/

lemma expected_eq {after : Process} (hlater : Later before after)
    (hwaitable : before.waitable → after.waitable) : expected id after = expected id before := by
  rw [expected, expected]
  cases hstate : before.state with
  | reaped status => rw [hlater.reaped status hstate, hlater.pid]
  | running | zombie status =>
    have hafter := hwaitable (by simp [Process.waitable, hstate])
    cases hstate' : after.state with
    | reaped status => simp [Process.waitable, hstate'] at hafter
    | _ => rfl

lemma exitReports_tell (world : World) (index : Nat) (report : Report) (id : Nat) :
    (world.tell index report).exitReports id =
      world.exitReports id ++ if report.child = id ∧ Change.isExit report.change then [report] else [] := by
  simp only [exitReports, tell, filter_append, filter_cons, filter_nil, Bool.and_eq_true, decide_eq_true_eq]

variable {change : Change}

lemma waitable_of_reports (h : Reports options process change) : process.waitable := by
  cases change with
  | exited status => simp [Process.waitable, show process.state = .zombie status from h]
  | stopped | continued => simp [Process.waitable, h.1]

lemma expected_consumed (h : Reports options process change) (id : Nat) :
    expected id (consumed change process) = expected id process ++ if Change.isExit change then [⟨process.pid, change, id⟩] else [] := by
  cases change with
  | exited status =>
    have hstate : process.state = .zombie status := h
    simp [expected, consumed, reap, hstate, Change.isExit]
  | stopped | continued => simp [expected, consumed, Change.isExit]

lemma getElem?_birth {processes : List Process} {other : Process} (h : (processes ++ [process])[id]? = some other) :
    processes[id]? = some other ∨ (id = processes.length ∧ other = process) := by
  rw [getElem?_append] at h
  split at h
  · exact .inl h
  · next hle =>
    rw [getElem?_singleton] at h
    split at h
    · exact .inr ⟨by omega, (Option.some.inj h).symm⟩
    · cases h

lemma pid_ne_of_not_inUse (h : ¬ world.inUse pid) (hprocess : world.processes[id]? = some process)
    (hwaitable : process.waitable) : process.pid ≠ pid := by
  intro hpid
  refine h (any_eq_true.mpr ⟨process, mem_of_getElem? hprocess, ?_⟩)
  simp [hpid, hwaitable]

lemma Sound.birth (h : world.Sound) (hpositive : 0 < process.pid)
    (hfresh : ¬ world.inUse process.pid) (hrunning : process.state = .running)
    (hprocesses : after.processes = world.processes ++ [process]) (hreports : after.reports = world.reports)
    (hclear : ∀ pid, world.Awaited pid → world.Clear pid → after.Clear pid)
    (hnew : Ordinary process → after.Clear process.pid) : after.Sound := by
  have hcases {id : Nat} {other : Process} (hother : after.processes[id]? = some other) :
      world.processes[id]? = some other ∨ (id = world.processes.length ∧ other = process) :=
    getElem?_birth (hprocesses ▸ hother)
  have hunused {id : Nat} {other : Process} (hother : world.processes[id]? = some other) (hwaitable : other.waitable) :
      other.pid ≠ process.pid := pid_ne_of_not_inUse hfresh hother hwaitable
  have hsame (id : Nat) : after.exitReports id = world.exitReports id := by rw [exitReports, exitReports, hreports]
  constructor
  · intro i j p q hp hq hpw hqw hpid
    obtain hp | ⟨rfl, rfl⟩ := hcases hp <;> obtain hq | ⟨rfl, rfl⟩ := hcases hq
    · exact h.unique i j p q hp hq hpw hqw hpid
    · exact absurd hpid (hunused hp hpw)
    · exact absurd hpid.symm (hunused hq hqw)
    · rfl
  · intro other hother
    rw [hprocesses] at hother
    obtain hother | hother := mem_append.mp hother
    · exact h.positive other hother
    · rw [mem_singleton.mp hother]
      exact hpositive
  · intro id other hother hordinary hwaitable
    obtain hother | ⟨rfl, rfl⟩ := hcases hother
    · exact hclear other.pid ⟨other, mem_of_getElem? hother, hordinary, hwaitable, rfl⟩ (h.clear id other hother hordinary hwaitable)
    · exact hnew hordinary
  · intro id other hother hordinary
    obtain hother | ⟨rfl, rfl⟩ := hcases hother
    · rw [hsame]
      exact h.told id other hother hordinary
    -- nobody was told anything about a process that was not there
    have hnone : world.exitReports world.processes.length = [] := by
      rw [exitReports, filter_eq_nil_iff]
      intro report hreport
      have hlt := h.born report hreport
      simp only [Bool.and_eq_true, decide_eq_true_eq, not_and]
      intro heq
      omega
    rw [hsame, hnone, expected, hrunning]
  · intro report hreport
    rw [hreports] at hreport
    have hlt := h.born report hreport
    rw [hprocesses, length_append]
    omega

/-- The conditions on a step: a new child has no pid that the library still redirects or hides, and the signal of a relaunch goes to an ordinary
child. -/
def Careful (world : World) : Event → Prop
  | .fork pid => world.Clear pid
  | .respawn oldPid _ killed => (∃ process ∈ world.processes, Ordinary process ∧ process.waitable ∧ process.pid = oldPid) → killed = true
  | _ => True

lemma sound_fork (h : world.Sound) (hcareful : world.Careful (.fork pid)) : (world.step (.fork pid)).Sound := by
  rw [step]
  split
  · next hfork =>
    exact h.birth hfork.1 hfork.2 rfl rfl rfl (fun _ _ hclear => hclear.same rfl (refl _))
      fun _ => Clear.same hcareful rfl (refl _)
  · exact h

lemma graveyard_record (map : RespawnMap) (oldPid newPid : Pid) : (map.record oldPid newPid).graveyard = map.graveyard := by
  rw [record]
  split <;> rfl

lemma mem_pairs_record {pair : Pid × Pid} (h : pair ∈ (map.record oldPid newPid).pairs) :
    pair ∈ map.pairs ∨ pair = (oldPid, newPid) := by
  rw [record] at h
  split at h
  · simpa using h
  · exact .inl h

lemma laterOn_markKilled (world : World) (oldPid : Pid) (killed : Bool) :
    world.LaterOn { world with processes := world.markKilled oldPid killed } := by
  refine laterOn_map fun process => ?_
  split
  · exact ⟨rfl, rfl, rfl, fun _ => rfl, fun h => h, fun _ h => h⟩
  · exact .refl process

lemma state_markKilled (hbefore : world.processes[id]? = some before)
    (hprocess : (world.markKilled oldPid killed)[id]? = some process) : process.state = before.state := by
  simp only [markKilled, getElem?_map, hbefore, Option.map_some, Option.some.injEq] at hprocess
  rw [← hprocess]
  split <;> rfl

lemma inUse_markKilled (world : World) (oldPid pid : Pid) (killed : Bool) :
    World.inUse { world with processes := world.markKilled oldPid killed } pid = world.inUse pid := by
  rw [inUse, inUse, markKilled, any_map]
  congr 1
  funext process
  rw [Function.comp_apply]
  split <;> rfl

variable (h : world.Sound)
include h

lemma sound_respawn (hcareful : world.Careful (.respawn oldPid newPid killed)) :
    (world.step (.respawn oldPid newPid killed)).Sound := by
  rw [step]
  split
  · next hspawn =>
    have hlater := laterOn_markKilled world oldPid killed
    have hmarked : World.Sound { world with processes := world.markKilled oldPid killed } := by
      refine h.quiet hlater fun id before process hbefore hprocess _ => ?_
      obtain ⟨before', hbefore', hl⟩ := hlater.2 id process hprocess
      obtain rfl := Option.mem_unique hbefore hbefore'
      rw [expected, hl.pid, state_markKilled hbefore hprocess]
      rfl
    have hfresh : ¬ World.inUse { world with processes := world.markKilled oldPid killed } newPid := by
      rw [inUse_markKilled]
      exact hspawn.2
    refine hmarked.birth hspawn.1 hfresh rfl rfl rfl ?_ ?_
    · rintro pid ⟨other, hmem, hordinary, hwaitable, rfl⟩ hclear
      obtain ⟨id, hother⟩ := mem_iff_getElem?.mp hmem
      refine ⟨?_, fun pair hpair => ?_, hclear.calls⟩
      · rw [graveyard_record]
        exact hclear.graveyard
      obtain hpair | rfl := mem_pairs_record hpair
      · exact hclear.pairs pair hpair
      -- the original is not ordinary any more, and the new pid was not in use
      refine ⟨fun hold => ?_, fun hnew => ?_⟩
      · obtain ⟨before, hbefore, hl⟩ := hlater.2 id other hother
        have hwas := hl.waitable hwaitable
        have hpid : before.pid = oldPid := hl.pid ▸ hold.symm
        have hkilled := hcareful ⟨before, mem_of_getElem? hbefore, hl.ordinary hordinary, hwas, hpid⟩
        have hother' : other = { before with killed := true } := by
          have hmap := hother
          simp only [markKilled, getElem?_map, hbefore, Option.map_some, Option.some.injEq] at hmap
          rw [if_pos] at hmap
          · exact hmap.symm
          · simp [hkilled, hwas, hpid]
        rw [hother'] at hordinary
        exact absurd hordinary.2 nofun
      · have hpid : other.pid = newPid := hnew.symm
        exact pid_ne_of_not_inUse hfresh hother hwaitable hpid
    · intro hordinary
      exact absurd hordinary.1 nofun
  · exact h

lemma sound_change (child : Nat)
    (hf : ∀ process, process.state = .running → Later process (f process) ∧ (f process).waitable) :
    (world.change child (whileRunning f)).Sound := by
  have hlater (process : Process) : Later process (whileRunning f process) := later_whileRunning (fun process h => (hf process h).1) process
  refine h.quiet (laterOn_change world child hlater) fun id before process hbefore hprocess _ => ?_
  obtain rfl := Option.some.inj ((getElem?_change hbefore).symm.trans hprocess)
  split
  · refine expected_eq (hlater before) fun hwaitable => ?_
    rw [whileRunning]
    split
    · next hrunning => exact (hf before hrunning).2
    · exact hwaitable
  · rfl

lemma Sound.not_awaited (hpid : pid ∈ world.map.graveyard ∨ ∃ pair ∈ world.map.pairs, pair.1 = pid) : ¬ world.Awaited pid := by
  intro hawaited
  have hclear := h.clear_of_awaited hawaited
  obtain hburied | ⟨pair, hpair, hold⟩ := hpid
  · exact hclear.graveyard hburied
  · exact (hclear.pairs pair hpair).1 hold

lemma Sound.reapPid (hpid : ¬ world.Awaited pid) : (world.reapPid pid).Sound := by
  refine h.quiet (laterOn_reapPid world pid) fun id before process hbefore hprocess hordinary => ?_
  simp only [getElem?_map, hbefore, Option.map_some, Option.some.injEq] at hprocess
  subst hprocess
  split
  · next hsame =>
    refine expected_eq (later_reap before) fun hwaitable => ?_
    exact absurd ⟨before, mem_of_getElem? hbefore, hordinary, hwaitable, hsame⟩ hpid
  · rfl

lemma Sound.withMap (hgraveyard : ∀ pid, world.Awaited pid → pid ∉ map.graveyard)
    (hpairs : ∀ pair ∈ map.pairs, pair ∈ world.map.pairs) : World.Sound { world with map := map } := by
  refine h.unchanged rfl rfl fun pid hawaited hclear => ⟨hgraveyard pid hawaited, fun pair hpair => ?_, hclear.calls⟩
  exact hclear.pairs pair (hpairs pair hpair)

lemma Sound.bury (hpid : ¬ world.Awaited pid) : World.Sound { world with map := world.map.graveyardAdd pid } := by
  refine h.withMap (fun other hawaited hmem => ?_) fun _ hpair => hpair
  obtain rfl | hold := eq_or_mem_of_mem_graveyardAdd hmem
  · exact hpid hawaited
  · exact (h.clear_of_awaited hawaited).graveyard hold

lemma Sound.begin {call : Call}
    (hcall : ∀ oldPid newPid options, call = .forNew oldPid newPid options → (oldPid, newPid) ∈ world.map.pairs) : (world.begin call).Sound := by
  refine h.unchanged rfl rfl fun pid _ hclear => ⟨hclear.graveyard, hclear.pairs, fun oldPid newPid options hmem => ?_⟩
  obtain hmem | hmem := mem_append.mp hmem
  · exact hclear.calls oldPid newPid options hmem
  · exact hclear.pairs _ (hcall oldPid newPid options (mem_singleton.mp hmem).symm)

lemma sound_waitUnmapped (pid : Pid) (options : WaitOptions) : (world.waitUnmapped pid options).Sound := by
  rw [waitUnmapped]
  obtain ⟨hcase, -⟩ | ⟨hcase, hburied⟩ | ⟨hcase, hmapped⟩ := world.map.isSuppressedOld_cases pid <;> rw [hcase]
  · rw [if_neg Bool.false_ne_true]
    exact h.begin nofun
  · rw [if_pos rfl]
    exact h.reapPid (h.not_awaited (.inl hburied))
  rw [if_pos rfl]
  have hpid := h.not_awaited (.inr hmapped)
  exact (h.bury hpid).reapPid hpid

lemma sound_wait (pid : Pid) (options : WaitOptions) : (world.wait pid options).Sound := by
  unfold World.wait
  split
  · exact h.begin nofun
  split
  · split
    · next newPid hnew =>
      split
      · exact h.begin fun _ _ _ heq => by
          cases heq
          exact mem_of_newForOld hnew
      · exact sound_waitUnmapped h pid options
    · exact sound_waitUnmapped h pid options
  · exact h.begin nofun

lemma Sound.told_of {processes : List Process} (hlater : world.LaterOn { world with processes := processes })
    (hborn : report.child < world.processes.length)
    (hexpected : ∀ id before process, world.processes[id]? = some before → processes[id]? = some process →
      Ordinary before → expected id process = expected id before ++ if report.child = id ∧ Change.isExit report.change then [report] else []) :
    (World.tell { world with processes := processes } index report).Sound := by
  refine h.laterOn (hlater.trans (laterOn_refl rfl)) ?_ (fun id before process hbefore hprocess hordinary htold => ?_) ?_
  · exact fun _ _ hclear => hclear.same rfl (eraseIdx_subset ..)
  · rw [exitReports_tell, hexpected id before process hbefore hprocess hordinary, ← htold]
    rfl
  intro other hmem
  obtain hmem | hmem := mem_append.mp hmem
  · exact h.born other hmem
  · rw [mem_singleton.mp hmem]
    exact hborn

lemma Sound.consume_other (hprocess : world.processes[child]? = some process)
    (hother : ¬ Ordinary process) (change : Change) : (world.consume child change).Sound := by
  refine h.quiet (laterOn_change world child (later_consumed change)) fun id before after hbefore hafter hordinary => ?_
  obtain rfl := Option.some.inj ((getElem?_change hbefore).symm.trans hafter)
  have hne : child ≠ id := by
    rintro rfl
    obtain rfl := Option.mem_unique hprocess hbefore
    exact hother hordinary
  rw [if_neg hne]

lemma Sound.consume_tell
    (hprocess : world.processes[child]? = some process) (hreports : Reports options process change) :
    ((world.consume child change).tell index ⟨process.pid, change, child⟩).Sound := by
  refine h.told_of index (laterOn_change world child (later_consumed change)) (List.getElem?_eq_some_iff.mp hprocess).1 ?_
  intro id before after hbefore hafter hordinary
  obtain rfl := Option.some.inj ((getElem?_change hbefore).symm.trans hafter)
  by_cases hid : child = id
  · subst hid
    obtain rfl := Option.mem_unique hprocess hbefore
    rw [if_pos rfl, expected_consumed hreports]
    simp
  · rw [if_neg hid, if_neg fun hboth => hid hboth.1, append_nil]

lemma Sound.retire (newPid : Pid) : World.Sound { world with map := (world.map.retireByNew newPid).2 } := by
  obtain ⟨hcase, -⟩ | ⟨pair, -, -, hperm, hgraveyard, -⟩ := world.map.retireByNew_cases newPid
  · rw [hcase]
    exact h
  have hpair : pair ∈ world.map.pairs := hperm.subset mem_cons_self
  refine h.withMap (fun pid hawaited hmem => ?_) fun other hother => hperm.subset (mem_cons_of_mem _ hother)
  have hclear := h.clear_of_awaited hawaited
  rw [hgraveyard] at hmem
  obtain hsame | hold := eq_or_mem_of_mem_graveyardAdd hmem
  · exact (hclear.pairs pair hpair).1 hsame.symm
  · exact hclear.graveyard hold

lemma Sound.suppress (hpid : ¬ world.Awaited pid) : World.Sound { world with map := (world.map.isSuppressedOld pid).2 } := by
  obtain ⟨hcase, -⟩ | ⟨hcase, -⟩ | ⟨hcase, -⟩ := world.map.isSuppressedOld_cases pid <;> rw [hcase]
  · exact h
  · exact h
  · exact h.bury hpid

variable (index : Nat)

lemma Sound.tell_later {before : World}
    (hlater : before.LaterOn world) (hprocess : before.processes[report.child]? = some process)
    (hother : ¬ Ordinary process) : (world.tell index report).Sound := by
  refine h.told_of index (laterOn_refl rfl) ?_ fun id first second hfirst hsecond hordinary => ?_
  · rw [← hlater.1]
    exact (List.getElem?_eq_some_iff.mp hprocess).1
  obtain rfl := Option.mem_unique hfirst hsecond
  have hne : report.child ≠ id := by
    rintro rfl
    obtain ⟨process', hprocess', hl⟩ := hlater.2 _ first hfirst
    obtain rfl := Option.mem_unique hprocess hprocess'
    exact hother (hl.ordinary hordinary)
  rw [if_neg fun hboth => hne hboth.1, append_nil]

lemma sound_answerNew {options' : WaitOptions} (hcall : .forNew pid newPid options' ∈ world.calls)
    (hprocess : world.processes[child]? = some process) (hpid : process.pid = newPid)
    (hreports : Reports options process change) : (world.answerNew index pid newPid child change).Sound := by
  have hother : ¬ Ordinary process := by
    intro hordinary
    have hclear := h.clear child process hprocess hordinary (waitable_of_reports hreports)
    exact (hclear.calls pid newPid options' hcall).2 hpid.symm
  have hconsumed := h.consume_other hprocess hother change
  have hretired := hconsumed.retire newPid
  have hpid' : ¬ (world.consume child change).Awaited pid := fun hawaited =>
    ((hconsumed.clear_of_awaited hawaited).calls pid newPid options' hcall).1 rfl
  refine (hretired.reapPid hpid').tell_later index ?_ hprocess hother
  exact (laterOn_change world child (later_consumed change)).trans (laterOn_reapPid _ pid)

lemma sound_answerAny (hprocess : world.processes[child]? = some process) (hreports : Reports options process change) :
    (world.answerAny index process.pid child change).Sound := by
  have hwaitable := waitable_of_reports hreports
  -- what follows if the child is not ordinary: its pid is nobody else's
  have hlater : world.LaterOn (world.consume child change) := laterOn_change world child (later_consumed change)
  have hpids (hother : ¬ Ordinary process) : ¬ (world.consume child change).Awaited process.pid := by
    intro hawaited
    obtain ⟨before, hmem, hordinary, hwaitable', hsame⟩ := hlater.awaited hawaited
    obtain ⟨id, hbefore⟩ := mem_iff_getElem?.mp hmem
    obtain rfl := h.unique id child before process hbefore hprocess hwaitable' hwaitable hsame
    obtain rfl := Option.mem_unique hprocess hbefore
    exact hother hordinary
  have hmap : (world.consume child change).map = world.map := rfl
  unfold answerAny
  simp only [hmap]
  obtain ⟨hcase, hnone⟩ | ⟨pair, hnew, hretired, hperm, -, -⟩ := world.map.retireByNew_cases process.pid
  · rw [hcase]
    obtain ⟨hsuppressed, hburied, hmapped⟩ | hsuppressed := world.map.isSuppressedOld_cases process.pid
    · rw [hsuppressed]
      exact h.consume_tell index hprocess hreports
    have hseen : process.pid ∈ world.map.graveyard ∨ ∃ pair ∈ world.map.pairs, pair.1 = process.pid := by
      obtain ⟨-, hburied⟩ | ⟨-, hmapped⟩ := hsuppressed
      · exact .inl hburied
      · exact .inr hmapped
    have hother : ¬ Ordinary process := fun hordinary =>
      h.not_awaited hseen ⟨process, mem_of_getElem? hprocess, hordinary, hwaitable, rfl⟩
    have htrue : (world.map.isSuppressedOld process.pid).1 = true := by
      obtain ⟨hcase', -⟩ | ⟨hcase', -⟩ := hsuppressed <;> rw [hcase']
    simp only [htrue, if_true]
    exact (h.consume_other hprocess hother change).suppress (hpids hother)
  · have hother : ¬ Ordinary process := by
      intro hordinary
      have hclear := h.clear child process hprocess hordinary hwaitable
      exact (hclear.pairs pair (hperm.subset mem_cons_self)).2 hnew
    have hconsumed := (h.consume_other hprocess hother change).retire process.pid
    simp only [hretired]
    split
    · exact hconsumed.tell_later index hlater hprocess hother
    split
    · exact hconsumed.suppress (hpids hother)
    · exact (hconsumed.suppress (hpids hother)).tell_later index hlater hprocess hother

lemma sound_answer (outcome : Option (Nat × Change)) : (world.answer index outcome).Sound := by
  unfold answer
  split
  · exact h
  · exact h.unchanged rfl rfl fun _ _ hclear => hclear.same rfl (eraseIdx_subset ..)
  · next call child change hcall =>
    split
    · exact h
    · next process hprocess =>
      split
      · split
        · next hanswers => exact h.consume_tell index hprocess hanswers.2
        · exact h
      · next pid newPid options =>
        split
        · next hanswers =>
          split
          · next hpid => exact sound_answerNew h index (mem_of_getElem? hcall) hprocess hpid hanswers.2
          · exact h.consume_tell index hprocess hanswers.2
        · exact h
      · split
        · next hanswers => exact sound_answerAny h index hprocess hanswers.2
        · exact h

omit h

lemma sound_step (world : World) (event : Event) (h : world.Sound) (hcareful : world.Careful event) : (world.step event).Sound := by
  cases event with
  | fork pid => exact sound_fork h hcareful
  | respawn oldPid newPid killed => exact sound_respawn h hcareful
  | stop child
  | resume child => exact sound_change h child fun process hrunning => ⟨⟨rfl, rfl, rfl, id, id, fun _ => id⟩, by simp [Process.waitable, hrunning]⟩
  | exit child status =>
    refine sound_change h child fun process hrunning => ⟨⟨rfl, rfl, rfl, id, ?_, ?_⟩, rfl⟩
    · simp [Process.waitable, hrunning]
    · simp [hrunning]
  | wait pid options => exact sound_wait h pid options
  | answer index outcome => exact sound_answer h index outcome

lemma sound_initial : initial.Sound := by
  have hnone (id : Nat) : initial.processes[id]? = none := getElem?_nil
  constructor
  · intro i j p q hp
    exact absurd hp (by simp [hnone])
  · intro process hprocess
    cases hprocess
  · intro id process hprocess
    exact absurd hprocess (by simp [hnone])
  · intro id process hprocess
    exact absurd hprocess (by simp [hnone])
  · intro report hreport
    cases hreport

def noOptions : WaitOptions := ⟨false, false⟩

end World

end PortManager.Hook
