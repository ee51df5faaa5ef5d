import PortManager.Base.Run
import PortManager.Node.PortRouting
import PortManager.Node.Registry

/-!
# Restart, stop and removal of managed processes

Embeds `restartProcess`, `stopProcess`, `removeProcess` and `markExitedProcessStopped`
(`src/agent/port-manager-agent.ts`) with the children of the launcher (`src/platform/process/node-process-launcher.ts`)
as one state machine. `restartProcess` looks its row up and stops the old child before it waits for the exclusive
queue; the other calls do all their work inside it. Every place where a call can be suspended is a state of its
own. Launches succeed; the port the routing service decides on and the pid of a child come from outside.

A child that a restart has launched is accounted for when the running call is about to write its pid into a row or
a running row has its pid. A step loses no child exactly when it is careful (`restarted_children_accounted`).
-/

namespace PortManager.Node
open JsonText Run ManagedProcessRegistry InsertionMap List Option

/-! ## Profiles -/

/-- `AgentStartManagedProcessRequest` -/
structure LaunchProfile where
  name : List Nat
  command : List Nat
  cwd : List Nat
  requestedPort : Nat
  host : List Nat
  scanRange : Int
  scanDirection : ScanDirection
  routingMode : Option PortRoutingMode
  virtualPortRangeStart : Option Nat
  virtualPortRangeEnd : Option Nat

/-- `RestartProcessPayload` without the id. -/
structure RestartOptions where
  scanRange : Option Int
  scanDirection : Option ScanDirection
  routingMode : Option PortRoutingMode
  virtualPortRangeStart : Option Nat
  virtualPortRangeEnd : Option Nat

namespace LaunchProfile

variable (profile : LaunchProfile)

/-- `nextProfile` -/
def next (options : RestartOptions) : LaunchProfile :=
  { profile with
    scanRange := options.scanRange.getD profile.scanRange
    scanDirection := options.scanDirection.getD profile.scanDirection
    routingMode := options.routingMode.or profile.routingMode
    virtualPortRangeStart := options.virtualPortRangeStart.or profile.virtualPortRangeStart
    virtualPortRangeEnd := options.virtualPortRangeEnd.or profile.virtualPortRangeEnd }

/-- The request `restartProcess` passes to the routing service. -/
def routing : PortRoutingRequest where
  requestedPort := profile.requestedPort
  host := profile.host
  scanRange := profile.scanRange
  scanDirection := profile.scanDirection
  routingMode := profile.routingMode
  routeScope := some profile.cwd
  virtualPortRangeStart := profile.virtualPortRangeStart
  virtualPortRangeEnd := profile.virtualPortRangeEnd

/-- The routing service decides on one of its candidates. -/
def mayDecideOn (actualPort : Nat) : Bool :=
  match profile.routing.candidates with
  | .error _ => false
  | .ok candidates => actualPort ∈ candidates

end LaunchProfile

/-- The row after the `update` of a restart. -/
def ManagedProcess.relaunched (process : ManagedProcess) (profile : LaunchProfile) (actualPort : Nat) (pid : Int) :
    ManagedProcess :=
  { process with
    pid := pid
    name := profile.name
    command := profile.command
    cwd := profile.cwd
    actualPort := actualPort
    status := .running
    url := some (buildUrl profile.host actualPort)
    source := .managed }

/-! ## The launcher -/

structure Child where
  pid : Int
  /-- launched by `restartProcess` -/
  restarted : Bool
  /-- the daemon has signalled it -/
  signalled : Bool
  exited : Bool
deriving DecidableEq

def livePids (children : List Child) : List Int := (children.filter fun child => !child.exited).map (·.pid)

variable {change : Child → Child} {registry : ManagedProcessRegistry} {id other : List Nat}
    {pid : Int} {child : Child}

lemma livePids_map_sublist (hpid : ∀ child, (change child).pid = child.pid)
    (hexited : ∀ child, child.exited = true → (change child).exited = true) (children : List Child) :
    (livePids (children.map change)).Sublist (livePids children) := by
  induction children with
  | nil => exact .slnil
  | cons child children ih =>
    unfold livePids at ih ⊢
    rw [map_cons]
    cases hbefore : child.exited with
    | true => simpa [hbefore, hexited child hbefore] using ih
    | false =>
      cases hafter : (change child).exited with
      | true =>
        rw [filter_cons_of_neg (by simp [hafter]), filter_cons_of_pos (by simp [hbefore]), map_cons]
        exact ih.cons _
      | false =>
        rw [filter_cons_of_pos (by simp [hafter]), filter_cons_of_pos (by simp [hbefore]), map_cons,
          map_cons, hpid]
        exact ih.cons_cons _

/-- `NodeProcessLauncher`. Every child ever launched is listed; `childrenByPid` has those that have not exited. The
system does not give the pid of a live child to another one. -/
structure Launcher where
  children : List Child
  distinct : (livePids children).Nodup

namespace Launcher

/-- The live child of a pid is changed. -/
def changeChild (pid : Int) (change : Child → Child) (child : Child) : Child :=
  if child.pid = pid ∧ child.exited = false then change child else child

/-- `child.kill` in `stop`. -/
def signal (launcher : Launcher) (pid : Int) : Launcher where
  children := launcher.children.map (changeChild pid fun child => { child with signalled := true })
  distinct := by
    refine launcher.distinct.sublist (livePids_map_sublist (fun child => ?_) (fun child hexited => ?_) _)
    · unfold changeChild
      split <;> rfl
    · unfold changeChild
      split <;> exact hexited

def exit (launcher : Launcher) (pid : Int) : Launcher where
  children := launcher.children.map (changeChild pid fun child => { child with exited := true })
  distinct := by
    refine launcher.distinct.sublist (livePids_map_sublist (fun child => ?_) (fun child hexited => ?_) _)
    · unfold changeChild
      split <;> rfl
    unfold changeChild
    split
    · rfl
    · exact hexited

/-- `launch` by a restart, with the pid the system gives. -/
def launch (launcher : Launcher) (pid : Int) (hfresh : pid ∉ livePids launcher.children) : Launcher where
  children := launcher.children ++ [⟨pid, true, false, false⟩]
  distinct := by
    have hlive : livePids (launcher.children ++ [⟨pid, true, false, false⟩]) = livePids launcher.children ++ [pid] := by
      simp [livePids]
    rw [hlive]
    refine List.nodup_append'.mpr ⟨launcher.distinct, List.nodup_singleton _, ?_⟩
    rw [List.disjoint_singleton]
    exact hfresh

end Launcher

/-! ## The daemon -/

inductive QueuedCall where
  | restart (id : List Nat) (profile : LaunchProfile)
  | stop (id : List Nat)
  | remove (id : List Nat)
  /-- `markExitedProcessStopped` -/
  | exited (pid : Int)

inductive RunningCall where
  /-- a restart in `refreshReservedListeningPorts` or `routingService.route` -/
  | routing (id : List Nat) (profile : LaunchProfile)
  /-- a restart whose child is launched -/
  | launched (id : List Nat) (profile : LaunchProfile) (actualPort : Nat) (pid : Int)
  /-- a stop in `processLauncher.stop` -/
  | stopping (id : List Nat)

structure ProcessDaemon where
  registry : ManagedProcessRegistry
  launchProfilesByProcessId : InsertionMap (List Nat) LaunchProfile
  launcher : Launcher
  /-- the restarts in `processLauncher.stop` -/
  restarts : List (List Nat × LaunchProfile)
  queue : List QueuedCall
  running : Option RunningCall

/-- What happens next. `delivered` is what `child.kill` answers. -/
inductive ProcessEvent where
  | restart (id : List Nat) (options : RestartOptions) (delivered : Bool)
  | stop (id : List Nat)
  | remove (id : List Nat)
  | exit (pid : Int)
  /-- a restart goes on after `processLauncher.stop` -/
  | restartStopped (n : Nat)
  /-- the first queued call starts -/
  | begin (delivered : Bool)
  | routingFailed
  | launched (actualPort : Nat) (pid : Int)
  /-- the running restart goes on after `launch` -/
  | updated
  /-- the running stop goes on after `processLauncher.stop` -/
  | stopped

namespace ProcessDaemon

variable (daemon : ProcessDaemon)

/-- `processLauncher.stop`, which throws when the signal is not delivered. -/
def stopChild (pid : Int) (delivered : Bool) : Option ProcessDaemon :=
  if pid ∈ livePids daemon.launcher.children then
    if delivered then some { daemon with launcher := daemon.launcher.signal pid } else none
  else some daemon

/-- `restartProcess` up to its first suspension. -/
def restartProcess (id : List Nat) (options : RestartOptions) (delivered : Bool) : ProcessDaemon :=
  match daemon.registry.processesById.get? id, daemon.launchProfilesByProcessId.get? id with
  | some process, some profile =>
    if process.status = .stopped then { daemon with queue := daemon.queue ++ [.restart id (profile.next options)] }
    else
      match daemon.stopChild process.pid delivered with
      | none => daemon
      | some stopped => { stopped with restarts := daemon.restarts ++ [(id, profile.next options)] }
  | _, _ => daemon

/-- `restartProcess` after `processLauncher.stop`, up to the exclusive queue. -/
def restartStopped (n : Nat) : ProcessDaemon :=
  match daemon.restarts[n]? with
  | none => daemon
  | some (id, profile) =>
    let daemon := { daemon with restarts := daemon.restarts.eraseIdx n }
    -- `stop` of the registry throws for a row that is not there
    if id ∈ daemon.registry.processesById.keys then
      { daemon with registry := daemon.registry.stop id, queue := daemon.queue ++ [.restart id profile] }
    else daemon

/-- `stopProcessExclusive` up to its suspension. -/
def stopProcessExclusive (id : List Nat) (delivered : Bool) : ProcessDaemon :=
  match daemon.registry.processesById.get? id with
  | none => daemon
  | some process =>
    if process.status = .stopped then { daemon with registry := daemon.registry.stop id }
    else
      match daemon.stopChild process.pid delivered with
      | none => daemon
      | some stopped => { stopped with running := some (.stopping id) }

def removeProcessExclusive (id : List Nat) : ProcessDaemon :=
  { daemon with
    registry := daemon.registry.remove id
    launchProfilesByProcessId := daemon.launchProfilesByProcessId.delete id }

/-- The row `markExitedProcessStopped` finds. -/
def rowOfPid (pid : Int) : Option (List Nat × ManagedProcess) :=
  daemon.registry.processesById.entries.find? fun entry => entry.2.pid = pid

def markExitedProcessStopped (pid : Int) : ProcessDaemon :=
  match daemon.rowOfPid pid with
  | none => daemon
  | some entry =>
    if entry.2.status = .stopped then daemon else { daemon with registry := daemon.registry.stop entry.1 }

def begin (delivered : Bool) : QueuedCall → ProcessDaemon
  | .restart id profile => { daemon with running := some (.routing id profile) }
  | .stop id => daemon.stopProcessExclusive id delivered
  | .remove id => daemon.removeProcessExclusive id
  | .exited pid => daemon.markExitedProcessStopped pid

/-- One event. An event that is not due does nothing. -/
def step : ProcessEvent → ProcessDaemon
  | .restart id options delivered => daemon.restartProcess id options delivered
  | .stop id => { daemon with queue := daemon.queue ++ [.stop id] }
  | .remove id => { daemon with queue := daemon.queue ++ [.remove id] }
  | .exit pid =>
    if pid ∈ livePids daemon.launcher.children then
      { daemon with launcher := daemon.launcher.exit pid, queue := daemon.queue ++ [.exited pid] }
    else daemon
  | .restartStopped n => daemon.restartStopped n
  | .begin delivered =>
    match daemon.running, daemon.queue with
    | none, call :: queue => ({ daemon with queue } : ProcessDaemon).begin delivered call
    | _, _ => daemon
  | .routingFailed =>
    match daemon.running with
    | some (.routing _ _) => { daemon with running := none }
    | _ => daemon
  | .launched actualPort pid =>
    match daemon.running with
    | some (.routing id profile) =>
      if h : pid ∉ livePids daemon.launcher.children ∧ profile.mayDecideOn actualPort then
        { daemon with
          launcher := daemon.launcher.launch pid h.1
          running := some (.launched id profile actualPort pid) }
      else daemon
    | _ => daemon
  | .updated =>
    match daemon.running with
    | some (.launched id profile actualPort pid) =>
      -- the profile is stored before `update` throws for a row that is not there
      { daemon with
        launchProfilesByProcessId := daemon.launchProfilesByProcessId.set id profile
        registry := daemon.registry.replace id (·.relaunched profile actualPort pid)
        running := none }
    | _ => daemon
  | .stopped =>
    match daemon.running with
    | some (.stopping id) => { daemon with registry := daemon.registry.stop id, running := none }
    | _ => daemon

end ProcessDaemon

/-! ## Children and rows -/

def Child.Awake (child : Child) : Prop := child.restarted = true ∧ child.signalled = false ∧ child.exited = false

def ManagedProcessRegistry.Shows (registry : ManagedProcessRegistry) (id : List Nat) (pid : Int) : Prop :=
  ∃ process, (id, process) ∈ registry.processesById.entries ∧ process.status = .running ∧ process.pid = pid

lemma shows_replace {change : ManagedProcess → ManagedProcess} (hne : other ≠ id) :
    (registry.replace id change).Shows other pid ↔ registry.Shows other pid := by
  constructor
  · rintro ⟨process, hentry, hrow⟩
    rcases mem_replace.mp hentry with ⟨old, -, heq⟩ | ⟨hold, -⟩
    · exact absurd (Prod.mk.inj heq).1 hne
    · exact ⟨process, hold, hrow⟩
  · rintro ⟨process, hentry, hrow⟩
    exact ⟨process, mem_replace.mpr (.inr ⟨hentry, hne⟩), hrow⟩

lemma not_shows_stop (registry : ManagedProcessRegistry) (id : List Nat) (pid : Int) :
    ¬ (registry.stop id).Shows id pid := by
  rintro ⟨process, hentry, hrunning, -⟩
  rcases mem_replace.mp hentry with ⟨old, -, heq⟩ | ⟨-, hne⟩
  · rw [(Prod.mk.inj heq).2] at hrunning
    cases hrunning
  · exact hne rfl

lemma shows_remove : (registry.remove id).Shows other pid ↔ registry.Shows other pid ∧ other ≠ id := by
  constructor
  · rintro ⟨process, hentry, hrow⟩
    obtain ⟨hold, hne⟩ := mem_delete.mp hentry
    exact ⟨⟨process, hold, hrow⟩, hne⟩
  · rintro ⟨⟨process, hentry, hrow⟩, hne⟩
    exact ⟨process, mem_delete.mpr ⟨hentry, hne⟩, hrow⟩

lemma shows_relaunched {profile : LaunchProfile} {actualPort : Nat} {pid' : Int} :
    (registry.replace id (·.relaunched profile actualPort pid)).Shows id pid' ↔
      id ∈ registry.processesById.keys ∧ pid = pid' := by
  constructor
  · rintro ⟨process, hentry, -, hpid⟩
    rcases mem_replace.mp hentry with ⟨old, hold, heq⟩ | ⟨-, hne⟩
    · refine ⟨mem_keys_iff.mpr ⟨old, hold⟩, ?_⟩
      rw [(Prod.mk.inj heq).2] at hpid
      exact hpid
    · exact absurd rfl hne
  · rintro ⟨hkey, rfl⟩
    obtain ⟨old, hold⟩ := mem_keys_iff.mp hkey
    exact ⟨_, mem_replace.mpr (.inl ⟨old, hold, rfl⟩), rfl, rfl⟩

lemma awake_changeChild (hsleep : ∀ child, ¬ (change child).Awake)
    (hawake : (Launcher.changeChild pid change child).Awake) : Launcher.changeChild pid change child = child := by
  unfold Launcher.changeChild at hawake ⊢
  split
  next hcase =>
    rw [if_pos hcase] at hawake
    exact absurd hawake (hsleep child)
  next => rfl

variable {launcher : Launcher}

lemma awake_of_signal (hchild : child ∈ (launcher.signal pid).children) (hawake : child.Awake) :
    child ∈ launcher.children ∧ child.pid ≠ pid := by
  obtain ⟨old, hold, rfl⟩ := mem_map.mp hchild
  have hsame := awake_changeChild (fun child h => absurd h.2.1 (by simp)) hawake
  rw [hsame] at hawake ⊢
  refine ⟨hold, fun hpid => ?_⟩
  rw [Launcher.changeChild, if_pos ⟨hpid, hawake.2.2⟩] at hsame
  exact absurd ((congrArg Child.signalled hsame).trans hawake.2.1) (by simp)

lemma awake_of_exit (hchild : child ∈ (launcher.exit pid).children) (hawake : child.Awake) :
    child ∈ launcher.children := by
  obtain ⟨old, hold, rfl⟩ := mem_map.mp hchild
  rw [awake_changeChild (fun child h => absurd h.2.2 (by simp)) hawake]
  exact hold

namespace ProcessDaemon

variable (daemon : ProcessDaemon)

/-- The pid the running restart is about to write into its row. -/
def handed : Option Int :=
  match daemon.running with
  | some (.launched _ _ _ pid) => some pid
  | _ => none

/-- Every awake child is about to get a row or has a running one. -/
def Accounted : Prop :=
  ∀ child ∈ daemon.launcher.children, child.Awake →
    daemon.handed = some child.pid ∨ ∃ id, daemon.registry.Shows id child.pid

/-- Every awake child the row shows is also shown by another row, or about to get one. -/
def Spare (id : List Nat) : Prop :=
  ∀ child ∈ daemon.launcher.children, child.Awake → daemon.registry.Shows id child.pid →
    daemon.handed = some child.pid ∨ ∃ other, other ≠ id ∧ daemon.registry.Shows other child.pid

/-- The step takes no awake child's last row. A restart does so when it stops the row that another restart has given
a new child meanwhile, a removal when the child of the row has not been stopped, an exit when the system has given
the pid to a new child before the exit is handled, and the end of a restart when another restart has given the row
a new child, or when the row is gone. -/
def Careful : ProcessEvent → Prop
  | .restartStopped n => ∀ id profile, daemon.restarts[n]? = some (id, profile) → daemon.Spare id
  | .begin _ => daemon.running = none →
    (∀ id, daemon.queue.head? = some (.remove id) → daemon.Spare id) ∧
    (∀ pid entry, daemon.queue.head? = some (.exited pid) → daemon.rowOfPid pid = some entry → daemon.Spare entry.1)
  | .updated => ∀ id profile actualPort pid, daemon.running = some (.launched id profile actualPort pid) →
    daemon.Spare id ∧
    (∀ child ∈ daemon.launcher.children, child.Awake → child.pid = pid →
      id ∈ daemon.registry.processesById.keys ∨ ∃ other, daemon.registry.Shows other pid)
  | _ => True

/-- What holds besides: the child of the row that `stopProcess` is stopping is not awake. -/
structure Kept (daemon : ProcessDaemon) : Prop where
  accounted : daemon.Accounted
  stopping : ∀ id, daemon.running = some (.stopping id) → ∀ child ∈ daemon.launcher.children, child.Awake →
    ¬ daemon.registry.Shows id child.pid

variable {daemon : ProcessDaemon} {after : ProcessDaemon} {id : List Nat} {pid : Int}

/-- A row that shows nothing any more, with everything else as before. -/
lemma accounted_iff_spare (haccounted : daemon.Accounted)
    (hchildren : after.launcher.children = daemon.launcher.children)
    (hhanded : after.handed = daemon.handed) (hgone : ∀ pid, ¬ after.registry.Shows id pid)
    (hothers : ∀ other pid, other ≠ id → (after.registry.Shows other pid ↔ daemon.registry.Shows other pid)) :
    after.Accounted ↔ daemon.Spare id := by
  constructor
  · intro hafter child hchild hawake _
    rcases hafter child (hchildren ▸ hchild) hawake with hhand | ⟨other, hother⟩
    · exact .inl (hhanded ▸ hhand)
    · have hne : other ≠ id := fun heq => hgone _ (heq ▸ hother)
      exact .inr ⟨other, hne, (hothers other _ hne).mp hother⟩
  intro hspare child hchild hawake
  rw [hchildren] at hchild
  rw [hhanded]
  rcases haccounted child hchild hawake with hhand | ⟨shown, hshown⟩
  · exact .inl hhand
  rcases eq_or_ne shown id with rfl | hne
  · rcases hspare child hchild hawake hshown with hhand | ⟨other, hother, hshows⟩
    · exact .inl hhand
    · exact .inr ⟨other, (hothers other _ hother).mpr hshows⟩
  · exact .inr ⟨shown, (hothers shown _ hne).mpr hshown⟩

lemma accounted_stop_iff (haccounted : daemon.Accounted) (after : ProcessDaemon)
    (hchildren : after.launcher.children = daemon.launcher.children)
    (hhanded : after.handed = daemon.handed) (hregistry : after.registry = daemon.registry.stop id) :
    after.Accounted ↔ daemon.Spare id := by
  refine accounted_iff_spare haccounted hchildren hhanded ?_ ?_
  · rw [hregistry]
    exact not_shows_stop _ id
  · rw [hregistry]
    exact fun other pid hne => shows_replace hne

lemma Accounted.asleep (haccounted : daemon.Accounted)
    (hchildren : ∀ child ∈ after.launcher.children, child.Awake → child ∈ daemon.launcher.children)
    (hhanded : daemon.handed = none ∨ after.handed = daemon.handed)
    (hregistry : after.registry = daemon.registry) : after.Accounted := by
  intro child hchild hawake
  rcases haccounted child (hchildren child hchild hawake) hawake with hhand | hshown
  · rcases hhanded with hnone | hsame
    · rw [hnone] at hhand
      cases hhand
    · exact .inl (hsame ▸ hhand)
  · exact .inr (hregistry ▸ hshown)

lemma stopChild_eq_some {delivered : Bool} (h : daemon.stopChild pid delivered = some after) :
    after = { daemon with launcher := after.launcher } ∧
      ∀ child ∈ after.launcher.children, child.Awake → child ∈ daemon.launcher.children ∧ child.pid ≠ pid := by
  unfold stopChild at h
  split at h
  next hlive =>
    cases delivered with
    | false => cases h
    | true =>
      cases h
      exact ⟨rfl, fun child hchild hawake => awake_of_signal hchild hawake⟩
  next hlive =>
    cases h
    refine ⟨rfl, fun child hchild hawake => ⟨hchild, fun hpid => hlive ?_⟩⟩
    refine mem_map.mpr ⟨child, mem_filter.mpr ⟨hchild, ?_⟩, hpid⟩
    rw [hawake.2.2]
    rfl

/-- What a step leaves: every awake child is accounted for if the step is careful and only then, and the child of the row that is
being stopped is not awake. -/
structure Meets (after : ProcessDaemon) (careful : Prop) : Prop where
  accounted_iff : after.Accounted ↔ careful
  stopping : ∀ id, after.running = some (.stopping id) → ∀ child ∈ after.launcher.children, child.Awake →
    ¬ after.registry.Shows id child.pid

variable {careful : Prop}

lemma Kept.meets (h : after.Kept) (hcareful : careful) : after.Meets careful := ⟨iff_of_true h.accounted hcareful, h.stopping⟩

lemma shows_of_stop (h : (registry.stop id).Shows other pid) : registry.Shows other pid := by
  rcases eq_or_ne other id with rfl | hne
  · exact absurd h (not_shows_stop registry other pid)
  · exact (shows_replace hne).mp h

/-- A row is stopped. -/
lemma Kept.stop_meets (hkept : daemon.Kept) (hchildren : after.launcher.children = daemon.launcher.children)
    (hrunning : after.running = daemon.running) (hregistry : after.registry = daemon.registry.stop id) :
    after.Meets (daemon.Spare id) := by
  have hhanded : after.handed = daemon.handed := by rw [handed, handed, hrunning]
  refine ⟨accounted_stop_iff hkept.accounted after hchildren hhanded hregistry, fun other hstopping child hchild hawake hshown => ?_⟩
  rw [hregistry] at hshown
  exact hkept.stopping other (hrunning ▸ hstopping) child (hchildren ▸ hchild) hawake (shows_of_stop hshown)

/-! ## One call -/

lemma Kept.restartProcess (hkept : daemon.Kept) (id : List Nat) (options : RestartOptions) (delivered : Bool) :
    (daemon.restartProcess id options delivered).Kept := by
  unfold ProcessDaemon.restartProcess
  split
  next process profile _ _ =>
    split
    · exact ⟨hkept.accounted, hkept.stopping⟩
    split
    · exact hkept
    next after hstopped =>
      obtain ⟨hafter, hasleep⟩ := stopChild_eq_some hstopped
      have hbefore := fun child hchild hawake => (hasleep child hchild hawake).1
      rw [hafter]
      refine ⟨hkept.accounted.asleep hbefore (.inr rfl) rfl, fun other hrunning child hchild hawake => ?_⟩
      exact hkept.stopping other hrunning child (hbefore child hchild hawake) hawake
  next => exact hkept

lemma restartStopped_meets (hkept : daemon.Kept) (n : Nat) :
    (daemon.restartStopped n).Meets (∀ id profile, daemon.restarts[n]? = some (id, profile) → daemon.Spare id) := by
  unfold restartStopped
  cases hwaiting : daemon.restarts[n]? with
  | none => exact hkept.meets fun _ _ h => absurd h (some_ne_none _).symm
  | some waiting =>
    obtain ⟨id, profile⟩ := waiting
    have hwanted : (∀ id' profile', some (id, profile) = some (id', profile') → daemon.Spare id') ↔ daemon.Spare id := by
      constructor
      · exact fun h => h id profile rfl
      · intro h id' profile' heq
        exact (Prod.mk.inj (some.inj heq)).1 ▸ h
    rw [hwanted]
    dsimp only
    split
    · exact hkept.stop_meets rfl rfl rfl
    next hmissing =>
      -- no row, so none to spare
      refine Kept.meets ⟨hkept.accounted, hkept.stopping⟩ fun child _ _ hshown => ?_
      obtain ⟨process, hentry, -⟩ := hshown
      exact absurd (mem_keys_iff.mpr ⟨process, hentry⟩) hmissing

lemma Kept.stopProcessExclusive (hkept : daemon.Kept) (hrunning : daemon.running = none) (id : List Nat)
    (delivered : Bool) : (daemon.stopProcessExclusive id delivered).Kept := by
  have hhanded : daemon.handed = none := by rw [handed, hrunning]
  unfold ProcessDaemon.stopProcessExclusive
  split
  · exact hkept
  next process hprocess =>
    have hrow : ∀ pid, daemon.registry.Shows id pid → process.status = .running ∧ process.pid = pid := by
      rintro pid ⟨found, hentry, hshown⟩
      obtain rfl := value_unique hentry (get?_eq_some_iff.mp hprocess)
      exact hshown
    split
    next hstatus =>
      -- the row was stopped already
      have hspare : daemon.Spare id := fun child _ _ hshown =>
        absurd (hstatus.symm.trans (hrow _ hshown).1) (by simp)
      have haccounted := (accounted_stop_iff hkept.accounted { daemon with registry := daemon.registry.stop id }
        rfl rfl rfl).mpr hspare
      exact ⟨haccounted, fun other hstopping =>
        absurd (hrunning.symm.trans hstopping) (some_ne_none _).symm⟩
    · split
      · exact hkept
      next after hstopped =>
        obtain ⟨hafter, hasleep⟩ := stopChild_eq_some hstopped
        rw [hafter]
        refine ⟨hkept.accounted.asleep (fun child hchild hawake => (hasleep child hchild hawake).1) (.inl hhanded) rfl,
          fun other hstopping child hchild hawake hshown => ?_⟩
        obtain rfl : id = other := RunningCall.stopping.inj (some.inj hstopping)
        exact (hasleep child hchild hawake).2 (hrow _ hshown).2.symm

lemma markExited_meets (hkept : daemon.Kept) (pid : Int) :
    (daemon.markExitedProcessStopped pid).Meets (∀ entry, daemon.rowOfPid pid = some entry → daemon.Spare entry.1) := by
  unfold markExitedProcessStopped
  cases hrow : daemon.rowOfPid pid with
  | none => exact hkept.meets fun _ h => absurd h (some_ne_none _).symm
  | some entry =>
    have hwanted : (∀ entry', some entry = some entry' → daemon.Spare entry'.1) ↔ daemon.Spare entry.1 := by
      constructor
      · exact fun h => h entry rfl
      · exact fun h entry' heq => some.inj heq ▸ h
    rw [hwanted]
    dsimp only
    split
    next hstatus =>
      refine hkept.meets fun child _ _ hshown => ?_
      obtain ⟨process, hentry, hrunning, -⟩ := hshown
      obtain rfl := value_unique hentry (mem_of_find?_eq_some hrow)
      exact absurd (hstatus.symm.trans hrunning) (by simp)
    · exact hkept.stop_meets rfl rfl rfl

lemma updated_accounted_iff (haccounted : daemon.Accounted) {profile : LaunchProfile}
    {actualPort : Nat} (hrunning : daemon.running = some (.launched id profile actualPort pid)) :
    (daemon.step .updated).Accounted ↔ daemon.Careful .updated := by
  have hhanded : daemon.handed = some pid := by rw [handed, hrunning]
  have hcareful : daemon.Careful .updated ↔ daemon.Spare id ∧
      ∀ child ∈ daemon.launcher.children, child.Awake → child.pid = pid →
        id ∈ daemon.registry.processesById.keys ∨ ∃ other, daemon.registry.Shows other pid := by
    constructor
    · exact fun h => h id profile actualPort pid hrunning
    intro h id' profile' actualPort' pid' heq
    obtain ⟨rfl, -, -, rfl⟩ := RunningCall.launched.inj (mem_unique hrunning heq)
    exact h
  rw [hcareful]
  unfold step
  rw [hrunning]
  constructor
  · intro hafter
    constructor
    · intro child hchild hawake hshown
      rcases hafter child hchild hawake with hnone | ⟨other, hother⟩
      · cases hnone
      rcases eq_or_ne other id with rfl | hne
      · rw [hhanded, (shows_relaunched.mp hother).2]
        exact .inl rfl
      · exact .inr ⟨other, hne, (shows_replace hne).mp hother⟩
    · intro child hchild hawake hpid
      rcases hafter child hchild hawake with hnone | ⟨other, hother⟩
      · cases hnone
      rcases eq_or_ne other id with rfl | hne
      · exact .inl (shows_relaunched.mp hother).1
      · exact .inr ⟨other, hpid ▸ (shows_replace hne).mp hother⟩
  · rintro ⟨hspare, hthere⟩ child hchild hawake
    refine .inr ?_
    -- the child gets the row, or it is shown by a row that stays
    have hgets : child.pid = pid → id ∈ daemon.registry.processesById.keys →
        ∃ other, (daemon.registry.replace id (·.relaunched profile actualPort pid)).Shows other child.pid :=
      fun hpid hkey => ⟨id, shows_relaunched.mpr ⟨hkey, hpid.symm⟩⟩
    have hstays : ∀ other, other ≠ id → daemon.registry.Shows other child.pid →
        ∃ other, (daemon.registry.replace id (·.relaunched profile actualPort pid)).Shows other child.pid :=
      fun other hne hshown => ⟨other, (shows_replace hne).mpr hshown⟩
    have hkey : ∀ found, daemon.registry.Shows id found → id ∈ daemon.registry.processesById.keys :=
      fun found hshown => mem_keys_iff.mpr ⟨hshown.choose, hshown.choose_spec.1⟩
    have hhand : daemon.handed = some child.pid → child.pid = pid := fun h => mem_unique h hhanded
    rcases haccounted child hchild hawake with hmine | ⟨shown, hshown⟩
    · have hpid := hhand hmine
      rcases hthere child hchild hawake hpid with hrow | ⟨other, hother⟩
      · exact hgets hpid hrow
      rcases eq_or_ne other id with rfl | hne
      · exact hgets hpid (hkey pid hother)
      · exact hstays other hne (hpid ▸ hother)
    · rcases eq_or_ne shown id with rfl | hne
      · rcases hspare child hchild hawake hshown with hmine | ⟨other, hne, hother⟩
        · exact hgets (hhand hmine) (hkey child.pid hshown)
        · exact hstays other hne hother
      · exact hstays shown hne hshown

/-! ## One event -/

lemma begin_meets (hkept : daemon.Kept) (delivered : Bool) :
    (daemon.step (.begin delivered)).Meets (daemon.Careful (.begin delivered)) := by
  unfold step Careful
  dsimp only
  split
  next call queue hrunning hqueue =>
    have hkeptNow : ({ daemon with queue } : ProcessDaemon).Kept := ⟨hkept.accounted, hkept.stopping⟩
    rw [imp_iff_right hrunning, hqueue, head?_cons]
    cases call with
    | restart id profile =>
      have hafter : ({ daemon with queue, running := some (.routing id profile) } : ProcessDaemon).Accounted :=
        hkeptNow.accounted.asleep (fun _ h _ => h) (.inl (by rw [handed, hrunning])) rfl
      refine ⟨iff_of_true hafter ?_, fun _ h => RunningCall.noConfusion (some.inj h)⟩
      exact ⟨fun _ h => QueuedCall.noConfusion (some.inj h), fun _ _ h => QueuedCall.noConfusion (some.inj h)⟩
    | stop id =>
      refine (hkeptNow.stopProcessExclusive hrunning id delivered).meets ?_
      exact ⟨fun _ h => QueuedCall.noConfusion (some.inj h), fun _ _ h => QueuedCall.noConfusion (some.inj h)⟩
    | remove id =>
      have hiff : (({ daemon with queue } : ProcessDaemon).begin delivered (.remove id)).Accounted ↔ daemon.Spare id :=
        accounted_iff_spare hkept.accounted rfl rfl (fun pid hshown => (shows_remove.mp hshown).2 rfl)
          fun other pid hne => shows_remove.trans (and_iff_left hne)
      refine ⟨hiff.trans ?_, fun _ h => absurd (hrunning.symm.trans h) (some_ne_none _).symm⟩
      constructor
      · intro hspare
        refine ⟨fun other heq => ?_, fun _ _ h => QueuedCall.noConfusion (some.inj h)⟩
        exact QueuedCall.remove.inj (some.inj heq) ▸ hspare
      · exact fun h => h.1 id rfl
    | exited pid =>
      have hmeets := markExited_meets hkeptNow pid
      refine ⟨hmeets.accounted_iff.trans ?_, hmeets.stopping⟩
      constructor
      · intro hspare
        refine ⟨fun _ h => QueuedCall.noConfusion (some.inj h), fun pid' entry heq hrow => ?_⟩
        cases heq
        exact hspare entry hrow
      · exact fun h entry hrow => h.2 pid entry rfl hrow
  next hnot =>
    refine hkept.meets fun hrunning => ?_
    -- nothing is queued
    cases hqueue : daemon.queue with
    | nil =>
      exact ⟨fun _ h => absurd h (some_ne_none _).symm, fun _ _ h => absurd h (some_ne_none _).symm⟩
    | cons call queue => exact absurd hqueue (hnot call queue hrunning)

lemma Accounted.launched (haccounted : daemon.Accounted) {profile : LaunchProfile}
    (hrunning : daemon.running = some (.routing id profile)) (actualPort : Nat)
    (hfresh : pid ∉ livePids daemon.launcher.children) :
    ({ daemon with
        launcher := daemon.launcher.launch pid hfresh
        running := some (.launched id profile actualPort pid) } : ProcessDaemon).Accounted := by
  intro child hchild hawake
  rcases mem_append.mp hchild with hold | hnew
  · rcases haccounted child hold hawake with hhand | hshown
    · rw [handed, hrunning] at hhand
      cases hhand
    · exact .inr hshown
  · rw [mem_singleton.mp hnew]
    exact .inl rfl

/-- An event loses no child exactly when it is careful. -/
lemma step_meets (hkept : daemon.Kept) (event : ProcessEvent) : (daemon.step event).Meets (daemon.Careful event) := by
  cases event with
  | restart id options delivered => exact (hkept.restartProcess id options delivered).meets trivial
  | stop id | remove id => exact Kept.meets ⟨hkept.accounted, hkept.stopping⟩ trivial
  | exit pid =>
    unfold step
    dsimp only
    split
    · refine Kept.meets ⟨?_, fun id hrunning child hchild hawake => ?_⟩ trivial
      · exact hkept.accounted.asleep (fun child hchild hawake => awake_of_exit hchild hawake) (.inr rfl) rfl
      · exact hkept.stopping id hrunning child (awake_of_exit hchild hawake) hawake
    · exact hkept.meets trivial
  | restartStopped n => exact restartStopped_meets hkept n
  | begin delivered => exact begin_meets hkept delivered
  | routingFailed =>
    unfold step
    dsimp only
    split
    next hrunning =>
      refine Kept.meets ⟨?_, fun _ h => absurd h (some_ne_none _).symm⟩ trivial
      exact hkept.accounted.asleep (fun _ h _ => h) (.inl (by rw [handed, hrunning])) rfl
    next => exact hkept.meets trivial
  | launched actualPort pid =>
    unfold step
    dsimp only
    split
    next id profile hrunning =>
      split
      next hfresh =>
        refine Kept.meets ⟨?_, fun _ h => RunningCall.noConfusion (some.inj h)⟩ trivial
        exact hkept.accounted.launched hrunning actualPort hfresh.1
      next => exact hkept.meets trivial
    next => exact hkept.meets trivial
  | updated =>
    by_cases hrunning : ∃ id profile actualPort pid, daemon.running = some (.launched id profile actualPort pid)
    · obtain ⟨id, profile, actualPort, pid, hrunning⟩ := hrunning
      refine ⟨updated_accounted_iff hkept.accounted hrunning, ?_⟩
      unfold step
      rw [hrunning]
      exact fun _ h => absurd h (some_ne_none _).symm
    have hsame : daemon.step .updated = daemon := by
      unfold step
      dsimp only
      split
      next id profile actualPort pid h => exact absurd ⟨id, profile, actualPort, pid, h⟩ hrunning
      next => rfl
    rw [hsame]
    exact hkept.meets fun id profile actualPort pid h => absurd ⟨id, profile, actualPort, pid, h⟩ hrunning
  | stopped =>
    unfold step
    dsimp only
    split
    next id hrunning =>
      have hspare : daemon.Spare id := fun child hchild hawake hshown =>
        absurd hshown (hkept.stopping id hrunning child hchild hawake)
      have hhanded : daemon.handed = none := by rw [handed, hrunning]
      refine Kept.meets ⟨?_, fun _ h => absurd h (some_ne_none _).symm⟩ trivial
      exact (accounted_stop_iff hkept.accounted { daemon with registry := daemon.registry.stop id, running := none } rfl
        hhanded.symm rfl).mpr hspare
    next => exact hkept.meets trivial

def Settled (daemon : ProcessDaemon) : Prop := daemon.restarts = [] ∧ daemon.queue = [] ∧ daemon.running = none

end ProcessDaemon

open ProcessDaemon

/-! ## Whole runs -/

/-- A daemon without calls that has restarted no process yet. -/
structure IdleDaemon where
  registry : ManagedProcessRegistry
  launchProfilesByProcessId : InsertionMap (List Nat) LaunchProfile
  launcher : Launcher
  started : ∀ child ∈ launcher.children, child.restarted = false

def IdleDaemon.daemon (idle : IdleDaemon) : ProcessDaemon :=
  ⟨idle.registry, idle.launchProfilesByProcessId, idle.launcher, [], [], none⟩

lemma IdleDaemon.kept (idle : IdleDaemon) : idle.daemon.Kept where
  accounted := fun child hchild hawake => absurd (hawake.1.symm.trans (idle.started child hchild)) (by simp)
  stopping := fun _ h => absurd h (some_ne_none _).symm

/-- Along a run every awake child is accounted for exactly when every step is careful. After such a run, once every
call has settled, every child a restart has launched that has neither exited nor been signalled is the pid of a
running row. -/
theorem restarted_children_accounted (idle : IdleDaemon) (events : List ProcessEvent) :
    ((∀ done rest, events = done ++ rest → (run step idle.daemon done).Accounted) ↔
      StepsMeet step Careful idle.daemon events) ∧
    (StepsMeet step Careful idle.daemon events →
      (run step idle.daemon events).Settled →
      ∀ child ∈ (run step idle.daemon events).launcher.children,
        child.restarted = true → child.exited = false → child.signalled = false →
        ∃ entry ∈ (run step idle.daemon events).registry.processesById.entries,
          entry.2.status = .running ∧ entry.2.pid = child.pid) := by
  have hiff : (∀ done rest, events = done ++ rest → (run step idle.daemon done).Accounted) ↔
      StepsMeet step Careful idle.daemon events := by
    refine forall_reached_iff_of_invariant (J := Kept) (fun _ hkept => hkept.accounted) ?_ ?_ idle.kept
    · intro daemon event hkept hcareful
      exact ⟨(step_meets hkept event).accounted_iff.mpr hcareful, (step_meets hkept event).stopping⟩
    · exact fun daemon event hkept => (step_meets hkept event).accounted_iff.mp
  refine ⟨hiff, fun hcareful hsettled child hchild hrestarted hexited hsignalled => ?_⟩
  have haccounted := hiff.mpr hcareful events [] (append_nil _).symm
  rcases haccounted child hchild ⟨hrestarted, hsignalled, hexited⟩ with hhand | ⟨id, process, hentry, hrow⟩
  · rw [handed, hsettled.2.2] at hhand
    cases hhand
  · exact ⟨(id, process), hentry, hrow⟩

/-! ## Two restarts of one row -/

def managedServer : RegisteredProcessInput :=
  ⟨1, codes "web", codes "web", codes "/w", 3000, 3000, codes "127.0.0.1", none, none, none, none, none⟩

def serverProfile : LaunchProfile :=
  ⟨codes "web", codes "web", codes "/w", 3000, codes "127.0.0.1", 10, .up, none, none, none⟩

def serverStarted : IdleDaemon where
  registry := ManagedProcessRegistry.empty.register managedServer .managed (codes "localhost")
  launchProfilesByProcessId := InsertionMap.empty.set (processId 1) serverProfile
  launcher := ⟨[⟨1, false, false, false⟩], by decide⟩
  started := by decide

/-- The second restart is called while the first one waits for its launch. -/
def restartTwice : List ProcessEvent :=
  [.restart (processId 1) ⟨none, none, none, none, none⟩ true, .restartStopped 0, .begin true, .exit 1,
    .restart (processId 1) ⟨none, none, none, none, none⟩ true, .launched 3000 2, .updated,
    .begin true, .begin true, .launched 3001 3, .updated]

/-- The child of the first restart runs on, unsignalled and without a row. -/
theorem first_restart_orphaned :
    (run step serverStarted.daemon restartTwice).Settled ∧
      (⟨2, true, false, false⟩ : Child) ∈ (run step serverStarted.daemon restartTwice).launcher.children ∧
      (run step serverStarted.daemon restartTwice).registry.processesById.entries.map
        (fun entry => (entry.2.pid, entry.2.status)) = [(3, .running)] := by
  refine ⟨⟨rfl, ?_, rfl⟩, ?_, ?_⟩
  · rfl
  · decide +kernel
  · decide +kernel

/-! ## Which row an exit stops -/

/-- What changes the rows: a process is started, with the port and the pid it gets; an external process is registered;
a restart updates its row; a process is stopped or removed; the launcher reports an exit. -/
inductive RowEvent where
  | start (profile : LaunchProfile) (actualPort : Nat) (pid : Int)
  | register (input : RegisteredProcessInput)
  | restarted (id : List Nat) (profile : LaunchProfile) (actualPort : Nat) (pid : Int)
  | stop (id : List Nat)
  | remove (id : List Nat)
  | exit (pid : Int)

def daemonOf (registry : ManagedProcessRegistry) : ProcessDaemon := ⟨registry, .empty, ⟨[], .nil⟩, [], [], none⟩

/-- The input `startManagedProcessExclusive` registers. -/
def LaunchProfile.started (profile : LaunchProfile) (actualPort : Nat) (pid : Int) : RegisteredProcessInput :=
  ⟨pid, profile.name, profile.command, profile.cwd, profile.requestedPort, actualPort, profile.host, none, none, none,
    none, none⟩

def rowStep (defaultHost : List Nat) (state : RouteRegistry) : RowEvent → RouteRegistry
  | .start profile actualPort pid =>
    { state with registry := state.registry.register (profile.started actualPort pid) .managed defaultHost }
  | .register input => (state.registerExistingProcess defaultHost input).2
  | .restarted id profile actualPort pid =>
    { state with registry := state.registry.replace id (·.relaunched profile actualPort pid) }
  | .stop id => { state with registry := state.registry.stop id }
  | .remove id => { state with registry := state.registry.remove id }
  | .exit pid => { state with registry := ((daemonOf state.registry).markExitedProcessStopped pid).registry }

lemma markExited_kept {daemon : ProcessDaemon} {row : List Nat × ManagedProcess}
    (hrow : row ∈ daemon.registry.processesById.entries)
    (hother : ∀ entry, daemon.rowOfPid pid = some entry → entry.1 ≠ row.1) :
    row ∈ (daemon.markExitedProcessStopped pid).registry.processesById.entries := by
  unfold markExitedProcessStopped
  split
  · exact hrow
  next entry hentry =>
    split
    · exact hrow
    · exact mem_replace.mpr (.inr ⟨hrow, (hother entry hentry).symm⟩)

/-- After any history, the exit of the child of a running row stops this row and leaves every other one as it was, exactly
when no row listed before it has the pid. -/
theorem exit_stops_its_row_iff (defaultHost : List Nat) (events : List RowEvent) (id : List Nat) (process : ManagedProcess)
    (hrow : (id, process) ∈ (run (rowStep defaultHost) ⟨.empty, .empty⟩ events).registry.processesById.entries)
    (hrunning : process.status = .running) :
    let before := (run (rowStep defaultHost) ⟨.empty, .empty⟩ events).registry.processesById.entries
    let after := (run (rowStep defaultHost) ⟨.empty, .empty⟩ (events ++ [.exit process.pid])).registry.processesById.entries
    ((∃ stopped, (id, stopped) ∈ after ∧ stopped.status = .stopped) ∧ ∀ entry ∈ before, entry.1 ≠ id → entry ∈ after) ↔
      ∃ front back, before = front ++ (id, process) :: back ∧ ∀ entry ∈ front, entry.2.pid ≠ process.pid := by
  rw [run_append]
  generalize run (rowStep defaultHost) ⟨.empty, .empty⟩ events = state at hrow
  intro before after
  have hfirst : (∃ front back, before = front ++ (id, process) :: back ∧ ∀ entry ∈ front, entry.2.pid ≠ process.pid) ↔
      (daemonOf state.registry).rowOfPid process.pid = some (id, process) := by
    simp [rowOfPid, find?_eq_some_iff_append, before, daemonOf]
  rw [hfirst]
  by_cases hfind : (daemonOf state.registry).rowOfPid process.pid = some (id, process)
  · have hafter : after = (state.registry.stop id).processesById.entries := by
      simp only [after, run_cons, run_nil, rowStep, markExitedProcessStopped, hfind, hrunning]
      rfl
    rw [hafter]
    refine iff_of_true ⟨?_, fun entry hentry hne => mem_replace.mpr (.inr ⟨hentry, hne⟩)⟩ hfind
    exact ⟨_, mem_replace.mpr (.inl ⟨process, hrow, rfl⟩), rfl⟩
  · refine iff_of_false ?_ hfind
    rintro ⟨⟨stopped, hstopped, hstatus⟩, -⟩
    have hkept : (id, process) ∈
        ((daemonOf state.registry).markExitedProcessStopped process.pid).registry.processesById.entries := by
      refine markExited_kept hrow fun entry hentry hid => hfind ?_
      obtain ⟨key, found⟩ := entry
      obtain rfl : key = id := hid
      rw [hentry, value_unique (mem_of_find?_eq_some hentry) hrow]
    rw [value_unique hstopped hkept, hrunning] at hstatus
    cases hstatus

/-- A registered server, then one that the daemon starts. -/
theorem exit_stops_its_row_managed :
    (∃ stopped, (processId 2, stopped) ∈ (run (rowStep (codes "localhost")) ⟨.empty, .empty⟩
        [.register { managedServer with pid := 5 }, .start serverProfile 3001 7, .exit 7]).registry.processesById.entries ∧
      stopped.status = .stopped) :=
  ((exit_stops_its_row_iff (codes "localhost") [.register { managedServer with pid := 5 }, .start serverProfile 3001 7]
    (processId 2) _ (mem_of_getElem? (i := 1) rfl) rfl).mpr ⟨[_], [], rfl, by decide +kernel⟩).1

/-- The system gives the pid of an exited child to the next one: its row stays running after it has exited. -/
theorem reused_pid_stays_running :
    (run (rowStep (codes "localhost")) ⟨.empty, .empty⟩
        [.start serverProfile 3000 7, .exit 7, .start serverProfile 3000 7, .exit 7]).registry.processesById.entries.map
      (fun entry => (entry.1, entry.2.pid, entry.2.status)) =
        [(processId 1, 7, .stopped), (processId 2, 7, .running)] := by
  decide +kernel

end PortManager.Node
