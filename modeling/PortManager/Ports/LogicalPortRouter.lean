import PortManager.Base.InsertionMap
import PortManager.Base.Run

/-!
# The logical port router

Embeds `LogicalPortRouterManager` of `platform/ports/logical-port-router.ts`: `sync`, `open`, `close`, `releaseAll`, `dispose` and
the retire timers. The manager is asynchronous. A call runs up to its next `await` and leaves a task that an event resumes with
what the host answered: whether the native helper took the port, whether a server could listen, whether a close was confirmed,
which native listeners are active. Any task may be resumed next, so a list of events is an interleaving.

A `net.Server` is the number of its creation. It stops listening as soon as its handle is closed; only the promise of the close is
settled later. Listeners of the native helper are sockets of another process, so their handle has no server.
-/

namespace PortManager.Ports
open Run List

/-! ## State -/

/-- The entries of `LOOPBACK_LISTEN_TARGETS`. -/
inductive LoopbackListenTarget where
  | ipv4
  | ipv6
deriving DecidableEq

def loopbackListenTargets : List LoopbackListenTarget := [.ipv4, .ipv6]

/-- Who awaits an `open`: nobody of the manager, or a `sync` of a generation that has further ports to open. -/
inductive Opener where
  | direct
  | sync (generation : Nat) (ports : List Nat)
deriving DecidableEq

/-- The `await` of `open` that is pending, with the targets to come and the servers that listen already. -/
inductive OpenPhase where
  | native
  | listening (server : Nat) (rest : List LoopbackListenTarget) (servers : List Nat)
  | failing (rest : List LoopbackListenTarget) (servers : List Nat)
deriving DecidableEq

inductive Task where
  /-- `open` awaits the native helper, a `listen` or the close of a server that failed to listen. -/
  | opening (opener : Opener) (port : Nat) (phase : OpenPhase)
  /-- `sync` goes on after its `open` returned or threw. -/
  | opened (generation : Nat) (port : Nat) (success : Bool) (ports : List Nat)
  /-- `sync` awaits the close of an inactive listener. -/
  | sweeping (generation : Nat) (entries : List (Nat × List Nat)) (desiredPorts : List Nat)
  /-- A close is awaited and nothing is done after it. -/
  | closing
deriving DecidableEq

/-- The manager, its tasks, the servers it created and those that listen. `released` tells whether `releaseAll` was called and no
`sync` since. -/
structure LogicalPortRouterManager where
  listeners : InsertionMap Nat (List Nat)
  ownershipGeneration : Nat
  disposed : Bool
  retireTimers : List Nat
  tasks : List Task
  created : Nat
  listening : List Nat
  released : Bool

structure Answer where
  native : Bool
  success : Bool
  active : Nat → Bool

namespace LogicalPortRouterManager

def new : LogicalPortRouterManager where
  listeners := .empty
  ownershipGeneration := 0
  disposed := false
  retireTimers := []
  tasks := []
  created := 0
  listening := []
  released := false

/-! ## Calls -/

variable (manager : LogicalPortRouterManager)

def await (task : Task) : LogicalPortRouterManager :=
  { manager with tasks := manager.tasks ++ [task] }

variable (port : Nat)

def cancelRetire : LogicalPortRouterManager :=
  { manager with retireTimers := manager.retireTimers.filter (· ≠ port) }

def scheduleRetire : LogicalPortRouterManager :=
  if port ∈ manager.retireTimers then manager else { manager with retireTimers := manager.retireTimers ++ [port] }

/-- TypeScript `close`, up to its `await`: the servers of the handle stop listening. -/
def close : LogicalPortRouterManager :=
  let manager := manager.cancelRetire port
  match manager.listeners.get? port with
  | none => manager
  | some servers =>
    { manager with
      listeners := manager.listeners.delete port
      listening := manager.listening.filter (· ∉ servers) }

/-- `this.listeners.set`. -/
def store (servers : List Nat) : LogicalPortRouterManager :=
  { manager with listeners := manager.listeners.set port servers }

variable (opener : Opener)

/-- `open` returns or throws. -/
def finishOpen (port : Nat) (success : Bool) : LogicalPortRouterManager :=
  match opener with
  | .direct => manager
  | .sync generation ports => manager.await (.opened generation port success ports)

/-- The loop of `open` over the listen targets, up to its next `await` or its end. -/
def listenNext (port : Nat) (servers : List Nat) :
    List LoopbackListenTarget → LogicalPortRouterManager
  | [] =>
    if servers = [] then manager.finishOpen opener port false
    else (manager.store port servers).finishOpen opener port true
  | _ :: rest =>
    { manager with created := manager.created + 1 }.await (.opening opener port (.listening manager.created rest servers))

/-- TypeScript `open`, up to its first `await`. -/
def openPort (port : Nat) : LogicalPortRouterManager :=
  if port ∈ manager.listeners.keys then manager.finishOpen opener port true
  else manager.await (.opening opener port .native)

/-- The second loop of `sync`, up to the `await` of the next port. -/
def syncPorts (generation : Nat) : List Nat → LogicalPortRouterManager
  | [] => manager
  | port :: ports =>
    if generation = manager.ownershipGeneration then (manager.cancelRetire port).openPort (.sync generation ports) port
    else manager

/-- The first loop of `sync`. A listener of this process is always active. -/
def syncEntries (active : Nat → Bool) (generation : Nat) (desiredPorts : List Nat) :
    List (Nat × List Nat) → LogicalPortRouterManager → LogicalPortRouterManager
  | [], manager => manager.syncPorts generation desiredPorts
  | (port, servers) :: entries, manager =>
    if generation ≠ manager.ownershipGeneration then manager
    else if servers = [] ∧ ¬active port then (manager.close port).await (.sweeping generation entries desiredPorts)
    else syncEntries active generation desiredPorts entries
      (if port ∈ desiredPorts then manager.cancelRetire port else manager.scheduleRetire port)

def isTcpPort : Bool := 0 < port && port ≤ 65535

def sync (active : Nat → Bool) (logicalPorts : List Nat) (preserveExisting : Bool) :
    LogicalPortRouterManager :=
  if manager.disposed then manager
  else
    let desiredPorts :=
      (logicalPorts.filter isTcpPort ++ if preserveExisting then manager.listeners.keys else []).eraseDups
    syncEntries active manager.ownershipGeneration desiredPorts manager.listeners.entries { manager with released := false }

/-- The part of `releaseAll` before its `await`. -/
def release : LogicalPortRouterManager :=
  manager.listeners.keys.foldl close
    { manager with ownershipGeneration := manager.ownershipGeneration + 1, retireTimers := [], released := true }

def releaseAll : LogicalPortRouterManager := manager.release.await .closing

/-- The task that was awaiting goes on. -/
def resume (answer : Answer) : Task → LogicalPortRouterManager
  | .opening opener port .native =>
    if answer.native then (manager.store port []).finishOpen opener port true
    else manager.listenNext opener port [] loopbackListenTargets
  | .opening opener port (.listening server rest servers) =>
    if answer.success then
      { manager with listening := manager.listening ++ [server] }.listenNext opener port (servers ++ [server]) rest
    else manager.await (.opening opener port (.failing rest servers))
  | .opening opener port (.failing rest servers) => manager.listenNext opener port servers rest
  | .opened generation port success ports =>
    -- an `open` that threw skips the test of the generation
    if success ∧ generation ≠ manager.ownershipGeneration then (manager.close port).await .closing
    else manager.syncPorts generation ports
  | .sweeping generation entries desiredPorts =>
    if answer.success then syncEntries answer.active generation desiredPorts entries manager else manager
  | .closing => manager

/-! ## Events -/

inductive Event where
  | sync (active : Nat → Bool) (logicalPorts : List Nat) (preserveExisting : Bool)
  | openPort (port : Nat)
  | releaseAll
  | dispose
  | retire (port : Nat)
  | resume (index : Nat) (answer : Answer)

/-- The task that an event resumes is taken out of the tasks. -/
def take (index : Nat) : LogicalPortRouterManager :=
  { manager with tasks := manager.tasks.eraseIdx index }

def step : Event → LogicalPortRouterManager
  | .sync active logicalPorts preserveExisting => manager.sync active logicalPorts preserveExisting
  | .openPort port => manager.openPort .direct port
  | .releaseAll => manager.releaseAll
  | .dispose => { manager with disposed := true }.releaseAll
  | .retire port =>
    if port ∈ manager.retireTimers then (manager.close port).await .closing else manager
  | .resume index answer =>
    match manager.tasks[index]? with
    | some task => (manager.take index).resume answer task
    | none => manager

end LogicalPortRouterManager

def Task.servers : Task → List Nat
  | .opening _ _ (.listening _ _ servers) => servers
  | .opening _ _ (.failing _ servers) => servers
  | _ => []

def Task.waiting : Task → List Nat
  | .opening _ _ (.listening server _ _) => [server]
  | _ => []

/-- The handle that an `open` stores when it goes on, if it stores one. -/
def OpenPhase.stored (answer : Answer) : OpenPhase → Option (List Nat)
  | .native => if answer.native then some [] else none
  | .listening server rest servers => if answer.success ∧ rest = [] then some (servers ++ [server]) else none
  | .failing rest servers => if rest = [] ∧ servers ≠ [] then some servers else none

def Opener.generation? : Opener → Option Nat
  | .direct => none
  | .sync generation _ => some generation

def Task.generation? : Task → Option Nat
  | .opening opener _ _ => opener.generation?
  | .opened generation _ _ _ => some generation
  | .sweeping generation _ _ => some generation
  | .closing => none

namespace LogicalPortRouterManager

variable (manager : LogicalPortRouterManager)

def handled : List Nat := manager.listeners.entries.flatMap Prod.snd

/-- A `sync` of an older generation has just opened the port, and closes it when it goes on. -/
def Leaving (port : Nat) : Prop :=
  ∃ generation ports, Task.opened generation port true ports ∈ manager.tasks ∧ generation ≠ manager.ownershipGeneration

/-- After a release, what the map has is about to be closed. -/
def Leaves : Prop :=
  manager.released = true → ∀ entry ∈ manager.listeners.entries, entry.2 ≠ [] → manager.Leaving entry.1

/-- Every server that listens belongs to a handle of the map or to an `open` in flight; after a release, the handles of the map are about to
be closed. -/
structure Accounted (manager : LogicalPortRouterManager) : Prop where
  owned : ∀ server ∈ manager.listening, server ∈ manager.handled ∨ ∃ task ∈ manager.tasks, server ∈ task.servers
  leaves : manager.Leaves

/-- A generation that was read before now, and before the last release. -/
def Past (generation : Nat) : Prop :=
  generation ≤ manager.ownershipGeneration ∧ (manager.released = true → generation < manager.ownershipGeneration)

/-- What holds in the middle of a step, while the task that is resumed has the servers `held` that listen and the servers `waiting` that do
not: no server belongs to two owners, and those that listen are exactly those of the map, of the tasks and of `held`. -/
structure Sound (held waiting : List Nat) (manager : LogicalPortRouterManager) : Prop where
  distinct : (manager.handled ++ manager.tasks.flatMap (fun task => task.servers ++ task.waiting) ++ (held ++ waiting)).Nodup
  created : ∀ server ∈ manager.handled ++ manager.tasks.flatMap (fun task => task.servers ++ task.waiting) ++ (held ++ waiting),
    server < manager.created
  listening_iff : ∀ server, server ∈ manager.listening ↔
    server ∈ manager.handled ∨ (∃ task ∈ manager.tasks, server ∈ task.servers) ∨ server ∈ held
  past : ∀ task ∈ manager.tasks, ∀ generation ∈ task.generation?, manager.Past generation

variable {manager : LogicalPortRouterManager} {held waiting : List Nat}

/-! ### The primitives -/

variable (h : manager.Sound held waiting)
include h

lemma Sound.retire (timers : List Nat) : Sound held waiting { manager with retireTimers := timers } :=
  { h with }

lemma Sound.cancelRetire (port : Nat) : Sound held waiting (manager.cancelRetire port) :=
  h.retire _

lemma Sound.scheduleRetire (port : Nat) : Sound held waiting (manager.scheduleRetire port) := by
  unfold LogicalPortRouterManager.scheduleRetire
  split
  · exact h
  · exact h.retire _

omit h

lemma Sound.take {index : Nat} {task : Task} (h : manager.Sound [] []) (htask : manager.tasks[index]? = some task) :
    Sound task.servers task.waiting (manager.take index) := by
  obtain ⟨hindex, heq⟩ := List.getElem?_eq_some_iff.mp htask
  have hperm : List.Perm (task :: manager.tasks.eraseIdx index) manager.tasks := heq ▸ List.getElem_cons_eraseIdx_perm hindex
  have hsockets := hperm.flatMap_right fun task => task.servers ++ task.waiting
  rw [flatMap_cons] at hsockets
  have hall : List.Perm (manager.handled ++ (manager.tasks.eraseIdx index).flatMap (fun task => task.servers ++ task.waiting) ++
      (task.servers ++ task.waiting))
      (manager.handled ++ manager.tasks.flatMap (fun task => task.servers ++ task.waiting) ++ ([] ++ [])) := by
    rw [append_assoc, append_nil, append_nil]
    exact (perm_append_comm.trans hsockets).append_left _
  refine ⟨hall.nodup_iff.mpr h.distinct, fun server hserver => h.created server (hall.mem_iff.mp hserver), fun server => ?_,
    fun other hother => h.past other (mem_of_mem_eraseIdx hother)⟩
  refine (h.listening_iff server).trans ?_
  have hmem : (∃ other ∈ manager.tasks, server ∈ other.servers) ↔
      server ∈ task.servers ∨ ∃ other ∈ manager.tasks.eraseIdx index, server ∈ other.servers := by
    simp only [← hperm.mem_iff, mem_cons, exists_eq_or_imp]
  rw [hmem]
  show _ ↔ server ∈ manager.handled ∨ _ ∨ _
  simp only [not_mem_nil, or_false]
  exact or_congr_right or_comm

lemma Sound.await (task : Task) (h : manager.Sound task.servers task.waiting)
    (hpast : ∀ generation ∈ task.generation?, manager.Past generation) : Sound [] [] (manager.await task) := by
  have hall : (manager.await task).handled ++ (manager.await task).tasks.flatMap (fun task => task.servers ++ task.waiting) ++
      ([] ++ []) = manager.handled ++ manager.tasks.flatMap (fun task => task.servers ++ task.waiting) ++
        (task.servers ++ task.waiting) := by
    show manager.handled ++ (manager.tasks ++ [task]).flatMap _ ++ _ = _
    rw [flatMap_append, flatMap_singleton, append_nil, append_nil, append_assoc]
  refine ⟨hall ▸ h.distinct, hall ▸ h.created, fun server => (h.listening_iff server).trans ?_, ?_⟩
  · show _ ↔ server ∈ manager.handled ∨ (∃ other ∈ manager.tasks ++ [task], server ∈ other.servers) ∨ _
    simp only [mem_append, mem_singleton, or_and_right, exists_or, exists_eq_left, not_mem_nil, or_false]
  intro other hother generation hgeneration
  rcases mem_append.mp hother with hmem | hnew
  · exact h.past other hmem generation hgeneration
  · rw [mem_singleton.mp hnew] at hgeneration
    exact hpast generation hgeneration

variable {port generation server index : Nat} {entry : Nat × List Nat}
    {after : LogicalPortRouterManager} {ports : List Nat} {opener : Opener} {phase : OpenPhase}
    {answer : Answer} {event : Event}

variable {servers : List Nat}

lemma handled_of_split {before after : List (Nat × List Nat)}
    (hentries : manager.listeners.entries = before ++ (port, servers) :: after) :
    manager.handled = before.flatMap Prod.snd ++ (servers ++ after.flatMap Prod.snd) := by
  rw [handled, hentries, flatMap_append, flatMap_cons]

lemma close_of_none (hget : manager.listeners.get? port = none) : manager.close port = manager.cancelRetire port := by
  have hcancel : (manager.cancelRetire port).listeners.get? port = none := hget
  simp only [LogicalPortRouterManager.close, hcancel]

lemma close_of_some (hget : manager.listeners.get? port = some servers) :
    manager.close port = { manager.cancelRetire port with
      listeners := manager.listeners.delete port
      listening := manager.listening.filter (· ∉ servers) } := by
  have hcancel : (manager.cancelRetire port).listeners.get? port = some servers := hget
  simp only [LogicalPortRouterManager.close, hcancel]
  rfl

lemma mem_close :
    entry ∈ (manager.close port).listeners.entries ↔ entry ∈ manager.listeners.entries ∧ entry.1 ≠ port := by
  cases hget : manager.listeners.get? port with
  | none =>
    rw [close_of_none hget]
    refine ⟨fun hentry => ⟨hentry, fun hport => ?_⟩, And.left⟩
    have hmem : (port, entry.2) ∈ manager.listeners.entries := hport ▸ hentry
    rw [InsertionMap.get?_eq_some_iff.mpr hmem] at hget
    cases hget
  | some servers =>
    rw [close_of_some hget]
    exact InsertionMap.mem_delete

/-- A call that stores no handle: it may close some and leave tasks. -/
structure Extends (manager after : LogicalPortRouterManager) : Prop where
  entries : ∀ entry ∈ after.listeners.entries, entry ∈ manager.listeners.entries
  tasks : ∀ task ∈ manager.tasks, task ∈ after.tasks
  generation : after.ownershipGeneration = manager.ownershipGeneration
  released : after.released = manager.released

lemma Extends.refl (manager : LogicalPortRouterManager) : manager.Extends manager :=
  ⟨fun _ h => h, fun _ h => h, rfl, rfl⟩

lemma Extends.trans {middle after : LogicalPortRouterManager} (h : manager.Extends middle) (h' : middle.Extends after) :
    manager.Extends after :=
  ⟨fun entry hentry => h.entries entry (h'.entries entry hentry), fun task htask => h'.tasks task (h.tasks task htask),
    h'.generation.trans h.generation, h'.released.trans h.released⟩

lemma Extends.past (h : manager.Extends after) (hpast : manager.Past generation) : after.Past generation := by
  unfold Past
  rw [h.generation, h.released]
  exact hpast

variable (manager)

lemma extends_cancelRetire (port : Nat) : manager.Extends (manager.cancelRetire port) :=
  ⟨fun _ h => h, fun _ h => h, rfl, rfl⟩

lemma extends_scheduleRetire (port : Nat) : manager.Extends (manager.scheduleRetire port) := by
  unfold LogicalPortRouterManager.scheduleRetire
  split
  · exact .refl manager
  · exact ⟨fun _ h => h, fun _ h => h, rfl, rfl⟩

lemma extends_await (task : Task) : manager.Extends (manager.await task) :=
  ⟨fun _ h => h, fun _ h => mem_append_left _ h, rfl, rfl⟩

lemma extends_close (port : Nat) : manager.Extends (manager.close port) := by
  refine ⟨fun entry hentry => (mem_close.mp hentry).1, ?_, ?_, ?_⟩
  all_goals
    cases hget : manager.listeners.get? port with
    | none => rw [close_of_none hget]; first | exact fun _ h => h | rfl
    | some servers => rw [close_of_some hget]; first | exact fun _ h => h | rfl

lemma extends_finishOpen (opener : Opener) (port : Nat) (success : Bool) :
    manager.Extends (manager.finishOpen opener port success) := by
  cases opener with
  | direct => exact .refl manager
  | sync generation ports => exact extends_await manager _

variable {manager}

lemma Sound.close (h : manager.Sound held waiting) (port : Nat) : Sound held waiting (manager.close port) := by
  cases hget : manager.listeners.get? port with
  | none => exact close_of_none hget ▸ h.cancelRetire port
  | some servers =>
    rw [close_of_some hget]
    obtain ⟨before, after, hentries⟩ := append_of_mem (InsertionMap.get?_eq_some_iff.mp hget)
    have hbefore : manager.handled = _ := handled_of_split hentries
    have hafter : (manager.listeners.delete port).entries.flatMap Prod.snd = before.flatMap Prod.snd ++ after.flatMap Prod.snd := by
      rw [InsertionMap.entries_delete_of_split hentries, flatMap_append]
    have hperm : List.Perm manager.handled (servers ++ (manager.listeners.delete port).entries.flatMap Prod.snd) := by
      rw [hbefore, hafter]
      exact perm_append_comm_assoc _ _ _
    have hdistinct := h.distinct
    rw [append_assoc] at hdistinct
    have hsplit := ((hperm.append_right _).nodup_iff.mp hdistinct)
    rw [append_assoc, nodup_append] at hsplit
    obtain ⟨-, hrest, hapart⟩ := hsplit
    refine ⟨?_, fun server hserver => h.created server ?_, fun server => ?_, h.past⟩
    · rw [append_assoc]
      exact hrest
    · simp only [mem_append, hperm.mem_iff] at hserver ⊢
      rcases hserver with (hserver | hserver) | hserver
      · exact .inl (.inl (.inr hserver))
      · exact .inl (.inr hserver)
      · exact .inr hserver
    show server ∈ manager.listening.filter _ ↔ server ∈ (manager.listeners.delete port).entries.flatMap Prod.snd ∨
      (∃ task ∈ manager.tasks, server ∈ task.servers) ∨ _
    rw [mem_filter, h.listening_iff, hperm.mem_iff, mem_append, decide_eq_true_iff]
    constructor
    · rintro ⟨(hin | hother) | hother, hout⟩
      · exact absurd hin hout
      · exact .inl hother
      · exact .inr hother
    intro hserver
    refine ⟨hserver.imp_left .inr, fun hin => hapart server hin server ?_ rfl⟩
    simp only [mem_append, mem_flatMap]
    rcases hserver with hserver | ⟨task, htask, hserver⟩ | hserver
    · exact .inl (mem_flatMap.mp hserver)
    · exact .inr (.inl ⟨task, htask, .inl hserver⟩)
    · exact .inr (.inr (.inl hserver))

lemma handled_store (servers : List Nat) (hfree : ∀ old, manager.listeners.get? port = some old → old = []) :
    List.Perm (manager.store port servers).handled (manager.handled ++ servers) := by
  cases hget : manager.listeners.get? port with
  | none =>
    have hkey : port ∉ manager.listeners.keys := by
      intro hmem
      obtain ⟨old, hold⟩ := InsertionMap.mem_keys_iff.mp hmem
      rw [InsertionMap.get?_eq_some_iff.mpr hold] at hget
      cases hget
    show List.Perm ((manager.listeners.set port servers).entries.flatMap Prod.snd) _
    rw [InsertionMap.entries_set_of_not_mem hkey, flatMap_append, flatMap_singleton]
    exact List.Perm.refl _
  | some old =>
    obtain rfl := hfree old hget
    obtain ⟨before, after, hentries⟩ := append_of_mem (InsertionMap.get?_eq_some_iff.mp hget)
    have hset : (manager.store port servers).listeners.entries = before ++ (port, servers) :: after :=
      InsertionMap.entries_set_of_split hentries servers
    rw [handled_of_split hset, handled_of_split hentries, nil_append, append_assoc]
    exact perm_append_comm.append_left _

lemma Sound.store (h : manager.Sound servers [])
    (hfree : ∀ old, manager.listeners.get? port = some old → old = []) : Sound [] [] (manager.store port servers) := by
  have hperm := handled_store servers hfree
  have hall : List.Perm ((manager.store port servers).handled ++
      manager.tasks.flatMap (fun task => task.servers ++ task.waiting) ++ ([] ++ []))
      (manager.handled ++ manager.tasks.flatMap (fun task => task.servers ++ task.waiting) ++ (servers ++ [])) := by
    rw [append_nil, append_nil, append_nil, append_assoc]
    refine (hperm.append_right _).trans ?_
    rw [append_assoc]
    exact perm_append_comm.append_left _
  refine ⟨hall.nodup_iff.mpr h.distinct, fun server hserver => h.created server (hall.mem_iff.mp hserver), fun server => ?_, h.past⟩
  refine (h.listening_iff server).trans ?_
  rw [hperm.mem_iff, mem_append]
  show _ ↔ _ ∨ (∃ task ∈ manager.tasks, server ∈ task.servers) ∨ _
  simp only [not_mem_nil, or_false]
  rw [or_comm (a := ∃ task ∈ manager.tasks, server ∈ task.servers), or_assoc]

lemma Sound.create (h : manager.Sound held []) : Sound held [manager.created] { manager with created := manager.created + 1 } := by
  have hdistinct := h.distinct
  have hcreated := h.created
  rw [append_nil] at hdistinct hcreated
  refine ⟨?_, fun server hserver => ?_, h.listening_iff, h.past⟩
  · rw [← append_assoc, nodup_append]
    refine ⟨hdistinct, nodup_singleton _, fun server hserver new hnew heq => ?_⟩
    rw [heq, mem_singleton.mp hnew] at hserver
    exact lt_irrefl _ (hcreated _ hserver)
  · rw [← append_assoc, mem_append, mem_singleton] at hserver
    rcases hserver with hserver | rfl
    · exact Nat.lt_succ_of_lt (hcreated server hserver)
    · exact Nat.lt_succ_self _

lemma Sound.listen (h : manager.Sound held [server]) :
    Sound (held ++ [server]) [] { manager with listening := manager.listening ++ [server] } := by
  refine ⟨?_, ?_, fun other => ?_, h.past⟩
  · rw [append_nil]
    exact h.distinct
  · rw [append_nil]
    exact h.created
  · show other ∈ manager.listening ++ [server] ↔ other ∈ manager.handled ∨ (∃ task ∈ manager.tasks, other ∈ task.servers) ∨ _
    rw [mem_append, mem_append, h.listening_iff, or_assoc, or_assoc]

lemma Sound.fail (h : manager.Sound held [server]) : Sound held [] manager := by
  have hsub : List.Sublist (manager.handled ++ manager.tasks.flatMap (fun task => task.servers ++ task.waiting) ++ (held ++ []))
      (manager.handled ++ manager.tasks.flatMap (fun task => task.servers ++ task.waiting) ++ (held ++ [server])) :=
    ((nil_sublist [server]).append_left held).append_left _
  exact ⟨h.distinct.sublist hsub, fun other hother => h.created other (hsub.subset hother), h.listening_iff, h.past⟩

/-! ### The calls -/

lemma Sound.finishOpen (h : manager.Sound [] [])
    (hopener : ∀ generation ∈ opener.generation?, manager.Past generation) (port : Nat) (success : Bool) :
    Sound [] [] (manager.finishOpen opener port success) := by
  cases opener with
  | direct => exact h
  | sync generation ports => exact Sound.await (.opened generation port success ports) h hopener

lemma Sound.listenNext (h : manager.Sound servers [])
    (hopener : ∀ generation ∈ opener.generation?, manager.Past generation) (rest : List LoopbackListenTarget)
    (hfree : rest = [] → servers ≠ [] → ∀ old, manager.listeners.get? port = some old → old = []) :
    Sound [] [] (manager.listenNext opener port servers rest) := by
  cases rest with
  | nil =>
    rw [LogicalPortRouterManager.listenNext]
    split
    next hnone =>
      subst hnone
      exact h.finishOpen hopener port false
    next hsome => exact (h.store (hfree rfl hsome)).finishOpen hopener port true
  | cons target rest =>
    exact Sound.await (.opening opener port (.listening manager.created rest servers)) h.create hopener

def Passes (manager after : LogicalPortRouterManager) : Prop := Sound [] [] after ∧ manager.Extends after

lemma Sound.openPort (h : manager.Sound [] [])
    (hopener : ∀ generation ∈ opener.generation?, manager.Past generation) (port : Nat) :
    manager.Passes (manager.openPort opener port) := by
  unfold LogicalPortRouterManager.openPort
  split
  · exact ⟨h.finishOpen hopener port true, extends_finishOpen ..⟩
  · exact ⟨Sound.await (.opening opener port .native) h hopener, extends_await ..⟩

lemma Sound.syncPorts (h : manager.Sound [] []) (hpast : manager.Past generation) (ports : List Nat) :
    manager.Passes (manager.syncPorts generation ports) := by
  cases ports with
  | nil => exact ⟨h, .refl manager⟩
  | cons port ports =>
    have hopener : ∀ other ∈ (Opener.sync generation ports).generation?, manager.Past other := by
      rintro _ ⟨⟩
      exact hpast
    rw [LogicalPortRouterManager.syncPorts]
    split
    · obtain ⟨hsound, hextends⟩ := (h.cancelRetire port).openPort hopener port
      exact ⟨hsound, (extends_cancelRetire manager port).trans hextends⟩
    · exact ⟨h, .refl manager⟩

lemma Sound.syncEntries {active : Nat → Bool} {desiredPorts : List Nat} (h : manager.Sound [] [])
    (hpast : manager.Past generation) (entries : List (Nat × List Nat)) :
    manager.Passes (syncEntries active generation desiredPorts entries manager) := by
  induction entries generalizing manager with
  | nil => exact h.syncPorts hpast desiredPorts
  | cons entry entries ih =>
    obtain ⟨port, servers⟩ := entry
    have hretired : ∀ after, manager.Passes after →
        manager.Passes (LogicalPortRouterManager.syncEntries active generation desiredPorts entries after) := by
      rintro after ⟨hsound, hextends⟩
      obtain ⟨hlater, hextends'⟩ := ih hsound (hextends.past hpast)
      exact ⟨hlater, hextends.trans hextends'⟩
    rw [LogicalPortRouterManager.syncEntries]
    split
    · exact ⟨h, .refl manager⟩
    split
    · have hclose := extends_close manager port
      refine ⟨Sound.await (.sweeping generation entries desiredPorts) (h.close port) ?_, hclose.trans (extends_await _ _)⟩
      rintro _ ⟨⟩
      exact hclose.past hpast
    split
    · exact hretired _ ⟨h.cancelRetire port, extends_cancelRetire manager port⟩
    · exact hretired _ ⟨h.scheduleRetire port, extends_scheduleRetire manager port⟩

lemma mem_closeAll :
    entry ∈ (ports.foldl LogicalPortRouterManager.close manager).listeners.entries ↔
      entry ∈ manager.listeners.entries ∧ entry.1 ∉ ports := by
  induction ports generalizing manager with
  | nil => simp
  | cons port ports ih => rw [foldl_cons, ih, mem_close, mem_cons, not_or, and_assoc]

lemma Sound.closeAll (h : manager.Sound [] []) (ports : List Nat) :
    Sound [] [] (ports.foldl LogicalPortRouterManager.close manager) := by
  induction ports generalizing manager with
  | nil => exact h
  | cons port ports ih => exact ih (h.close port)

lemma entries_release (manager : LogicalPortRouterManager) : manager.release.listeners.entries = [] := by
  refine eq_nil_iff_forall_not_mem.mpr fun entry hentry => ?_
  obtain ⟨hmem, hport⟩ := mem_closeAll.mp hentry
  exact hport (mem_map_of_mem hmem)

lemma Sound.release (h : manager.Sound [] []) : Sound [] [] manager.release := by
  have hold : ∀ task ∈ manager.tasks, ∀ generation ∈ task.generation?, generation < manager.ownershipGeneration + 1 :=
    fun task htask generation hgeneration => Nat.lt_succ_of_le (h.past task htask generation hgeneration).1
  have hbump : Sound [] [] { manager with
      ownershipGeneration := manager.ownershipGeneration + 1, retireTimers := [], released := true } :=
    ⟨h.distinct, h.created, h.listening_iff, fun task htask generation hgeneration =>
      ⟨(hold task htask generation hgeneration).le, fun _ => hold task htask generation hgeneration⟩⟩
  exact hbump.closeAll _

lemma Extends.leaving (h : manager.Extends after) (hleaving : manager.Leaving port) : after.Leaving port := by
  obtain ⟨generation, ports, hmem, hstale⟩ := hleaving
  exact ⟨generation, ports, h.tasks _ hmem, h.generation ▸ hstale⟩

lemma Extends.leaves (h : manager.Extends after) (hleaves : manager.Leaves) : after.Leaves := by
  intro hreleased entry hentry hservers
  exact h.leaving (hleaves (h.released ▸ hreleased) entry (h.entries entry hentry) hservers)

/-! ### Resuming a task -/

lemma mem_take_or {task other : Task} (htask : manager.tasks[index]? = some task)
    (hother : other ∈ manager.tasks) : other = task ∨ other ∈ (manager.take index).tasks := by
  obtain ⟨hindex, heq⟩ := List.getElem?_eq_some_iff.mp htask
  have hperm : List.Perm (task :: manager.tasks.eraseIdx index) manager.tasks := heq ▸ List.getElem_cons_eraseIdx_perm hindex
  exact mem_cons.mp (hperm.mem_iff.mpr hother)

lemma Leaves.take {task : Task} (h : manager.Leaves) (htask : manager.tasks[index]? = some task)
    (hfree : ∀ generation port ports, task = .opened generation port true ports → generation = manager.ownershipGeneration) :
    (manager.take index).Leaves := by
  intro hreleased entry hentry hservers
  obtain ⟨generation, ports, hmem, hstale⟩ := h hreleased entry hentry hservers
  rcases mem_take_or htask hmem with heq | hmem
  · exact absurd (hfree _ _ _ heq.symm) hstale
  · exact ⟨generation, ports, hmem, hstale⟩

lemma Leaves.close_take (h : manager.Leaves)
    (htask : manager.tasks[index]? = some (.opened generation port true ports)) :
    ((manager.take index).close port).Leaves := by
  intro hreleased entry hentry hservers
  obtain ⟨hmem, hport⟩ := mem_close.mp hentry
  rw [(extends_close _ port).released] at hreleased
  obtain ⟨other, others, hother, hstale⟩ := h hreleased entry hmem hservers
  rcases mem_take_or htask hother with heq | hother
  · cases heq
    exact absurd rfl hport
  · exact (extends_close _ port).leaving ⟨other, others, hother, hstale⟩

lemma resume_stored (h : manager.Sound [] []) (htask : manager.tasks[index]? = some (.opening opener port phase))
    (hstored : phase.stored answer = some servers) :
    ∃ listening, manager.step (.resume index answer) =
        ({ manager.take index with listening := listening }.store port servers).finishOpen opener port true ∧
      Sound servers [] { manager.take index with listening := listening } := by
  have htaken := h.take htask
  simp only [step, htask]
  cases phase with
  | native =>
    rw [OpenPhase.stored] at hstored
    split_ifs at hstored with hnative
    cases hstored
    refine ⟨manager.listening, ?_, htaken⟩
    rw [resume, if_pos hnative]
    rfl
  | listening server rest ready =>
    rw [OpenPhase.stored] at hstored
    split_ifs at hstored with hlast
    cases hstored
    obtain ⟨hsuccess, rfl⟩ := hlast
    refine ⟨manager.listening ++ [server], ?_, htaken.listen⟩
    rw [resume, if_pos hsuccess, listenNext, if_neg (append_ne_nil_of_right_ne_nil ready (cons_ne_nil server []))]
    rfl
  | failing rest ready =>
    rw [OpenPhase.stored] at hstored
    split_ifs at hstored with hlast
    cases hstored
    obtain ⟨rfl, hready⟩ := hlast
    refine ⟨manager.listening, ?_, htaken⟩
    rw [resume, listenNext, if_neg hready]
    rfl

lemma resume_unstored (h : manager.Sound [] []) (htask : manager.tasks[index]? = some (.opening opener port phase))
    (hstored : phase.stored answer = none) :
    (manager.take index).Passes (manager.step (.resume index answer)) := by
  have htaken := h.take htask
  have hopener : ∀ generation ∈ opener.generation?, (manager.take index).Past generation :=
    h.past _ (mem_of_getElem? htask)
  simp only [step, htask]
  cases phase with
  | native =>
    have hnative : ¬answer.native = true := fun hnative => by
      rw [OpenPhase.stored, if_pos hnative] at hstored
      cases hstored
    rw [resume, if_neg hnative]
    exact ⟨htaken.listenNext hopener loopbackListenTargets nofun, ⟨fun _ h => h, fun _ h => mem_append_left _ h, rfl, rfl⟩⟩
  | listening server rest ready =>
    rw [resume]
    split
    next hsuccess =>
      have hrest : rest ≠ [] := fun hrest => by
        rw [OpenPhase.stored, if_pos ⟨hsuccess, hrest⟩] at hstored
        cases hstored
      obtain ⟨target, targets, rfl⟩ := exists_cons_of_ne_nil hrest
      exact ⟨htaken.listen.listenNext hopener _ nofun, ⟨fun _ h => h, fun _ h => mem_append_left _ h, rfl, rfl⟩⟩
    next =>
      exact ⟨Sound.await (.opening opener port (.failing rest ready)) htaken.fail hopener, extends_await _ _⟩
  | failing rest ready =>
    rw [resume]
    cases rest with
    | nil =>
      have hready : ready = [] := by
        by_contra hready
        rw [OpenPhase.stored, if_pos ⟨rfl, hready⟩] at hstored
        cases hstored
      subst hready
      rw [listenNext, if_pos rfl]
      exact ⟨htaken.finishOpen hopener port false, extends_finishOpen _ opener port false⟩
    | cons target targets =>
      exact ⟨htaken.listenNext hopener _ nofun, ⟨fun _ h => h, fun _ h => mem_append_left _ h, rfl, rfl⟩⟩

variable (manager)

/-- A step that may be taken: an `open` that stores its handle replaces no handle with servers, and if nobody of the manager awaits it, no
release is in force (unless a `sync` is about to close the port). -/
def Careful : Event → Prop
  | .resume index answer => ∀ opener port phase servers, manager.tasks[index]? = some (.opening opener port phase) →
      phase.stored answer = some servers →
      (∀ old, manager.listeners.get? port = some old → old = []) ∧
        (opener = .direct → manager.released = true → servers ≠ [] → manager.Leaving port)
  | _ => True

lemma Leaves.releaseAll : manager.releaseAll.Leaves := by
  intro _ entry hentry
  have hnone : entry ∈ manager.release.listeners.entries := hentry
  rw [entries_release] at hnone
  cases hnone

variable {manager}

lemma Sound.releaseAll (h : manager.Sound [] []) : Sound [] [] manager.releaseAll :=
  Sound.await .closing h.release nofun

lemma Leaves.store (h : manager.Leaves) (hopener : ∀ generation ∈ opener.generation?, manager.Past generation)
    (hdirect : opener = .direct → manager.released = true → servers ≠ [] → manager.Leaving port) :
    ((manager.store port servers).finishOpen opener port true).Leaves := by
  intro hreleased entry hentry hservers
  rw [(extends_finishOpen _ opener port true).released] at hreleased
  rcases InsertionMap.mem_set.mp ((extends_finishOpen _ opener port true).entries entry hentry) with rfl | ⟨hold, -⟩
  · cases opener with
    | direct => exact hdirect rfl hreleased hservers
    | sync generation ports =>
      have hpast : manager.Past generation := hopener generation rfl
      exact ⟨generation, ports, mem_append_right _ mem_cons_self, (hpast.2 hreleased).ne⟩
  · have hleaving : (manager.store port servers).Leaving entry.1 := h hreleased entry hold hservers
    exact (extends_finishOpen _ opener port true).leaving hleaving

lemma step_resume_opening (h : manager.Sound [] []) (hleaves : manager.Leaves)
    (hcareful : manager.Careful (.resume index answer))
    (htask : manager.tasks[index]? = some (.opening opener port phase)) :
    Sound [] [] (manager.step (.resume index answer)) ∧ (manager.step (.resume index answer)).Leaves := by
  have htaken := hleaves.take htask nofun
  have hopener : ∀ generation ∈ opener.generation?, manager.Past generation := h.past _ (mem_of_getElem? htask)
  cases hstored : phase.stored answer with
  | none =>
    obtain ⟨hsound, hextends⟩ := resume_unstored h htask hstored
    exact ⟨hsound, hextends.leaves htaken⟩
  | some servers =>
    obtain ⟨hfree, hdirect⟩ := hcareful opener port phase servers htask hstored
    obtain ⟨listening, heq, hsound⟩ := resume_stored h htask hstored
    rw [heq]
    refine ⟨(hsound.store hfree).finishOpen hopener port true, Leaves.store htaken hopener fun hopen hreleased hservers => ?_⟩
    obtain ⟨generation, ports, hmem, hstale⟩ := hdirect hopen hreleased hservers
    rcases mem_take_or htask hmem with hsame | hmem
    · cases hsame
    · exact ⟨generation, ports, hmem, hstale⟩

lemma step_resume (h : manager.Sound [] []) (hleaves : manager.Leaves)
    (hcareful : manager.Careful (.resume index answer)) :
    Sound [] [] (manager.step (.resume index answer)) ∧ (manager.step (.resume index answer)).Leaves := by
  cases htask : manager.tasks[index]? with
  | none =>
    simp only [step, htask]
    exact ⟨h, hleaves⟩
  | some task =>
    have hpast := h.past _ (mem_of_getElem? htask)
    have htaken := h.take htask
    cases task with
    | opening opener port phase => exact step_resume_opening h hleaves hcareful htask
    | opened generation port success ports =>
      simp only [step, htask]
      rw [resume]
      split
      next hstale =>
        obtain ⟨rfl, -⟩ := hstale
        exact ⟨Sound.await .closing (htaken.close port) nofun,
          (extends_await _ _).leaves (hleaves.close_take htask)⟩
      next hcurrent =>
        obtain ⟨hsound, hextends⟩ := htaken.syncPorts (hpast generation rfl) ports
        refine ⟨hsound, hextends.leaves (hleaves.take htask ?_)⟩
        rintro other _ _ ⟨⟩
        by_contra hne
        exact hcurrent ⟨rfl, hne⟩
    | sweeping generation entries desiredPorts =>
      have hstay := hleaves.take htask nofun
      simp only [step, htask]
      rw [resume]
      split
      · obtain ⟨hsound, hextends⟩ := htaken.syncEntries (hpast generation rfl) entries
        exact ⟨hsound, hextends.leaves hstay⟩
      · exact ⟨htaken, hstay⟩
    | closing =>
      simp only [step, htask]
      exact ⟨htaken, hleaves.take htask nofun⟩

lemma step_kept (h : manager.Sound [] []) (hleaves : manager.Leaves) (hcareful : manager.Careful event) :
    Sound [] [] (manager.step event) ∧ (manager.step event).Leaves := by
  cases event with
  | sync active logicalPorts preserveExisting =>
    show Sound [] [] (manager.sync _ _ _) ∧ (manager.sync _ _ _).Leaves
    unfold sync
    split
    · exact ⟨h, hleaves⟩
    -- the new `sync` takes the current generation, and the release is not in force any more
    have hcalled : Sound [] [] { manager with released := false } :=
      ⟨h.distinct, h.created, h.listening_iff, fun task htask generation hgeneration =>
        ⟨(h.past task htask generation hgeneration).1, nofun⟩⟩
    obtain ⟨hsound, hextends⟩ := hcalled.syncEntries ⟨le_refl _, nofun⟩ _
    refine ⟨hsound, hextends.leaves fun hreleased => ?_⟩
    cases hreleased
  | openPort port =>
    have hdirect : ∀ generation ∈ Opener.direct.generation?, manager.Past generation := by rintro _ ⟨⟩
    obtain ⟨hsound, hextends⟩ := h.openPort hdirect port
    exact ⟨hsound, hextends.leaves hleaves⟩
  | releaseAll => exact ⟨h.releaseAll, .releaseAll manager⟩
  | dispose =>
    have hdisposed : Sound [] [] { manager with disposed := true } := { h with }
    exact ⟨hdisposed.releaseAll, .releaseAll _⟩
  | retire port =>
    show Sound [] [] (if _ then _ else _) ∧ Leaves (if _ then _ else _)
    split
    · exact ⟨Sound.await .closing (h.close port) nofun,
        ((extends_close manager port).trans (extends_await _ _)).leaves hleaves⟩
    · exact ⟨h, hleaves⟩
  | resume index answer => exact step_resume h hleaves hcareful

variable (manager)

lemma finishOpen_listeners (opener : Opener) (port : Nat) (success : Bool) :
    (manager.finishOpen opener port success).listeners = manager.listeners := by
  cases opener <;> rfl

lemma finishOpen_listening (opener : Opener) (port : Nat) (success : Bool) :
    (manager.finishOpen opener port success).listening = manager.listening := by
  cases opener <;> rfl

variable {manager}

lemma owned_finishOpen {success : Bool}
    (h : ∃ task ∈ (manager.finishOpen opener port success).tasks, server ∈ task.servers) :
    ∃ task ∈ manager.tasks, server ∈ task.servers := by
  cases opener with
  | direct => exact h
  | sync generation ports =>
    obtain ⟨task, htask, hserver⟩ := h
    rcases mem_append.mp htask with hmem | hnew
    · exact ⟨task, hmem, hserver⟩
    · rw [mem_singleton.mp hnew] at hserver
      cases hserver

lemma mem_handled (hget : manager.listeners.get? port = some servers)
    (hserver : server ∈ servers) : server ∈ manager.handled :=
  mem_flatMap.mpr ⟨_, InsertionMap.get?_eq_some_iff.mp hget, hserver⟩

lemma not_owned_of_replaced {servers old : List Nat} (h : manager.Sound servers [])
    (hget : manager.listeners.get? port = some old) (hserver : server ∈ old) :
    ¬(server ∈ ((manager.store port servers).finishOpen opener port true).handled ∨
      ∃ task ∈ ((manager.store port servers).finishOpen opener port true).tasks, server ∈ task.servers) := by
  obtain ⟨before, after, hentries⟩ := append_of_mem (InsertionMap.get?_eq_some_iff.mp hget)
  have hset : ((manager.store port servers).finishOpen opener port true).listeners.entries = before ++ (port, servers) :: after := by
    rw [finishOpen_listeners]
    exact InsertionMap.entries_set_of_split hentries servers
  have hdistinct := h.distinct
  have hperm : List.Perm (before.flatMap Prod.snd ++ (old ++ after.flatMap Prod.snd))
      (old ++ (before.flatMap Prod.snd ++ after.flatMap Prod.snd)) := perm_append_comm_assoc _ _ _
  rw [handled_of_split hentries, append_nil, append_assoc, (hperm.append_right _).nodup_iff, append_assoc,
    nodup_append] at hdistinct
  obtain ⟨-, -, hapart⟩ := hdistinct
  have hout : ∀ other, other ∈ before.flatMap Prod.snd ++ after.flatMap Prod.snd ++
      (manager.tasks.flatMap (fun task => task.servers ++ task.waiting) ++ servers) → other ≠ server :=
    fun other hother heq => hapart server hserver other hother heq.symm
  rw [handled_of_split hset]
  rintro (hmap | htask)
  · refine hout server ?_ rfl
    simp only [mem_append] at hmap ⊢
    rcases hmap with hbefore | hnew | hafter
    · exact .inl (.inl hbefore)
    · exact .inr (.inr hnew)
    · exact .inl (.inr hafter)
  · obtain ⟨task, hmem, hin⟩ := owned_finishOpen htask
    exact hout server (mem_append_right _ (mem_append_left _
      (mem_flatMap.mpr ⟨task, hmem, mem_append_left _ hin⟩))) rfl

lemma careful_of_accounted (h : manager.Sound [] []) (haccounted : (manager.step event).Accounted) :
    manager.Careful event := by
  cases event with
  | resume index answer =>
    intro opener port phase servers htask hstored
    obtain ⟨listening, heq, hsound⟩ := resume_stored h htask hstored
    rw [heq] at haccounted
    constructor
    · intro old hget
      refine eq_nil_iff_forall_not_mem.mpr fun server hserver => ?_
      have hlistening := (hsound.listening_iff server).mpr (.inl (mem_handled hget hserver))
      refine not_owned_of_replaced hsound hget hserver (haccounted.owned server ?_)
      rw [finishOpen_listening]
      exact hlistening
    · intro hdirect hreleased hservers
      subst hdirect
      obtain ⟨generation, ports, hmem, hstale⟩ := haccounted.leaves hreleased (port, servers) (InsertionMap.mem_set.mpr (.inl rfl)) hservers
      exact ⟨generation, ports, mem_of_mem_eraseIdx hmem, hstale⟩
  | _ => trivial

lemma sound_new : Sound [] [] new :=
  ⟨nodup_nil, nofun, fun server => by simp [new, handled, InsertionMap.empty], nofun⟩

lemma Sound.accounted (h : manager.Sound [] []) (hleaves : manager.Leaves) : manager.Accounted := by
  refine ⟨fun server hserver => ?_, hleaves⟩
  rcases (h.listening_iff server).mp hserver with hmap | htask | hheld
  · exact .inl hmap
  · exact .inr htask
  · cases hheld

lemma Accounted.silent (h : manager.Accounted) (hreleased : manager.released = true) (hsettled : manager.tasks = []) :
    manager.listening = [] := by
  refine eq_nil_iff_forall_not_mem.mpr fun server hserver => ?_
  rcases h.owned server hserver with hmap | ⟨task, htask, -⟩
  · obtain ⟨entry, hentry, hin⟩ := mem_flatMap.mp hmap
    obtain ⟨generation, ports, hmem, -⟩ := h.leaves hreleased entry hentry (ne_nil_of_mem hin)
    rw [hsettled] at hmem
    cases hmem
  · rw [hsettled] at htask
    cases htask

/-- Every server that listens stays accounted for all along a run exactly when the steps of the run are careful. Then no server
listens when everything has settled after a release. -/
theorem release_closes_servers (events : List Event) :
    ((∀ done rest, events = done ++ rest → (run step new done).Accounted) ↔ StepsMeet step Careful new events) ∧
      (StepsMeet step Careful new events → (run step new events).released = true → (run step new events).tasks = [] →
        (run step new events).listening = []) := by
  have hiff : (∀ done rest, events = done ++ rest → (run step new done).Accounted) ↔ StepsMeet step Careful new events :=
    forall_reached_iff_of_invariant (J := fun manager : LogicalPortRouterManager => manager.Sound [] [] ∧ manager.Leaves)
      (fun manager h => h.1.accounted h.2) (fun manager event h hcareful => step_kept h.1 h.2 hcareful)
      (fun manager event h haccounted => careful_of_accounted h.1 haccounted) ⟨sound_new, nofun⟩
  refine ⟨hiff, fun hmeet => ?_⟩
  exact (hiff.mpr hmeet events [] (append_nil events).symm).silent

def granted : Answer := ⟨false, true, fun _ => true⟩

def refused : Answer := ⟨false, false, fun _ => true⟩

/-- An `open` in flight during `releaseAll` listens afterwards. So does a server of a `sync` whose handle another `sync` replaced: both
tested the map before either had stored its handle, one got `::1` and the other `127.0.0.1`. -/
theorem released_router_listens :
    (let manager := run step new
      [.openPort 3000, .releaseAll, .resume 0 granted, .resume 0 granted, .resume 0 granted, .resume 0 granted]
    manager.released = true ∧ manager.tasks = [] ∧ manager.listening = [0, 1]) ∧
    (let manager := run step new
      [.sync (fun _ => true) [3000] false, .resume 0 granted, .resume 0 refused, .resume 0 granted,
       .sync (fun _ => true) [3000] false, .resume 1 granted, .resume 0 granted, .resume 0 granted, .resume 0 granted,
       .resume 0 refused, .resume 0 granted, .resume 0 granted, .releaseAll, .resume 0 granted]
    manager.released = true ∧ manager.tasks = [] ∧ manager.listening = [1]) := by
  decide +kernel

end LogicalPortRouterManager
end PortManager.Ports
