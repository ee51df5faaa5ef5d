import PortManager.Base.Run

/-!
# The lock of the daemon's start

Embeds `acquireAgentStartupLock`, the function it returns and `removeStaleStartupLock` of
`src/extension/local-agent-client.ts`. Every file-system call is a step of its own, and any number of clients take
their steps in any order. What `isProcessAlive` and `ps` say about an owner is an argument of the step that asks.

A client that finds the lock taken may remove it as stale. It decides from what it read some steps ago, and the file
may be held by a live client all the same: only where no such removal meets a held lock is the lock exclusive.
-/

namespace PortManager.Extension
open Run

def AGENT_STARTUP_LOCK_STALE_MS : Nat := 10000

structure LockFile where
  inode : Nat
  /-- the pid on its first line -/
  ownerPid : Option Nat
  mtimeMs : Nat
deriving DecidableEq

inductive Phase where
  /-- before `openSync(lockPath, "wx")` -/
  | trying
  | created (inode : Nat)
  | held (inode : Nat)
  /-- the release function has closed the descriptor -/
  | closed
  /-- the lock was there -/
  | contended
  /-- `statSync` told a fresh file -/
  | fresh
  /-- `shouldPreserveStartupLock` was false -/
  | removing
deriving DecidableEq

/-- Between the creation of the file and the end of the release. -/
def Phase.Holds : Phase → Prop
  | .created _ | .held _ | .closed => True
  | _ => False

instance holdsDecidable : (phase : Phase) → Decidable phase.Holds
  | .created _ | .held _ | .closed => .isTrue trivial
  | .trying | .contended | .fresh | .removing => .isFalse id

structure LockWorld where
  nowMs : Nat
  file : Option LockFile
  /-- how many files were made -/
  inodes : Nat
  phases : Nat → Phase

inductive LockStep where
  | openExclusive (client : Nat)
  | write (client pid : Nat)
  | writeFails (client : Nat)
  | close (client : Nat)
  | unlink (client : Nat)
  /-- a connection appeared, or the deadline has passed -/
  | giveUp (client : Nat)
  | stat (client : Nat)
  | readOwner (client : Nat) (alive interactiveShell : Bool)
  | unlinkStale (client : Nat)
  | clock (ms : Nat)

namespace LockWorld

variable (world : LockWorld)

def initial (file : Option LockFile) (inodes nowMs : Nat) : LockWorld := ⟨nowMs, file, inodes, fun _ => .trying⟩

def goto (client : Nat) (phase : Phase) : LockWorld :=
  { world with phases := Function.update world.phases client phase }

/-- What is written goes to the file the client made, wherever its name points now. -/
def write (client inode pid : Nat) : LockWorld :=
  { world.goto client (.held inode) with
    file := world.file.map fun file =>
      if file.inode = inode then { file with ownerPid := some pid, mtimeMs := world.nowMs } else file }

/-- `openSync` with `wx`. -/
def openExclusive (client : Nat) : LockWorld :=
  match world.file with
  | some _ => world.goto client .contended
  | none =>
    { world.goto client (.created world.inodes) with
      file := some ⟨world.inodes, none, world.nowMs⟩, inodes := world.inodes + 1 }

/-- `statSync` and the age of the file; without a file the next round tries again. -/
def stat (client : Nat) : LockWorld :=
  match world.file with
  | none => world.goto client .trying
  | some file =>
    world.goto client (if AGENT_STARTUP_LOCK_STALE_MS ≤ world.nowMs - file.mtimeMs then .removing else .fresh)

/-- `readStartupLockOwnerPid` and what is asked about the owner. -/
def readOwner (client : Nat) (alive interactiveShell : Bool) : LockWorld :=
  match world.file.bind (·.ownerPid) with
  | none => world.goto client .trying
  | some _ => world.goto client (if !alive || interactiveShell then .removing else .trying)

/-- One call; one that is not due does nothing. -/
def step (world : LockWorld) : LockStep → LockWorld
  | .openExclusive client => if world.phases client = .trying then world.openExclusive client else world
  | .write client pid =>
    match world.phases client with
    | .created inode => world.write client inode pid
    | _ => world
  | .writeFails client =>
    match world.phases client with
    | .created _ => world.goto client .trying
    | _ => world
  | .close client =>
    match world.phases client with
    | .held _ => world.goto client .closed
    | _ => world
  | .unlink client => if world.phases client = .closed then { world.goto client .trying with file := none } else world
  | .giveUp client => if world.phases client = .contended then world.goto client .trying else world
  | .stat client => if world.phases client = .contended then world.stat client else world
  | .readOwner client alive interactiveShell =>
    if world.phases client = .fresh then world.readOwner client alive interactiveShell else world
  | .unlinkStale client =>
    if world.phases client = .removing then { world.goto client .trying with file := none } else world
  | .clock ms => { world with nowMs := world.nowMs + ms }

/-- At most one client is between the creation of the lock and its release. -/
def Exclusive : Prop :=
  ∀ first second, (world.phases first).Holds → (world.phases second).Holds → first = second

/-- A lock is removed as stale only while nobody holds it. -/
def RemovesUnheld (world : LockWorld) : LockStep → Prop
  | .unlinkStale client => world.phases client = .removing → ∀ holder, ¬(world.phases holder).Holds
  | _ => True

/-- Behind exclusion: a lock that is held is there. -/
structure Sound (world : LockWorld) : Prop where
  exclusive : world.Exclusive
  present : ∀ holder, (world.phases holder).Holds → world.file ≠ none

variable {world} {client : Nat} {phase : Phase}

lemma holds_goto {other : Nat} (h : ((world.goto client phase).phases other).Holds) :
    (other = client ∧ phase.Holds) ∨ (other ≠ client ∧ (world.phases other).Holds) := by
  by_cases e : other = client
  · subst e
    simp only [goto, Function.update_self] at h
    exact .inl ⟨rfl, h⟩
  · simp only [goto, Function.update_of_ne e] at h
    exact .inr ⟨e, h⟩

lemma Sound.goto (h : world.Sound) (hphase : phase.Holds → (world.phases client).Holds) :
    (world.goto client phase).Sound := by
  have hheld : ∀ {other}, ((world.goto client phase).phases other).Holds → (world.phases other).Holds := by
    intro other hother
    obtain ⟨rfl, hnew⟩ | ⟨-, hold⟩ := holds_goto hother
    · exact hphase hnew
    · exact hold
  exact ⟨fun first second hfirst hsecond => h.exclusive first second (hheld hfirst) (hheld hsecond),
    fun holder hholder => h.present holder (hheld hholder)⟩

lemma Sound.remove (hothers : ∀ other, other ≠ client → ¬(world.phases other).Holds) (hphase : ¬phase.Holds) :
    Sound { world.goto client phase with file := none } := by
  have hnone : ∀ other, ¬((world.goto client phase).phases other).Holds := by
    intro other hother
    obtain ⟨-, hnew⟩ | ⟨hne, hold⟩ := holds_goto hother
    · exact hphase hnew
    · exact hothers other hne hold
  exact ⟨fun first _ hfirst _ => absurd hfirst (hnone first), fun holder hholder => absurd hholder (hnone holder)⟩

lemma Sound.openExclusive (h : world.Sound) (client : Nat) : (world.openExclusive client).Sound := by
  unfold LockWorld.openExclusive
  cases hfile : world.file with
  | some file => exact h.goto fun hholds => hholds.elim
  | none =>
    -- without a file nobody held the lock
    have hnone : ∀ other, ¬(world.phases other).Holds := fun other hother => h.present other hother hfile
    have honly : ∀ {other}, ((world.goto client (.created world.inodes)).phases other).Holds → other = client := by
      intro other hother
      obtain ⟨rfl, -⟩ | ⟨-, hold⟩ := holds_goto hother
      · rfl
      · exact absurd hold (hnone other)
    refine ⟨fun first second hfirst hsecond => ?_, fun _ _ => Option.some_ne_none _⟩
    rw [honly hfirst, honly hsecond]

lemma Sound.write (h : world.Sound) {inode pid : Nat} (hphase : world.phases client = .created inode) :
    (world.write client inode pid).Sound := by
  have hmoved : (world.goto client (.held inode)).Sound := h.goto fun _ => hphase ▸ trivial
  refine ⟨hmoved.exclusive, fun holder hholder hnone => hmoved.present holder hholder ?_⟩
  exact Option.map_eq_none_iff.mp hnone

lemma Sound.step (world : LockWorld) (next : LockStep) (h : world.Sound) (hremoves : world.RemovesUnheld next) :
    (world.step next).Sound := by
  cases next with
  | openExclusive client =>
    simp only [LockWorld.step]
    split
    · exact h.openExclusive client
    · exact h
  | write client pid =>
    simp only [LockWorld.step]
    cases hphase : world.phases client with
    | created inode => exact h.write hphase
    | _ => exact h
  | writeFails client =>
    simp only [LockWorld.step]
    cases hphase : world.phases client with
    | created inode => exact h.goto fun hholds => hholds.elim
    | _ => exact h
  | close client =>
    simp only [LockWorld.step]
    cases hphase : world.phases client with
    | held inode => exact h.goto fun _ => hphase ▸ trivial
    | _ => exact h
  | unlink client =>
    simp only [LockWorld.step]
    split
    next hphase =>
      -- the client that releases is the one that holds
      refine Sound.remove (fun other hne hother => hne ?_) (by exact id)
      exact h.exclusive other client hother (hphase ▸ trivial)
    next => exact h
  | giveUp client =>
    simp only [LockWorld.step]
    split
    · exact h.goto fun hholds => hholds.elim
    · exact h
  | stat client =>
    simp only [LockWorld.step, LockWorld.stat]
    split
    · split
      · exact h.goto fun hholds => hholds.elim
      split
      · exact h.goto fun hholds => hholds.elim
      · exact h.goto fun hholds => hholds.elim
    · exact h
  | readOwner client alive interactiveShell =>
    simp only [LockWorld.step, LockWorld.readOwner]
    split
    · split
      · exact h.goto fun hholds => hholds.elim
      split
      · exact h.goto fun hholds => hholds.elim
      · exact h.goto fun hholds => hholds.elim
    · exact h
  | unlinkStale client =>
    simp only [LockWorld.step]
    split
    next hphase => exact Sound.remove (fun other _ => hremoves hphase other) (by exact id)
    next => exact h
  | clock ms => exact ⟨h.exclusive, h.present⟩

/-- In every run in which no held lock is removed as stale, at most one client holds the lock. -/
theorem startup_lock_exclusive (file : Option LockFile) (inodes nowMs : Nat) (steps : List LockStep)
    (h : StepsMeet step RemovesUnheld (initial file inodes nowMs) steps) :
    (run step (initial file inodes nowMs) steps).Exclusive := by
  have hinitial : (initial file inodes nowMs).Sound :=
    ⟨fun _ _ hfirst _ => hfirst.elim, fun _ hholder => hholder.elim⟩
  have hsound : (run step (initial file inodes nowMs) steps).Sound := run_invariant Sound.step hinitial h
  exact hsound.exclusive

/-- A file that a client left behind an hour ago is removed, and the next client gets the lock. -/
def recovery : List LockStep :=
  [.openExclusive 1, .stat 1, .unlinkStale 1, .openExclusive 1, .write 1 41, .openExclusive 2, .close 1, .unlink 1]

theorem startup_lock_exclusive_recovery : (run step (initial (some ⟨0, some 7, 0⟩) 1 3600000) recovery).Exclusive := by
  refine startup_lock_exclusive _ _ _ recovery
    ⟨trivial, trivial, fun _ holder => ?_, trivial, trivial, trivial, trivial, trivial, trivial⟩
  by_cases e : holder = 1
  · subst e
    decide
  · simp [step, initial, LockWorld.openExclusive, LockWorld.stat, LockWorld.goto, Function.update, e, Phase.Holds]

/-- Client 1 holds the lock for ten seconds; client 2 removes it and creates its own. -/
theorem lock_held_twice :
    ¬(run step (initial none 0 0) [.openExclusive 1, .write 1 41, .clock 10000, .openExclusive 2, .stat 2,
      .unlinkStale 2, .openExclusive 2]).Exclusive := by
  intro h
  exact absurd (h 1 2 trivial trivial) (by decide)

end LockWorld

end PortManager.Extension
