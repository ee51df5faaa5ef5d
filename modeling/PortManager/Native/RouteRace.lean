import PortManager.Native.RouteHeartbeat

/-!
# Two native daemons and one path

Two live daemons publish to one path, one system call at a time. A write tests the generation on disk
(C `pm_write_route_table_file`), prepares a temporary file, tests again (C `pm_route_commit_allowed`) and
renames (C `pm_write_atomic_guarded`); an unlink tests and unlinks
(C `pm_unlink_route_table_file_if_not_newer`). The last test and the rename or unlink after it are separate
system calls, and nothing locks the path.

So the older daemon can pass its last test, and the newer daemon can rename before the older one acts.
Without that overlap the older daemon leaves the newer one's document alone.
-/

namespace PortManager.Native
open CText Run

/-! ## Daemons -/

/-- What C `pm_state_init` takes a daemon's identity from. -/
structure NativeDaemon where
  routeTablePath : Text
  pid : Int
  startedMs : Int
  pid_pos : 0 < pid
  started_pos : 0 < startedMs

/-- The writer that C `pm_state_init` makes. -/
def NativeDaemon.writer (daemon : NativeDaemon) : RouteWriter where
  routeTablePath := daemon.routeTablePath
  writerId := truncate PM_ID (ascii "native-agent:" ++ decimal daemon.pid ++ 58 :: decimal daemon.startedMs)
  writerStartedMs := daemon.startedMs
  agentPid := daemon.pid

/-- The order of `(writerStartedAtMs, writerId)`. -/
def NativeDaemon.Before (older newer : NativeDaemon) : Prop :=
  older.startedMs < newer.startedMs ∨
    older.startedMs = newer.startedMs ∧ strcmp newer.writer.writerId older.writer.writerId = .gt

instance (older newer : NativeDaemon) : Decidable (older.Before newer) :=
  inferInstanceAs (Decidable (_ ∨ _))

structure DocumentInput where
  ttl : RouteTtl
  refreshes : List BidirectionalRefresh
  sequence : Nat
  routes : List Route
  nowMs : Int

/-- The document of C `pm_write_route_table_file`. -/
def NativeDaemon.document (daemon : NativeDaemon) (input : DocumentInput) : RouteFile :=
  SnapshotPass.document ⟨daemon.writer, input.ttl, input.refreshes, input.sequence, fun _ => ⟨input.nowMs, fun _ => true, true⟩⟩
    input.routes input.nowMs

def NativeDaemon.Wrote (daemon : NativeDaemon) (file : RouteFile) : Prop :=
  ∃ input, file = daemon.document input

lemma newer_of_wrote {older newer : NativeDaemon} (hbefore : older.Before newer) {alive : Int → Bool}
    (halive : alive newer.pid = true) {file : RouteFile} (hwrote : newer.Wrote file) (sequence : Nat) :
    routeTableGenerationIsNewer alive older.writer (some file) sequence = true := by
  obtain ⟨input, rfl⟩ := hwrote
  have hread : readRouteTableGeneration (newer.document input) = some (newer.document input).generation := by
    refine if_neg ?_
    rintro (hempty | hlong | hstarted | hpid)
    · exact absurd (congrArg List.length hempty) (by simp [NativeDaemon.document, SnapshotPass.document,
        NativeDaemon.writer, truncate, ascii, PM_ID])
    · exact absurd hlong (by simp [NativeDaemon.document, SnapshotPass.document, NativeDaemon.writer, truncate, PM_ID])
    · exact absurd hstarted (not_le.mpr newer.started_pos)
    · exact absurd hpid (not_le.mpr newer.pid_pos)
  simp only [routeTableGenerationIsNewer, Option.bind_some, hread]
  rcases hbefore with hlt | ⟨heq, hgt⟩
  · rw [if_pos (show (newer.document input).generation.writerStartedAtMs ≠ older.writer.writerStartedMs from hlt.ne')]
    exact Bool.and_eq_true_iff.mpr ⟨decide_eq_true hlt, halive⟩
  rw [if_neg (not_not.mpr (show (newer.document input).generation.writerStartedAtMs =
    older.writer.writerStartedMs from heq.symm))]
  have hcompare : strcmp (newer.document input).generation.writerId older.writer.writerId = .gt := hgt
  rw [hcompare]
  exact halive

/-! ## System calls -/

inductive CommitPhase where
  | idle
  /-- the first test has passed, the temporary file is being written -/
  | preparing (sequence : Nat) (document : RouteFile)
  /-- the last test has passed, the rename is next -/
  | committing (document : RouteFile)
  /-- the test has passed, the unlink is next -/
  | unlinking
deriving DecidableEq

def CommitPhase.pastTest : CommitPhase → Bool
  | .committing _ | .unlinking => true
  | .idle | .preparing .. => false

/-- One system call of a daemon on the path. A file that cannot be read counts as not newer. -/
inductive PathCall where
  | testWrite (input : DocumentInput) (readable : Bool)
  | testCommit (readable : Bool)
  | rename
  | testUnlink (sequence : Nat) (readable : Bool)
  | unlink
  /-- an error, or the job is canceled -/
  | giveUp

inductive PathChange where
  | replaced (document : RouteFile)
  | unlinked
deriving DecidableEq

section Calls

variable (alive : Int → Bool) (daemon : NativeDaemon)

/-- C `pm_route_table_generation_is_newer` on what the read returns. -/
def NativeDaemon.sees (file : Option RouteFile) (readable : Bool) (sequence : Nat) : Bool :=
  routeTableGenerationIsNewer alive daemon.writer (if readable then file else none) sequence

/-- One call of a daemon: its next phase and what it changes. A call that is not next does nothing. -/
def NativeDaemon.call (file : Option RouteFile) : CommitPhase → PathCall → CommitPhase × Option PathChange
  | .idle, .testWrite input readable =>
    (if daemon.sees alive file readable input.sequence then .idle
      else .preparing input.sequence (daemon.document input), none)
  | .preparing sequence document, .testCommit readable =>
    (if daemon.sees alive file readable sequence then .idle else .committing document, none)
  | .committing document, .rename => (.idle, some (.replaced document))
  | .idle, .testUnlink sequence readable =>
    (if daemon.sees alive file readable sequence then .idle else .unlinking, none)
  | .unlinking, .unlink => (.idle, some .unlinked)
  | _, .giveUp => (.idle, none)
  | phase, _ => (phase, none)

inductive CallOutcome (file : Option RouteFile) : CommitPhase → PathCall → CommitPhase × Option PathChange → Prop where
  | nothing (phase : CommitPhase) (call : PathCall) : CallOutcome file phase call (phase, none)
  | stopped (phase : CommitPhase) (call : PathCall) : CallOutcome file phase call (.idle, none)
  | mayPrepare (input : DocumentInput) (readable : Bool) :
      CallOutcome file .idle (.testWrite input readable) (.preparing input.sequence (daemon.document input), none)
  | mayRename (sequence : Nat) (document : RouteFile) (readable : Bool) :
      daemon.sees alive file readable sequence = false →
      CallOutcome file (.preparing sequence document) (.testCommit readable) (.committing document, none)
  | renamed (document : RouteFile) : CallOutcome file (.committing document) .rename (.idle, some (.replaced document))
  | mayUnlink (sequence : Nat) (readable : Bool) : daemon.sees alive file readable sequence = false →
      CallOutcome file .idle (.testUnlink sequence readable) (.unlinking, none)
  | unlinked : CallOutcome file .unlinking .unlink (.idle, some .unlinked)

lemma NativeDaemon.call_outcome (file : Option RouteFile) (phase : CommitPhase) (call : PathCall) :
    CallOutcome alive daemon file phase call (daemon.call alive file phase call) := by
  unfold NativeDaemon.call
  split
  next input readable =>
    split
    · exact .stopped ..
    · exact .mayPrepare ..
  next sequence document readable =>
    split
    · exact .stopped ..
    next hsees => exact .mayRename _ _ _ (Bool.not_eq_true _ ▸ hsees)
  next document => exact .renamed document
  next sequence readable =>
    split
    · exact .stopped ..
    next hsees => exact .mayUnlink _ _ (Bool.not_eq_true _ ▸ hsees)
  next => exact .unlinked
  next => exact .stopped ..
  next => exact .nothing ..

end Calls

def PathChange.file : PathChange → Option RouteFile
  | .replaced document => some document
  | .unlinked => none

/-- The path and the two daemons. `claimed`: the newer daemon has renamed a document onto the path;
`lost`: since then the older one has replaced or unlinked it. -/
structure PathRace where
  file : Option RouteFile
  newer : CommitPhase
  older : CommitPhase
  claimed : Bool
  lost : Bool
deriving DecidableEq

inductive RaceEvent where
  | newer (call : PathCall)
  | older (call : PathCall)

/-- Two daemons, the one before the other, and the processes that live: both do. -/
structure RaceSetting where
  older : NativeDaemon
  newer : NativeDaemon
  before : older.Before newer
  alive : Int → Bool
  older_alive : alive older.pid = true
  newer_alive : alive newer.pid = true

def PathChange.isReplaced : PathChange → Bool
  | .replaced _ => true
  | .unlinked => false

def PathRace.step (setting : RaceSetting) (race : PathRace) : RaceEvent → PathRace
  | .newer call =>
    let (phase, change) := setting.newer.call setting.alive race.file race.newer call
    { race with
      newer := phase
      file := (change.map PathChange.file).getD race.file
      claimed := race.claimed || change.any PathChange.isReplaced }
  | .older call =>
    let (phase, change) := setting.older.call setting.alive race.file race.older call
    { race with
      older := phase
      file := (change.map PathChange.file).getD race.file
      -- an unlink of a missing file changes nothing
      lost := race.lost || (race.claimed && change.any fun change => change.isReplaced || race.file.isSome) }

def PathRace.start (file : Option RouteFile) : PathRace := ⟨file, .idle, .idle, false, false⟩

/-! ## Runs without overlap -/

def PathCall.reads : PathCall → Bool
  | .testWrite _ readable | .testCommit readable | .testUnlink _ readable => readable
  | .rename | .unlink | .giveUp => true

/-- The newer daemon renames only while the older one has not passed its last test, and does not unlink a
path it has renamed a document onto; the older daemon's reads do not fail from then on. -/
def PathRace.NoOverlap (setting : RaceSetting) (race : PathRace) : RaceEvent → Prop
  | .newer call => ∀ change ∈ (setting.newer.call setting.alive race.file race.newer call).2,
      if change.isReplaced then race.older.pastTest = false else race.claimed = false
  | .older call => race.claimed = true → call.reads = true

instance (setting : RaceSetting) (race : PathRace) : ∀ event, Decidable (race.NoOverlap setting event)
  | .newer _ => inferInstanceAs (Decidable (∀ change ∈ _, _))
  | .older _ => inferInstanceAs (Decidable (_ → _))

/-- What holds in a run without overlap. -/
structure PathRace.Kept (setting : RaceSetting) (race : PathRace) : Prop where
  /-- the newer daemon prepares and renames its own documents -/
  prepares : ∀ sequence document, race.newer = .preparing sequence document → setting.newer.Wrote document
  commits : ∀ document, race.newer = .committing document → setting.newer.Wrote document
  /-- once it has renamed one, one is there and the older daemon has not passed its last test -/
  file : race.claimed = true → ∃ document, race.file = some document ∧ setting.newer.Wrote document
  guarded : race.claimed = true → race.older.pastTest = false
  lost : race.lost = false

lemma PathRace.start_kept (setting : RaceSetting) (file : Option RouteFile) : (start file).Kept setting where
  prepares := nofun
  commits := nofun
  file := nofun
  guarded := nofun
  lost := rfl

lemma PathRace.Kept.sees {setting : RaceSetting} {race : PathRace} (hkept : race.Kept setting)
    (hclaimed : race.claimed = true) (sequence : Nat) :
    setting.older.sees setting.alive race.file true sequence = true := by
  obtain ⟨document, hfile, hwrote⟩ := hkept.file hclaimed
  rw [hfile]
  exact newer_of_wrote setting.before setting.newer_alive hwrote sequence

variable {setting : RaceSetting} {race : PathRace} {phase : CommitPhase} (hkept : race.Kept setting)
include hkept

lemma PathRace.Kept.goesOn
    (hprepares : ∀ sequence document, phase = .preparing sequence document → setting.newer.Wrote document)
    (hcommits : ∀ document, phase = .committing document → setting.newer.Wrote document) :
    ({ race with newer := phase } : PathRace).Kept setting  where
  prepares := hprepares
  commits := hcommits
  file := hkept.file
  guarded := hkept.guarded
  lost := hkept.lost

lemma PathRace.newer_kept (call : PathCall) (hoverlap : race.NoOverlap setting (.newer call)) :
    (race.step setting (.newer call)).Kept setting := by
  have houtcome := setting.newer.call_outcome setting.alive race.file race.newer call
  simp only [step, NoOverlap] at hoverlap ⊢
  generalize hphase : race.newer = phase at houtcome hoverlap ⊢
  generalize setting.newer.call setting.alive race.file phase call = result at houtcome hoverlap ⊢
  cases houtcome with
  | nothing =>
    simp only [Option.map_none, Option.getD_none, Option.any_none, Bool.or_false]
    exact hkept.goesOn (fun sequence document h => hkept.prepares sequence document (hphase.trans h))
      fun document h => hkept.commits document (hphase.trans h)
  | stopped | mayUnlink =>
    simp only [Option.map_none, Option.getD_none, Option.any_none, Bool.or_false]
    exact hkept.goesOn nofun nofun
  | mayPrepare input readable =>
    simp only [Option.map_none, Option.getD_none, Option.any_none, Bool.or_false]
    refine hkept.goesOn (fun sequence document h => ?_) nofun
    cases h
    exact ⟨input, rfl⟩
  | mayRename sequence document readable =>
    simp only [Option.map_none, Option.getD_none, Option.any_none, Bool.or_false]
    refine hkept.goesOn nofun fun document h => ?_
    cases h
    exact hkept.prepares sequence document hphase
  | renamed document =>
    have hguarded : race.older.pastTest = false := hoverlap _ rfl
    exact ⟨nofun, nofun, fun _ => ⟨document, rfl, hkept.commits document hphase⟩, fun _ => hguarded, hkept.lost⟩
  | unlinked =>
    have hunclaimed : race.claimed = false := hoverlap _ rfl
    simp only [hunclaimed]
    exact ⟨nofun, nofun, nofun, nofun, hkept.lost⟩

lemma PathRace.Kept.followsOn (hguarded : race.claimed = true → phase.pastTest = false) :
    ({ race with older := phase } : PathRace).Kept setting  where
  prepares := hkept.prepares
  commits := hkept.commits
  file := hkept.file
  guarded := hguarded
  lost := hkept.lost

lemma PathRace.Kept.refuses {readable : Bool} (hreads : race.claimed = true → readable = true) {sequence : Nat}
    (hsees : setting.older.sees setting.alive race.file readable sequence = false) : race.claimed = false := by
  cases hclaimed : race.claimed with
  | false => rfl
  | true =>
    rw [hreads hclaimed, hkept.sees hclaimed sequence] at hsees
    cases hsees

lemma PathRace.older_kept (call : PathCall) (hoverlap : race.NoOverlap setting (.older call)) :
    (race.step setting (.older call)).Kept setting := by
  have houtcome := setting.older.call_outcome setting.alive race.file race.older call
  simp only [step, NoOverlap] at hoverlap ⊢
  generalize hphase : race.older = phase at houtcome ⊢
  generalize setting.older.call setting.alive race.file phase call = result at houtcome ⊢
  -- a change comes from a phase past the last test, so the newer daemon has renamed nothing yet
  have hunclaimed : phase.pastTest = true → race.claimed = false := by
    intro hpast
    cases hclaimed : race.claimed with
    | false => rfl
    | true => exact absurd (hphase ▸ hkept.guarded hclaimed) (by simp [hpast])
  cases houtcome with
  | nothing =>
    simp only [Option.map_none, Option.getD_none, Option.any_none, Bool.and_false, Bool.or_false]
    exact hkept.followsOn fun hclaimed => hphase ▸ hkept.guarded hclaimed
  | stopped | mayPrepare =>
    simp only [Option.map_none, Option.getD_none, Option.any_none, Bool.and_false, Bool.or_false]
    exact hkept.followsOn fun _ => rfl
  | mayRename sequence document readable hsees | mayUnlink sequence readable hsees =>
    have hfree := hkept.refuses hoverlap hsees
    simp only [Option.map_none, Option.getD_none, Option.any_none, Bool.and_false, Bool.or_false]
    exact hkept.followsOn fun hclaimed => absurd (hfree.symm.trans hclaimed) nofun
  | renamed document | unlinked =>
    simp only [hunclaimed rfl, Bool.false_and, Bool.or_false]
    exact ⟨hkept.prepares, hkept.commits, nofun, nofun, hkept.lost⟩

omit hkept

lemma PathRace.step_kept (setting : RaceSetting) (race : PathRace) (event : RaceEvent) (hkept : race.Kept setting)
    (hoverlap : race.NoOverlap setting event) : (race.step setting event).Kept setting := by
  cases event with
  | newer call => exact newer_kept hkept call hoverlap
  | older call => exact older_kept hkept call hoverlap

/-- In every run without overlap the older daemon leaves the path alone once the newer one has renamed a
document onto it. -/
theorem newer_document_survives (setting : RaceSetting) (file : Option RouteFile) (events : List RaceEvent)
    (hmeet : StepsMeet (PathRace.step setting) (PathRace.NoOverlap setting) (.start file) events) :
    (run (PathRace.step setting) (.start file) events).lost = false :=
  (run_invariant (PathRace.step_kept setting) (PathRace.start_kept setting file) hmeet).lost

def sampleRace : RaceSetting where
  older := ⟨ascii "/r/routes.json", 7, 1000, by decide, by decide⟩
  newer := ⟨ascii "/r/routes.json", 8, 2000, by decide, by decide⟩
  before := .inl (by decide)
  alive := fun _ => true
  older_alive := rfl
  newer_alive := rfl

def sampleInput : DocumentInput := ⟨routeTableTtlSeconds none, [], 1, [sampleRoute], 100900⟩

/-- The newer daemon renames while the older one prepares a document. -/
def refusedRun : List RaceEvent :=
  [.older (.testWrite sampleInput true), .newer (.testWrite sampleInput true), .newer (.testCommit true),
    .newer .rename, .older (.testCommit true), .older .rename]

theorem newer_document_survives_second_test :
    (run (PathRace.step sampleRace) (.start none) refusedRun).claimed = true ∧
      (run (PathRace.step sampleRace) (.start none) refusedRun).lost = false :=
  ⟨by decide +kernel, newer_document_survives sampleRace none refusedRun (by decide +kernel)⟩

/-- The newer daemon renames after the older one's last test, and the older one renames over it. -/
theorem newer_document_replaced :
    (run (PathRace.step sampleRace) (.start none)
      [.older (.testWrite sampleInput true), .older (.testCommit true), .newer (.testWrite sampleInput true),
        .newer (.testCommit true), .newer .rename, .older .rename]).lost = true := by
  decide +kernel

end PortManager.Native
