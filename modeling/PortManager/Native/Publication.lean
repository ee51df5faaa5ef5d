import PortManager.Base.Run

/-!
# The publication lane

Embeds `native/agent/portmanager_agent_publication.c`: a queue of jobs that one worker thread runs and
the control thread submits, expires and finishes. The lane is generic in the context `κ` of its
jobs, in the place `φ` a running operation can stand at, and in the state `σ` of the control thread
that `prepare` and `finish` read and write.

The worker's `run` is not one step: between two of its system calls the control thread may poll and the
deadline may pass. `work` therefore moves the worker by one place, and the clock is an argument.
-/

namespace PortManager.Native

def PM_PUBLICATION_MAX_JOBS : Nat := 32
def PM_PUBLICATION_DEADLINE_MS : Nat := 8000

/-- `receipt->status`: 0, 1 and -1. -/
inductive PublicationStatus where
  | pending | succeeded | failed
deriving DecidableEq, Repr

/-- C `pm_publication_job` with the status of its receipt. -/
structure PublicationJob (κ : Type*) where
  context : κ
  bytes : Nat
  deadlineMs : Nat
  canceled : Bool
  status : PublicationStatus

/-- Where the worker stands with the active job; `ok` is `result == 0`. -/
inductive WorkerPlace (φ : Type*) where
  /-- before `pm_publication_canceled() ? -1 : run(context)` -/
  | handed
  /-- inside `run` -/
  | running (place : φ)
  /-- before the second `pm_publication_canceled()` -/
  | returned (ok : Bool)
  /-- before `job->result = result; lane->done = 1` -/
  | reporting (ok : Bool)
  /-- `lane->done` is set -/
  | done (ok : Bool)
deriving DecidableEq

structure PublicationLane (κ φ : Type*) where
  active : Option (PublicationJob κ × WorkerPlace φ)
  queue : List (PublicationJob κ)
  count : Nat
  bytes : Nat
  maxBytes : Nat

/-- The callbacks of the control thread; `finish` says whether it returned 0. -/
structure PublicationOperations (σ κ : Type*) where
  prepare : σ → κ → κ
  finish : σ → κ → Bool → σ × Bool

variable {σ κ φ ε : Type*}

/-- C `pm_publication_canceled`, for the job the worker runs. -/
def PublicationJob.isCanceled (job : PublicationJob κ) (now : Nat) : Bool :=
  job.canceled || job.deadlineMs ≤ now

namespace PublicationLane

/-- C `pm_publication_create`. -/
def create (maxBytes : Nat) : PublicationLane κ φ := ⟨none, [], 0, 0, maxBytes⟩

/-- The job that a coalescing submission takes the place of. -/
def replaced (lane : PublicationLane κ φ) (coalesce : Bool) : Option (PublicationJob κ) :=
  if coalesce then lane.queue.getLast? else none

/-- C `pm_publication_submit`; `none` is a refusal. -/
def submit (now : Nat) (lane : PublicationLane κ φ) (context : κ) (bytes : Nat) (coalesce : Bool) :
    Option (PublicationLane κ φ) :=
  if lane.maxBytes < bytes ∨
      lane.maxBytes - bytes < lane.bytes - ((lane.replaced coalesce).elim 0 (·.bytes)) ∨
      (lane.replaced coalesce).isNone ∧ PM_PUBLICATION_MAX_JOBS ≤ lane.count then none
  else
    match lane.replaced coalesce with
    | some job =>
      some { lane with
        queue := lane.queue.dropLast ++ [{ job with context := context, bytes := bytes }]
        bytes := lane.bytes - job.bytes + bytes }
    | none =>
      some { lane with
        queue := lane.queue ++ [⟨context, bytes, now + PM_PUBLICATION_DEADLINE_MS, false, .pending⟩]
        count := lane.count + 1
        bytes := lane.bytes + bytes }

/-- The active job at a poll: past its deadline it is canceled and its receipt fails. -/
def cancelOverdue (now : Nat) (job : PublicationJob κ) : PublicationJob κ :=
  if job.deadlineMs ≤ now then
    { job with
      canceled := true
      status := if job.status = .pending then .failed else job.status }
  else job

/-- The active job at a poll, when the worker is done with it, and its result. -/
def completed (now : Nat) (lane : PublicationLane κ φ) : Option (PublicationJob κ × Bool) :=
  match lane.active with
  | some (job, .done ok) => some (cancelOverdue now job, ok)
  | _ => none

def stillActive (now : Nat) (lane : PublicationLane κ φ) : Option (PublicationJob κ × WorkerPlace φ) :=
  match lane.active with
  | some (_, .done _) => none
  | some (job, place) => some (cancelOverdue now job, place)
  | none => none

/-- `if (completed->receipt->status == 0) status = finished == 0 ? 1 : -1;` -/
def settle (status : PublicationStatus) (finished : Bool) : PublicationStatus :=
  if status = .pending then (if finished then .succeeded else .failed) else status

/-- `if (!active && lane->head != NULL)`: the next job goes to the worker. -/
def handOver (prepare : κ → κ) (lane : PublicationLane κ φ) : PublicationLane κ φ :=
  match lane.active, lane.queue with
  | none, job :: queue =>
    { lane with active := some ({ job with context := prepare job.context }, .handed), queue := queue }
  | _, _ => lane

/-- The first half of C `pm_publication_poll`: the completed job is finished. -/
def finishCompleted (operations : PublicationOperations σ κ) (now : Nat) (state : σ)
    (lane : PublicationLane κ φ) : σ × PublicationLane κ φ × List PublicationStatus :=
  match lane.completed now with
  | none => (state, { lane with active := lane.stillActive now }, [])
  | some (job, ok) =>
    let (state, finished) := operations.finish state job.context (!job.canceled && ok)
    (state,
      { lane with
        active := lane.stillActive now
        count := lane.count - 1
        bytes := lane.bytes - job.bytes },
      [settle job.status finished])

/-- The queued jobs past their deadline, which are at the head. -/
def overdue (now : Nat) (lane : PublicationLane κ φ) : List (PublicationJob κ) :=
  lane.queue.takeWhile fun job => job.deadlineMs ≤ now

/-- The second half of C `pm_publication_poll`: queued jobs expire. -/
def expireQueue (now : Nat) (lane : PublicationLane κ φ) : PublicationLane κ φ :=
  { lane with
    queue := lane.queue.dropWhile fun job => job.deadlineMs ≤ now
    count := lane.count - (lane.overdue now).length
    bytes := lane.bytes - ((lane.overdue now).map (·.bytes)).sum }

/-- C `pm_publication_poll`: the control state, the lane, and the receipts it has settled. -/
def poll (operations : PublicationOperations σ κ) (now : Nat) (state : σ) (lane : PublicationLane κ φ) :
    σ × PublicationLane κ φ × List PublicationStatus :=
  let (state, lane, settled) := finishCompleted operations now state lane
  (state, (lane.expireQueue now).handOver (operations.prepare state),
    settled ++ (lane.overdue now).map fun _ => .failed)

/-- One step of C `pm_publication_work`. `start` is where `run` begins, and `runStep` one step of
it on the files `ε`: the next place, or its result. -/
def work (start : φ) (runStep : PublicationJob κ → ε → φ → ε × κ × (φ ⊕ Bool)) (now : Nat) (files : ε)
    (lane : PublicationLane κ φ) : ε × PublicationLane κ φ :=
  match lane.active with
  | none => (files, lane)
  | some (job, .handed) =>
    (files, { lane with
      active := some (job, if job.isCanceled now then .returned false else .running start) })
  | some (job, .running place) =>
    let (files, context, next) := runStep job files place
    (files, { lane with active := some ({ job with context := context }, next.elim .running .returned) })
  | some (job, .returned ok) =>
    (files, { lane with active := some (job, .reporting (ok && !job.isCanceled now)) })
  | some (job, .reporting ok) => (files, { lane with active := some (job, .done ok) })
  | some (_, .done _) => (files, lane)

end PublicationLane
end PortManager.Native
