import PortManager.Base.Run

/-!
# The browser DNS sync coordinator

Embeds `BrowserDnsSyncCoordinator` of `extension/browser-dns-sync-coordinator.ts`. A drain is cut at every point where other code may run: inside
each of the callbacks `prepare`, `send`, `onResult`, `resolveRejected` and `onError`, at the `await` of `send`, and before the `finally` of
`runDrain`. An event is a call or lets a drain go on, so a list of events is an interleaving, with calls that callbacks make.

`start` sets `active` only when the first part of `runDrain` is over, which is after `prepare` and the synchronous part of `send`; until then a
drain is `fresh`. `prepare` gives the batch the identity of the daemon, as the owner of the coordinator does.
-/

namespace PortManager.Browser
open Run List Option

structure BrowserDnsSyncBatch where
  records : String
  revision : Option String
  sharedStatePath : Option String
  signature : String
  daemonIncarnation : Option String
deriving DecidableEq

def sameBatch (left right : BrowserDnsSyncBatch) : Bool :=
  left.signature = right.signature && left.daemonIncarnation = right.daemonIncarnation

/-- What the coordinator reads of an `AgentBrowserDnsSyncResult`; `applied` is false only if the field is. -/
structure AgentBrowserDnsSyncResult where
  suspended : Bool
  applied : Bool
  running : Bool

inductive RejectedResolution where
  | retry
  | drop
  | replace (batch : BrowserDnsSyncBatch)

inductive DrainPhase where
  /-- In `prepare`. -/
  | preparing (queued : BrowserDnsSyncBatch)
  /-- In the synchronous part of `send`. -/
  | calling (batch : BrowserDnsSyncBatch)
  /-- At the `await`. -/
  | awaiting (batch : BrowserDnsSyncBatch)
  /-- In `onResult`. -/
  | resulted (batch : BrowserDnsSyncBatch) (applied running : Bool)
  /-- In `resolveRejected`. -/
  | resolving (batch : BrowserDnsSyncBatch)
  /-- In `onError`. -/
  | failed (batch : BrowserDnsSyncBatch)
  /-- Before the `finally` of `runDrain`. -/
  | finished
deriving DecidableEq

structure Drain where
  fresh : Bool
  phase : DrainPhase
deriving DecidableEq

/-- The coordinator, with its drains, the batches that were sent, the batch that was enqueued last, and the one that was last supplied (by `enqueue` or
as a replacement). The retry timer has its delay. -/
structure BrowserDnsSyncCoordinator where
  queued : Option BrowserDnsSyncBatch
  active : Bool
  sending : Option BrowserDnsSyncBatch
  retryTimer : Option Nat
  attempt : Nat
  disposed : Bool
  drains : List Drain
  sent : List BrowserDnsSyncBatch
  enqueued : Option BrowserDnsSyncBatch
  supplied : Option BrowserDnsSyncBatch

/-- What a drain that goes on learns: the identity of the daemon (if there is a `prepare`), how `send` ended (`none` for an error), whether the callback
threw, and what `resolveRejected` returned. -/
structure DrainAnswer where
  incarnation : Option (Option String)
  outcome : Option AgentBrowserDnsSyncResult
  threw : Bool
  resolution : RejectedResolution

namespace BrowserDnsSyncCoordinator

def new : BrowserDnsSyncCoordinator where
  queued := none
  active := false
  sending := none
  retryTimer := none
  attempt := 0
  disposed := false
  drains := []
  sent := []
  enqueued := none
  supplied := none

/-! ## Calls -/

variable (sync : BrowserDnsSyncCoordinator)

/-- TypeScript `start`, with `drain` up to its first callback. -/
def start : BrowserDnsSyncCoordinator :=
  if sync.disposed || sync.active then sync
  else
    match sync.queued with
    | none => sync
    | some batch => { sync with drains := sync.drains ++ [⟨true, .preparing batch⟩] }

variable (batch : BrowserDnsSyncBatch)

/-- The part of `enqueue` that puts the batch in the queue. -/
def put : BrowserDnsSyncCoordinator :=
  let changed := sync.queued.all fun queued => !sameBatch queued batch
  let sync := { sync with queued := some batch }
  if changed && sync.retryTimer.isSome then { sync with retryTimer := none, attempt := 0 } else sync

def enqueue : BrowserDnsSyncCoordinator :=
  if sync.disposed then sync
  else
    let sync := { sync with enqueued := some batch, supplied := some batch }
    if sync.sending.any fun sending => sameBatch sending batch then { sync with queued := none }
    else
      let sync := sync.put batch
      if !sync.active && sync.retryTimer.isNone then sync.start else sync

/-- TypeScript `flushPendingNow`, up to its `await`. -/
def flushPendingNow : BrowserDnsSyncCoordinator :=
  if sync.disposed then sync
  else
    let sync := { sync with retryTimer := none }
    if !sync.active && sync.queued.isSome then sync.start else sync

def dispose : BrowserDnsSyncCoordinator :=
  { sync with disposed := true, retryTimer := none, queued := none }

/-- The callback of the retry timer. -/
def fire : BrowserDnsSyncCoordinator :=
  if sync.retryTimer.isNone then sync
  else
    let sync := { sync with retryTimer := none }
    if !sync.active && sync.queued.isSome then sync.start else sync

/-! ## Drains -/

variable (index : Nat)

def proceed (phase : DrainPhase) : BrowserDnsSyncCoordinator :=
  { sync with drains := sync.drains.set index ⟨false, phase⟩ }

/-- The head of the loop of `drain`. -/
def loop : BrowserDnsSyncCoordinator :=
  match sync.queued with
  | none => sync.proceed index .finished
  | some batch => sync.proceed index (if sync.disposed then .finished else .preparing batch)

def retry : BrowserDnsSyncCoordinator :=
  if sync.retryTimer.isSome || sync.disposed then sync
  else
    { sync with
      retryTimer := some (min 5000 (100 * 2 ^ min sync.attempt 5))
      attempt := sync.attempt + 1 }

/-- The end of the body of the loop: another batch is sent at once, the same one is sent again later. -/
def again (batch : BrowserDnsSyncBatch) : BrowserDnsSyncCoordinator :=
  if sync.queued.any fun queued => !sameBatch queued batch then { sync with attempt := 0 }.loop index
  else sync.retry.proceed index .finished

/-- The `finally` of the attempt. -/
def unsend : BrowserDnsSyncCoordinator := { sync with sending := none }

/-- `this.queued ??= batch`. -/
def requeue : BrowserDnsSyncCoordinator :=
  { sync with queued := sync.queued.or (some batch) }

/-- `catch`, up to `onError`. -/
def catchError (batch : BrowserDnsSyncBatch) : BrowserDnsSyncCoordinator :=
  if sync.disposed then sync.unsend.proceed index .finished else sync.proceed index (.failed batch)

/-- A batch was dealt with, and the loop goes on. -/
def done : BrowserDnsSyncCoordinator :=
  { sync.unsend with attempt := 0 }.loop index

/-- The `finally` of `runDrain`. -/
def finish : BrowserDnsSyncCoordinator :=
  let sync := { sync with active := false, drains := sync.drains.eraseIdx index }
  if !sync.disposed && sync.retryTimer.isNone && sync.queued.isSome then sync.start else sync

/-- A drain goes on up to its next callback, its `await` or its end. -/
def resume (fresh : Bool) (answer : DrainAnswer) :
    DrainPhase → BrowserDnsSyncCoordinator
  | .preparing queued =>
    let batch := match answer.incarnation with
      | none => queued
      | some incarnation => { queued with daemonIncarnation := incarnation }
    { sync with
      queued := none
      sending := some batch
      sent := sync.sent ++ [batch]
      drains := sync.drains.set index ⟨fresh, .calling batch⟩ }
  | .calling batch => { sync with active := sync.active || fresh }.proceed index (.awaiting batch)
  | .awaiting batch =>
    match answer.outcome with
    | none => sync.catchError index batch
    | some result =>
      if sync.disposed then sync.unsend.proceed index .finished
      else if result.suspended then sync.done index
      else sync.proceed index (.resulted batch result.applied result.running)
  | .resulted batch applied running =>
    if answer.threw then sync.catchError index batch
    else if !applied then sync.proceed index (.resolving batch)
    else if running then sync.done index
    else (sync.requeue batch).unsend.again index batch
  | .resolving batch =>
    if answer.threw then sync.catchError index batch
    else
      match answer.resolution with
      | .drop => sync.done index
      | .retry => (sync.requeue batch).unsend.again index batch
      | .replace replacement =>
        { sync.unsend with queued := some replacement, supplied := some replacement }.again index batch
  | .failed batch =>
    if answer.threw then sync.unsend.proceed index .finished
    else (sync.requeue batch).unsend.again index batch
  | .finished => sync.finish index

inductive Event where
  | enqueue (batch : BrowserDnsSyncBatch)
  | flushPendingNow
  | dispose
  | fire
  | resume (index : Nat) (answer : DrainAnswer)

def step : Event → BrowserDnsSyncCoordinator
  | .enqueue batch => sync.enqueue batch
  | .flushPendingNow => sync.flushPendingNow
  | .dispose => sync.dispose
  | .fire => sync.fire
  | .resume index answer =>
    match sync.drains[index]? with
    | some drain => sync.resume index drain.fresh answer drain.phase
    | none => sync

/-! ## No lost wake-up -/

/-- A batch in the queue is covered by a drain or by the retry timer. -/
structure Covered (sync : BrowserDnsSyncCoordinator) : Prop where
  active : sync.active = true → sync.drains ≠ []
  queued : sync.disposed = false → sync.queued.isSome → sync.drains ≠ [] ∨ sync.retryTimer.isSome

variable {sync : BrowserDnsSyncCoordinator}

lemma Covered.of_drains (h : sync.drains ≠ []) : sync.Covered := ⟨fun _ => h, fun _ _ => .inl h⟩

lemma Covered.start (hactive : sync.active = true → sync.drains ≠ []) : sync.start.Covered := by
  unfold BrowserDnsSyncCoordinator.start
  split
  next hbusy =>
    refine ⟨hactive, fun hdisposed _ => .inl (hactive ?_)⟩
    rw [hdisposed, Bool.false_or] at hbusy
    exact hbusy
  split
  next hnone =>
    refine ⟨hactive, fun _ hsome => ?_⟩
    rw [hnone] at hsome
    cases hsome
  · exact .of_drains (append_ne_nil_of_right_ne_nil _ (cons_ne_nil _ _))

/-- Nothing is sent, no drain begins or ends, and the coordinator is not disposed of. -/
structure Quiet (sync after : BrowserDnsSyncCoordinator) : Prop where
  sent : after.sent = sync.sent
  disposed : after.disposed = sync.disposed
  length : after.drains.length = sync.drains.length

variable (sync)

lemma quiet_proceed (phase : DrainPhase) : sync.Quiet (sync.proceed index phase) := ⟨rfl, rfl, length_set ..⟩

lemma quiet_loop : sync.Quiet (sync.loop index) := by
  unfold loop
  split <;> exact quiet_proceed _ _ _

lemma quiet_again : sync.Quiet (sync.again index batch) := by
  unfold again
  split
  · exact { quiet_loop index { sync with attempt := 0 } with }
  unfold retry
  split
  · exact quiet_proceed _ _ _
  · exact ⟨rfl, rfl, length_set ..⟩

variable {sync}

/-- The batch that a drain has sent and not dealt with. -/
def inFlight : DrainPhase → Option BrowserDnsSyncBatch
  | .awaiting batch | .resulted batch _ _ | .resolving batch | .failed batch => some batch
  | _ => none

inductive Goes (sync : BrowserDnsSyncCoordinator) (index : Nat) (batch : BrowserDnsSyncBatch) : BrowserDnsSyncCoordinator → Prop
  | on (phase : DrainPhase) (hphase : inFlight phase = some batch) : Goes sync index batch (sync.proceed index phase)
  | stop : Goes sync index batch (sync.unsend.proceed index .finished)
  | done : Goes sync index batch (sync.done index)
  | requeue : Goes sync index batch ((sync.requeue batch).unsend.again index batch)
  | replace (replacement : BrowserDnsSyncBatch) : Goes sync index batch
      ({ sync.unsend with queued := some replacement, supplied := some replacement }.again index batch)

lemma goes_catchError : sync.Goes index batch (sync.catchError index batch) := by
  unfold catchError
  split
  · exact .stop
  · exact .on _ rfl

variable {index : Nat} {fresh : Bool} {answer : DrainAnswer} {phase : DrainPhase} {batch}

lemma goes_resume (hphase : inFlight phase = some batch) : sync.Goes index batch (sync.resume index fresh answer phase) := by
  cases phase with
  | awaiting sending =>
    cases hphase
    rw [resume]
    split
    · exact goes_catchError _ _
    split
    · exact .stop
    split
    · exact .done
    · exact .on _ rfl
  | resulted sending applied running =>
    cases hphase
    rw [resume]
    split
    · exact goes_catchError _ _
    split
    · exact .on _ rfl
    split
    · exact .done
    · exact .requeue
  | resolving sending =>
    cases hphase
    rw [resume]
    split
    · exact goes_catchError _ _
    split
    · exact .done
    · exact .requeue
    · exact .replace _
  | failed sending =>
    cases hphase
    rw [resume]
    split
    · exact .stop
    · exact .requeue
  | _ => cases hphase

lemma Goes.quiet {after : BrowserDnsSyncCoordinator} (h : sync.Goes index batch after) : sync.Quiet after := by
  cases h with
  | on phase => exact quiet_proceed index sync phase
  | stop => exact { quiet_proceed index sync.unsend .finished with }
  | done => exact { quiet_loop index { sync.unsend with attempt := 0 } with }
  | requeue => exact { quiet_again batch index (sync.requeue batch).unsend with }
  | replace replacement =>
    exact { quiet_again batch index { sync.unsend with queued := some replacement, supplied := some replacement } with }

/-- Between `prepare` and the `finally` nothing is sent, and the drain stays. -/
lemma quiet_resume (hprepare : ∀ queued, phase ≠ .preparing queued) (hfinish : phase ≠ .finished) :
    sync.Quiet (sync.resume index fresh answer phase) := by
  cases phase with
  | preparing queued => exact absurd rfl (hprepare queued)
  | calling batch => exact ⟨rfl, rfl, length_set ..⟩
  | finished => exact absurd rfl hfinish
  | _ => exact (goes_resume rfl).quiet

variable (batch)

lemma Covered.finish (index : Nat) : (sync.finish index).Covered := by
  unfold BrowserDnsSyncCoordinator.finish
  simp only
  split
  · exact .start nofun
  next hidle =>
    refine ⟨nofun, fun hdisposed hqueued => .inr ?_⟩
    simp only [Bool.and_eq_true, Bool.not_eq_true', isNone_iff_eq_none, not_and] at hidle
    exact isSome_iff_ne_none.mpr fun hnone => hidle ⟨hdisposed, hnone⟩ hqueued

lemma put_frame (sync : BrowserDnsSyncCoordinator) (batch : BrowserDnsSyncBatch) :
    (sync.put batch).queued = some batch ∧ (sync.put batch).drains = sync.drains ∧
      (sync.put batch).active = sync.active ∧ (sync.put batch).sending = sync.sending ∧
      (sync.put batch).sent = sync.sent ∧ (sync.put batch).supplied = sync.supplied := by
  unfold put
  simp only
  split <;> exact ⟨rfl, rfl, rfl, rfl, rfl, rfl⟩

lemma Covered.enqueue (h : sync.Covered) : (sync.enqueue batch).Covered := by
  unfold BrowserDnsSyncCoordinator.enqueue
  split
  · exact h
  simp only
  split
  · exact ⟨h.active, nofun⟩
  obtain ⟨-, hdrains, hactive, -⟩ := put_frame { sync with enqueued := some batch, supplied := some batch } batch
  have hkept : ({ sync with enqueued := some batch, supplied := some batch }.put batch).active = true →
      ({ sync with enqueued := some batch, supplied := some batch }.put batch).drains ≠ [] := by
    rw [hactive, hdrains]
    exact h.active
  split
  · exact .start hkept
  next hbusy =>
    refine ⟨hkept, fun _ _ => ?_⟩
    simp only [Bool.and_eq_true, Bool.not_eq_true', isNone_iff_eq_none, not_and] at hbusy
    by_cases hidle : ({ sync with enqueued := some batch, supplied := some batch }.put batch).active = false
    · exact .inr (isSome_iff_ne_none.mpr (hbusy hidle))
    · exact .inl (hkept (Bool.eq_true_of_not_eq_false hidle))

lemma Covered.wake (h : sync.Covered) :
    Covered (if !sync.active && sync.queued.isSome then { sync with retryTimer := none }.start
      else { sync with retryTimer := none }) := by
  split
  · exact .start h.active
  next hidle =>
    refine ⟨h.active, fun _ hqueued => .inl (h.active ?_)⟩
    by_contra hactive
    exact hidle (Bool.and_eq_true_iff.mpr ⟨by simpa using hactive, hqueued⟩)

lemma Covered.step (h : sync.Covered) (event : Event) : (sync.step event).Covered := by
  cases event with
  | enqueue batch => exact h.enqueue batch
  | flushPendingNow =>
    show (sync.flushPendingNow).Covered
    unfold BrowserDnsSyncCoordinator.flushPendingNow
    split
    · exact h
    · exact h.wake
  | dispose => exact ⟨h.active, nofun⟩
  | fire =>
    show sync.fire.Covered
    unfold BrowserDnsSyncCoordinator.fire
    split
    · exact h
    · exact h.wake
  | resume index answer =>
    cases hdrain : sync.drains[index]? with
    | none =>
      simp only [BrowserDnsSyncCoordinator.step, hdrain]
      exact h
    | some drain =>
      simp only [BrowserDnsSyncCoordinator.step, hdrain]
      by_cases hphase : drain.phase = .finished
      · rw [hphase]
        exact .finish index
      refine .of_drains (ne_nil_of_length_pos ?_)
      have hlength : (sync.resume index drain.fresh answer drain.phase).drains.length = sync.drains.length := by
        cases hpoint : drain.phase with
        | preparing queued => exact length_set ..
        | _ =>
          refine (quiet_resume ?_ (hpoint ▸ hphase)).length
          nofun
      rw [hlength]
      exact length_pos_of_mem (mem_of_getElem? hdrain)

/-! ## One drain at a time -/

variable (sync)

/-- The calls that the callbacks `prepare` and `send` may make: none during `prepare`, and during the synchronous part of `send` none that could start
another drain. -/
def Careful : Event → Prop
  | .enqueue _ => ∀ drain ∈ sync.drains, drain.fresh = false ∧ ∀ queued, drain.phase ≠ .preparing queued
  | .flushPendingNow => ∀ drain ∈ sync.drains, drain.fresh = false
  | .fire => ∀ drain ∈ sync.drains, drain.fresh = false
  | .dispose => ∀ drain ∈ sync.drains, ∀ queued, drain.phase ≠ .preparing queued
  | .resume _ _ => True

/-- What `sending` and the log of sent batches are while a drain is at a point. -/
def InPhase (fresh : Bool) : DrainPhase → Prop
  | .preparing queued => sync.sending = none ∧ sync.queued = some queued ∧ sync.disposed = false
  | .calling batch => sync.sending = some batch ∧ sync.sent.getLast? = some batch
  | .awaiting batch => fresh = false ∧ sync.sending = some batch ∧ sync.sent.getLast? = some batch
  | .resulted batch _ _ => fresh = false ∧ sync.sending = some batch ∧ sync.sent.getLast? = some batch
  | .resolving batch => fresh = false ∧ sync.sending = some batch ∧ sync.sent.getLast? = some batch
  | .failed batch => fresh = false ∧ sync.sending = some batch ∧ sync.sent.getLast? = some batch
  | .finished => fresh = false ∧ sync.sending = none

/-- At most one drain, and `active` tells whether there is one that is not fresh. -/
def SingleFlight : Prop :=
  (sync.drains = [] ∧ sync.active = false ∧ sync.sending = none) ∨
    ∃ fresh phase, sync.drains = [⟨fresh, phase⟩] ∧ sync.active = !fresh ∧ sync.InPhase fresh phase

/-- The batch in the queue, or the one sent last if there is none, has the signature of the batch that was supplied last. -/
def UpToDate : Prop :=
  sync.disposed = false → ∀ latest, sync.supplied = some latest →
    ∃ batch, sync.queued.or sync.sent.getLast? = some batch ∧ batch.signature = latest.signature

variable {sync}

lemma SingleFlight.sending (h : sync.SingleFlight) {batch : BrowserDnsSyncBatch} (hsending : sync.sending = some batch) :
    sync.sent.getLast? = some batch := by
  rcases h with ⟨-, -, hnone⟩ | ⟨fresh, phase, -, -, hphase⟩
  · rw [hnone] at hsending
    cases hsending
  · cases phase <;> grind [InPhase]

lemma SingleFlight.start (h : sync.SingleFlight) (hcalm : ∀ drain ∈ sync.drains, drain.fresh = false) :
    sync.start.SingleFlight := by
  unfold BrowserDnsSyncCoordinator.start
  split
  · exact h
  next hfree =>
    simp only [Bool.or_eq_true, not_or, Bool.not_eq_true] at hfree
    split
    · exact h
    next batch hqueued =>
      rcases h with ⟨hnone, hidle, hsending⟩ | ⟨fresh, phase, hdrains, hactive, -⟩
      · refine .inr ⟨true, .preparing batch, ?_, hidle, hsending, hqueued, hfree.1⟩
        rw [hnone]
        rfl
      · have hold : fresh = false := hcalm _ (hdrains ▸ mem_singleton_self _)
        rw [hfree.2, hold] at hactive
        cases hactive

lemma start_frame (sync : BrowserDnsSyncCoordinator) :
    sync.start.queued = sync.queued ∧ sync.start.sent = sync.sent ∧
      sync.start.disposed = sync.disposed ∧ sync.start.supplied = sync.supplied := by
  unfold BrowserDnsSyncCoordinator.start
  split
  · exact ⟨rfl, rfl, rfl, rfl⟩
  split <;> exact ⟨rfl, rfl, rfl, rfl⟩

lemma UpToDate.start (h : sync.UpToDate) : sync.start.UpToDate := by
  obtain ⟨hqueued, hsent, hdisposed, hsupplied⟩ := start_frame sync
  unfold UpToDate
  rw [hqueued, hsent, hdisposed, hsupplied]
  exact h

def Orderly (sync : BrowserDnsSyncCoordinator) : Prop := sync.SingleFlight ∧ sync.UpToDate

lemma Orderly.start (h : sync.Orderly) (hcalm : ∀ drain ∈ sync.drains, drain.fresh = false) :
    sync.start.Orderly := ⟨h.1.start hcalm, h.2.start⟩

lemma SingleFlight.of_frame {after : BrowserDnsSyncCoordinator} (h : sync.SingleFlight) (hdrains : after.drains = sync.drains)
    (hactive : after.active = sync.active) (hsending : after.sending = sync.sending)
    (hsent : after.sent = sync.sent)
    (hprepare : ∀ drain ∈ sync.drains, ∀ queued, drain.phase = .preparing queued →
      after.queued = sync.queued ∧ after.disposed = sync.disposed) : after.SingleFlight := by
  rcases h with ⟨hnone, hidle, hnothing⟩ | ⟨fresh, phase, hone, hflag, hphase⟩
  · exact .inl ⟨hdrains.trans hnone, hactive.trans hidle, hsending.trans hnothing⟩
  refine .inr ⟨fresh, phase, hdrains.trans hone, hactive.trans hflag, ?_⟩
  cases phase with
  | preparing queued =>
    obtain ⟨hqueued, hdisposed⟩ := hprepare _ (hone ▸ mem_singleton_self _) queued rfl
    unfold InPhase
    rw [hsending, hqueued, hdisposed]
    exact hphase
  | _ =>
    unfold InPhase
    rw [hsending]
    try rw [hsent]
    exact hphase

lemma signature_of_sameBatch {left right : BrowserDnsSyncBatch} (h : sameBatch left right = true) : left.signature = right.signature := by
  unfold sameBatch at h
  exact of_decide_eq_true (Bool.and_eq_true_iff.mp h).1

lemma Orderly.enqueue {batch : BrowserDnsSyncBatch} (h : sync.Orderly) (hcareful : sync.Careful (.enqueue batch)) :
    (sync.enqueue batch).Orderly := by
  obtain ⟨hsingle, hupToDate⟩ := h
  have hnone : ∀ drain ∈ sync.drains, ∀ queued, drain.phase = .preparing queued → False :=
    fun drain hdrain queued hphase => (hcareful drain hdrain).2 queued hphase
  unfold BrowserDnsSyncCoordinator.enqueue
  split
  · exact ⟨hsingle, hupToDate⟩
  simp only
  split
  next hsame =>
    -- the batch is in flight already
    refine ⟨hsingle.of_frame rfl rfl rfl rfl fun drain hdrain queued hphase => (hnone drain hdrain queued hphase).elim, ?_⟩
    rintro - latest ⟨⟩
    cases hsending : sync.sending with
    | none =>
      rw [hsending] at hsame
      cases hsame
    | some sending =>
      rw [hsending] at hsame
      exact ⟨sending, hsingle.sending hsending, signature_of_sameBatch hsame⟩
  · have hput := put_frame { sync with enqueued := some batch, supplied := some batch } batch
    obtain ⟨hqueued, hdrains, hactive, hsending, hsent, hsupplied⟩ := hput
    have horderly : ({ sync with enqueued := some batch, supplied := some batch }.put batch).Orderly := by
      refine ⟨hsingle.of_frame hdrains hactive hsending hsent
        fun drain hdrain queued hphase => (hnone drain hdrain queued hphase).elim, ?_⟩
      intro _ latest hlatest
      rw [hsupplied] at hlatest
      cases hlatest
      exact ⟨batch, by rw [hqueued]; rfl, rfl⟩
    split
    · refine horderly.start ?_
      rw [hdrains]
      exact fun drain hdrain => (hcareful drain hdrain).1
    · exact horderly

lemma Orderly.wake (h : sync.Orderly) (hcalm : ∀ drain ∈ sync.drains, drain.fresh = false) :
    Orderly (if !sync.active && sync.queued.isSome then { sync with retryTimer := none }.start
      else { sync with retryTimer := none }) := by
  have hquiet : Orderly { sync with retryTimer := none } :=
    ⟨h.1.of_frame rfl rfl rfl rfl fun _ _ _ _ => ⟨rfl, rfl⟩, h.2⟩
  split
  · exact hquiet.start hcalm
  · exact hquiet

lemma Orderly.dispose (h : sync.Orderly) (hcareful : sync.Careful .dispose) : sync.dispose.Orderly :=
  ⟨h.1.of_frame rfl rfl rfl rfl fun drain hdrain queued hphase => (hcareful drain hdrain queued hphase).elim, nofun⟩

/-! ### The drain goes on -/

/-- The drain is the only one and is past its first part. -/
structure Flying (sync : BrowserDnsSyncCoordinator) : Prop where
  one : ∃ drain, sync.drains = [drain]
  active : sync.active = true
  upToDate : sync.UpToDate

variable (h : sync.Flying)
include h

lemma Flying.proceed (hphase : sync.InPhase false phase) : (sync.proceed 0 phase).Orderly := by
  obtain ⟨drain, hone⟩ := h.one
  refine ⟨.inr ⟨false, phase, ?_, h.active, ?_⟩, h.upToDate⟩
  · show sync.drains.set 0 _ = _
    rw [hone]
    rfl
  · cases phase <;> exact hphase

lemma Flying.loop (hsending : sync.sending = none) : (sync.loop 0).Orderly := by
  unfold BrowserDnsSyncCoordinator.loop
  split
  · exact h.proceed ⟨rfl, hsending⟩
  next batch hqueued =>
    split
    · exact h.proceed ⟨rfl, hsending⟩
    next hdisposed => exact h.proceed ⟨hsending, hqueued, Bool.eq_false_iff.mpr hdisposed⟩

lemma Flying.again (hsending : sync.sending = none) (batch : BrowserDnsSyncBatch) :
    (sync.again 0 batch).Orderly := by
  unfold BrowserDnsSyncCoordinator.again
  split
  · have hreset : Flying { sync with attempt := 0 } := { h with }
    exact hreset.loop hsending
  have hretry : sync.retry.Flying ∧ sync.retry.sending = none := by
    unfold retry
    split
    · exact ⟨h, hsending⟩
    · exact ⟨{ h with }, hsending⟩
  exact hretry.1.proceed ⟨rfl, hretry.2⟩

lemma Flying.unsend : sync.unsend.Flying := { h with }

lemma Flying.done : (sync.done 0).Orderly := by
  have hreset : Flying { sync.unsend with attempt := 0 } := { h with }
  exact hreset.loop rfl

lemma Flying.requeue {batch : BrowserDnsSyncBatch} (hlast : sync.sent.getLast? = some batch) :
    (sync.requeue batch).unsend.Flying := by
  refine ⟨h.one, h.active, fun hdisposed latest hlatest => ?_⟩
  obtain ⟨current, hcurrent, hsignature⟩ := h.upToDate hdisposed latest hlatest
  refine ⟨current, ?_, hsignature⟩
  show (sync.queued.or (some batch)).or sync.sent.getLast? = some current
  rw [hlast] at hcurrent ⊢
  cases hqueued : sync.queued with
  | none | some queued =>
    rw [hqueued] at hcurrent
    exact hcurrent

variable (replacement : BrowserDnsSyncBatch)

lemma Flying.replace : Flying { sync.unsend with queued := some replacement, supplied := some replacement } := by
  refine ⟨h.one, h.active, ?_⟩
  rintro - latest ⟨⟩
  exact ⟨replacement, rfl, rfl⟩

lemma Flying.goes {batch : BrowserDnsSyncBatch} {after : BrowserDnsSyncCoordinator} (hsending : sync.sending = some batch)
    (hlast : sync.sent.getLast? = some batch) (hgoes : sync.Goes 0 batch after) : after.Orderly := by
  cases hgoes with
  | on phase hphase =>
    refine h.proceed ?_
    cases phase <;> cases hphase <;> exact ⟨rfl, hsending, hlast⟩
  | stop => exact h.unsend.proceed ⟨rfl, rfl⟩
  | done => exact h.done
  | requeue => exact (h.requeue hlast).again rfl batch
  | replace replacement => exact (h.replace replacement).again rfl batch

omit h

lemma Orderly.resume (answer : DrainAnswer) (hone : sync.drains = [⟨fresh, phase⟩])
    (hactive : sync.active = !fresh) (hphase : sync.InPhase fresh phase) (hupToDate : sync.UpToDate) :
    (sync.resume 0 fresh answer phase).Orderly := by
  have hflying : fresh = false → sync.Flying := by
    rintro rfl
    exact ⟨⟨_, hone⟩, hactive, hupToDate⟩
  cases phase with
  | preparing queued =>
    obtain ⟨-, hqueued, hdisposed⟩ := hphase
    rw [BrowserDnsSyncCoordinator.resume]
    refine ⟨.inr ⟨fresh, .calling _, ?_, hactive, rfl, getLast?_concat⟩, fun _ latest hlatest => ?_⟩
    · simp only [hone]
      rfl
    obtain ⟨current, hcurrent, hsignature⟩ := hupToDate hdisposed latest hlatest
    rw [hqueued] at hcurrent
    cases hcurrent
    refine ⟨_, (none_or ..).trans getLast?_concat, ?_⟩
    split <;> exact hsignature
  | calling batch =>
    have hstarted : Flying { sync with active := sync.active || fresh } := by
      refine ⟨⟨_, hone⟩, ?_, hupToDate⟩
      show (sync.active || fresh) = true
      rw [hactive]
      cases fresh <;> rfl
    exact hstarted.proceed ⟨rfl, hphase.1, hphase.2⟩
  | awaiting batch | resulted batch _ _ | resolving batch | failed batch =>
    obtain ⟨hold, hsending, hlast⟩ := hphase
    exact (hflying hold).goes hsending hlast (goes_resume rfl)
  | finished =>
    have hgone : sync.drains.eraseIdx 0 = [] := by rw [hone]; rfl
    have hidle : Orderly { sync with active := false, drains := sync.drains.eraseIdx 0 } :=
      ⟨.inl ⟨hgone, rfl, hphase.2⟩, hupToDate⟩
    show (sync.finish 0).Orderly
    unfold BrowserDnsSyncCoordinator.finish
    simp only
    split
    · refine hidle.start ?_
      rw [hgone]
      nofun
    · exact hidle

lemma SingleFlight.drain {drain : Drain} (h : sync.SingleFlight) (hdrain : sync.drains[index]? = some drain) :
    index = 0 ∧ sync.drains = [drain] ∧ sync.active = !drain.fresh ∧ sync.InPhase drain.fresh drain.phase := by
  rcases h with ⟨hnone, -, -⟩ | ⟨fresh, phase, hone, hactive, hphase⟩
  · rw [hnone] at hdrain
    cases hdrain
  rw [hone, getElem?_singleton] at hdrain
  split_ifs at hdrain with hindex
  cases hdrain
  exact ⟨hindex, hone, hactive, hphase⟩

lemma Orderly.step {event : Event} (h : sync.Orderly) (hcareful : sync.Careful event) :
    (sync.step event).Orderly := by
  cases event with
  | enqueue batch => exact h.enqueue hcareful
  | flushPendingNow =>
    show (sync.flushPendingNow).Orderly
    unfold BrowserDnsSyncCoordinator.flushPendingNow
    split
    · exact h
    · exact h.wake hcareful
  | dispose => exact h.dispose hcareful
  | fire =>
    show sync.fire.Orderly
    unfold BrowserDnsSyncCoordinator.fire
    split
    · exact h
    · exact h.wake hcareful
  | resume index answer =>
    cases hdrain : sync.drains[index]? with
    | none =>
      simp only [BrowserDnsSyncCoordinator.step, hdrain]
      exact h
    | some drain =>
      obtain ⟨rfl, hone, hactive, hphase⟩ := h.1.drain hdrain
      simp only [BrowserDnsSyncCoordinator.step, hdrain]
      exact .resume answer hone hactive hphase h.2

/-! ## Nothing is sent after `dispose` -/

lemma sendsNothing_step (event : Event) (h : sync.SingleFlight) (hdisposed : sync.disposed = true) :
    (sync.step event).sent = sync.sent ∧ (sync.step event).disposed = true := by
  cases event with
  | enqueue batch =>
    show (sync.enqueue batch).sent = _ ∧ (sync.enqueue batch).disposed = true
    rw [BrowserDnsSyncCoordinator.enqueue, if_pos hdisposed]
    exact ⟨rfl, hdisposed⟩
  | flushPendingNow =>
    show (sync.flushPendingNow).sent = _ ∧ (sync.flushPendingNow).disposed = true
    rw [BrowserDnsSyncCoordinator.flushPendingNow, if_pos hdisposed]
    exact ⟨rfl, hdisposed⟩
  | dispose =>
    show sync.sent = _ ∧ true = true
    exact ⟨rfl, rfl⟩
  | fire =>
    show sync.fire.sent = _ ∧ sync.fire.disposed = true
    obtain ⟨-, hsent, hsame, -⟩ := start_frame { sync with retryTimer := none }
    unfold BrowserDnsSyncCoordinator.fire
    split
    · exact ⟨rfl, hdisposed⟩
    simp only
    split
    · exact ⟨hsent, hsame.trans hdisposed⟩
    · exact ⟨rfl, hdisposed⟩
  | resume index answer =>
    cases hdrain : sync.drains[index]? with
    | none =>
      simp only [BrowserDnsSyncCoordinator.step, hdrain]
      exact ⟨trivial, hdisposed⟩
    | some drain =>
      obtain ⟨-, -, -, hphase⟩ := h.drain hdrain
      simp only [BrowserDnsSyncCoordinator.step, hdrain]
      have hnot : ∀ queued, drain.phase ≠ .preparing queued := by
        intro queued heq
        rw [heq] at hphase
        exact Bool.false_ne_true (hphase.2.2.symm.trans hdisposed)
      by_cases hfinish : drain.phase = .finished
      · rw [hfinish]
        show (sync.finish index).sent = _ ∧ (sync.finish index).disposed = true
        unfold finish
        simp [hdisposed]
      · have hquiet : sync.Quiet (sync.resume index drain.fresh answer drain.phase) := quiet_resume hnot hfinish
        exact ⟨hquiet.sent, hquiet.disposed.trans hdisposed⟩

/-! ## The guarantees -/

variable (sync)

def Quiescent : Prop := sync.drains = [] ∧ sync.retryTimer = none

def SentLast (latest : BrowserDnsSyncBatch) : Prop :=
  ∃ batch, sync.sent.getLast? = some batch ∧ batch.signature = latest.signature

variable {sync}

lemma sentLast_of_quiescent {latest : BrowserDnsSyncBatch} (h : sync.Orderly) (hcovered : sync.Covered)
    (hquiescent : sync.Quiescent) (hdisposed : sync.disposed = false) (hsupplied : sync.supplied = some latest) :
    sync.SentLast latest := by
  obtain ⟨batch, hbatch, hsignature⟩ := h.2 hdisposed latest hsupplied
  have hqueued : sync.queued = none := by
    by_contra hsome
    rcases hcovered.queued hdisposed (isSome_iff_ne_none.mpr hsome) with hdrains | htimer
    · exact hdrains hquiescent.1
    · rw [hquiescent.2] at htimer
      cases htimer
  rw [hqueued] at hbatch
  exact ⟨batch, hbatch, hsignature⟩

lemma covered_new : new.Covered := by
  constructor
  · intro hactive
    cases hactive
  · intro _ hqueued
    cases hqueued

lemma orderly_new : new.Orderly := ⟨.inl ⟨rfl, rfl, rfl⟩, nofun⟩

lemma sent_of_disposed {rest : List Event} (h : sync.Orderly) (hdisposed : sync.disposed = true)
    (hmeet : StepsMeet step Careful sync rest) : (run step sync rest).sent = sync.sent := by
  induction rest generalizing sync with
  | nil => rfl
  | cons event rest ih =>
    obtain ⟨hsent, hstill⟩ := sendsNothing_step event h.1 hdisposed
    rw [run_cons, ih (h.step hmeet.1) hstill hmeet.2, hsent]

/-- In every run a batch in the queue is covered by a drain or the retry timer. If the callbacks `prepare` and `send` make no calls while they run, nothing
is sent after `dispose`, and once nothing is going on the batch sent last is the one that was supplied last, by `enqueue` or as a
replacement. -/
theorem sync_coordinator (events : List Event) :
    ((run step new events).disposed = false → (run step new events).queued.isSome →
      (run step new events).drains ≠ [] ∨ (run step new events).retryTimer.isSome) ∧
    (StepsMeet step Careful new events →
      (∀ before rest, events = before ++ rest → (run step new before).disposed = true →
        (run step new events).sent = (run step new before).sent) ∧
      ((run step new events).Quiescent → (run step new events).disposed = false → ∀ latest,
        (run step new events).supplied = some latest →
        ∀ batch, (run step new events).SentLast batch ↔ batch.signature = latest.signature)) := by
  have hcovered : (run step new events).Covered :=
    run_keeps (I := fun sync : BrowserDnsSyncCoordinator => sync.Covered) (fun _ event h => h.step event)
      covered_new events
  refine ⟨hcovered.queued, fun hmeet => ⟨?_, ?_⟩⟩
  · rintro before rest rfl hdisposed
    obtain ⟨hbefore, hrest⟩ := stepsMeet_append.mp hmeet
    have horderly : (run step new before).Orderly :=
      run_invariant (I := fun sync : BrowserDnsSyncCoordinator => sync.Orderly) (fun _ _ h hcareful => h.step hcareful)
        orderly_new hbefore
    rw [run_append]
    exact sent_of_disposed horderly hdisposed hrest
  · intro hquiescent hdisposed latest hsupplied batch
    have horderly : (run step new events).Orderly :=
      run_invariant (I := fun sync : BrowserDnsSyncCoordinator => sync.Orderly) (fun _ _ h hcareful => h.step hcareful)
        orderly_new hmeet
    obtain ⟨last, hlast, hsignature⟩ := sentLast_of_quiescent horderly hcovered hquiescent hdisposed hsupplied
    constructor
    · rintro ⟨other, hother, hsame⟩
      obtain rfl := mem_unique hlast hother
      exact hsame.symm.trans hsignature
    · intro hsame
      exact ⟨last, hlast, hsignature.trans hsame.symm⟩

def signed (signature : String) : BrowserDnsSyncBatch := ⟨"", none, none, signature, none⟩

def applied : DrainAnswer := ⟨none, some ⟨false, true, true⟩, false, .drop⟩

def refused : DrainAnswer := ⟨none, some ⟨false, false, true⟩, false, .replace replacement⟩

/-- If `prepare` enqueues a second batch, the first one is sent after it. If `prepare` disposes of the coordinator, a batch is sent afterwards. And a
replacement takes the place of a batch that was enqueued in the meantime. -/
theorem sync_coordinator_overtaken :
    (let sync := run step new
      [.enqueue (signed "a"), .enqueue (signed "b"), .resume 1 applied, .resume 1 applied, .resume 0 applied, .resume 0 applied,
       .resume 0 applied, .resume 0 applied, .resume 0 applied, .resume 0 applied, .resume 0 applied, .resume 0 applied]
    sync.drains = [] ∧ sync.retryTimer = none ∧ sync.disposed = false ∧
      sync.enqueued = some (signed "b") ∧ sync.sent = [signed "b", signed "a"]) ∧
    ((run step new [.enqueue (signed "a"), .dispose]).sent = [] ∧
      (run step new [.enqueue (signed "a"), .dispose, .resume 0 applied]).sent = [signed "a"]) ∧
    (let sync := run step new
      [.enqueue (signed "a"), .resume 0 applied, .resume 0 applied, .enqueue (signed "b"), .resume 0 (refused (signed "c")),
       .resume 0 (refused (signed "c")), .resume 0 (refused (signed "c")), .resume 0 applied, .resume 0 applied, .resume 0 applied,
       .resume 0 applied, .resume 0 applied]
    sync.drains = [] ∧ sync.retryTimer = none ∧ sync.disposed = false ∧
      sync.enqueued = some (signed "b") ∧ sync.sent = [signed "a", signed "c"]) := by
  decide +kernel

end BrowserDnsSyncCoordinator
end PortManager.Browser
