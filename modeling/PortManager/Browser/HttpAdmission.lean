import PortManager.Base.InsertionMap
import PortManager.Base.Run

/-!
# Admission of HTTP requests

Embeds `HttpAdmissionQueue` and `admitHttp` of `platform/ports/browser-network-proxy-transport.ts`. A queue belongs to an origin. It lets
a limited number of requests through; others wait in a line until a permit comes back, they are cancelled or their time is over.

A queue takes itself out of the map of queues when it is idle, and the next request of the origin makes a new one. Old queue
objects stay reachable from permits and timers, so all of them are kept (`objects`); a request is the number of its call of
`acquire`. What a call reads outside of the queue (whether a request was cancelled, whether its deadline is over, whether the
shared budget has room) is arbitrary at every event.
-/

namespace PortManager.Browser
open Run List InsertionMap Option

/-! ## A queue -/

inductive Admission where
  | admitted (waited : Bool)
  | withdrawn
  | expired
  | overload
deriving DecidableEq

structure AdmissionHost where
  canceled : Nat → Bool
  late : Nat → Bool
  httpRoom : Nat → Bool
  queueRoom : Bool

/-- A TypeScript `HttpAdmissionQueue`, with the promises that were settled (`answers`), the permits that were not given back (`held`), the
leases it has of the shared budget, and whether it called `onIdle` in this turn. -/
structure HttpAdmissionQueue (κ : Type) where
  key : κ
  limit : Nat
  maxWaiting : Nat
  active : Int
  waiting : List Nat
  held : List Nat
  answers : List (Nat × Admission)
  requests : Nat
  httpLeases : Int
  queuedLeases : Int
  idle : Bool

namespace HttpAdmissionQueue

variable {κ : Type}

def new (key : κ) (limit maxWaiting : Nat) : HttpAdmissionQueue κ where
  key := key
  limit := limit
  maxWaiting := maxWaiting
  active := 0
  waiting := []
  held := []
  answers := []
  requests := 0
  httpLeases := 0
  queuedLeases := 0
  idle := false

def removeIfIdle (queue : HttpAdmissionQueue κ) : HttpAdmissionQueue κ :=
  if queue.active = 0 ∧ queue.waiting = [] then { queue with idle := true } else queue

def answer (queue : HttpAdmissionQueue κ) (request : Nat) (admission : Admission) : HttpAdmissionQueue κ :=
  { queue with answers := queue.answers ++ [(request, admission)] }

/-- `this.active++`, and a permit for the request. -/
def admitted (queue : HttpAdmissionQueue κ) (request : Nat) (waited : Bool) : HttpAdmissionQueue κ :=
  { queue.answer request (.admitted waited) with
    active := queue.active + 1
    held := queue.held ++ [request]
    httpLeases := queue.httpLeases + 1 }

def receive (queue : HttpAdmissionQueue κ) : HttpAdmissionQueue κ := { queue with requests := queue.requests + 1 }

def enqueue (queue : HttpAdmissionQueue κ) (request : Nat) : HttpAdmissionQueue κ :=
  { queue with waiting := queue.waiting ++ [request], queuedLeases := queue.queuedLeases + 1 }

def dequeue (queue : HttpAdmissionQueue κ) (request : Nat) : HttpAdmissionQueue κ :=
  { queue with waiting := queue.waiting.erase request, queuedLeases := queue.queuedLeases - 1 }

variable (host : AdmissionHost)

def acquire (queue : HttpAdmissionQueue κ) : HttpAdmissionQueue κ :=
  let request := queue.requests
  let queue := queue.receive
  if host.canceled request then queue.removeIfIdle.answer request .withdrawn
  else if host.late request then queue.removeIfIdle.answer request .expired
  else if queue.active < queue.limit then
    if host.httpRoom request then queue.admitted request false else queue.removeIfIdle.answer request .overload
  else if queue.maxWaiting ≤ queue.waiting.length then queue.answer request .overload
  else if host.queueRoom then queue.enqueue request
  else queue.answer request .overload

/-- How `finish` settles the promise of a request that waited. -/
def settle (queue : HttpAdmissionQueue κ) (request : Nat) (admitting : Bool)
    (error : Option Admission) : HttpAdmissionQueue κ :=
  if admitting && !host.canceled request && host.late request then queue.answer request .expired
  else if admitting && !host.canceled request then
    if host.httpRoom request then queue.admitted request true else queue.answer request .overload
  else queue.answer request (error.getD .withdrawn)

/-- TypeScript `finish`. A request is settled when it is not in the line any more. -/
def finish (queue : HttpAdmissionQueue κ) (request : Nat) (admitting : Bool)
    (error : Option Admission) : HttpAdmissionQueue κ :=
  if request ∈ queue.waiting then
    ((queue.dequeue request).settle host request admitting error).removeIfIdle
  else queue

/-- The loop of `permit`, with fuel for its rounds. -/
def grantLoop (host : AdmissionHost) : Nat → HttpAdmissionQueue κ → HttpAdmissionQueue κ
  | 0, queue => queue
  | fuel + 1, queue =>
    match queue.waiting with
    | [] => queue
    | first :: _ =>
      if queue.active < queue.limit then grantLoop host fuel (queue.finish host first true none) else queue

def giveBack (queue : HttpAdmissionQueue κ) (request : Nat) : HttpAdmissionQueue κ :=
  { queue with
    held := queue.held.erase request
    httpLeases := queue.httpLeases - 1
    active := queue.active - 1 }

/-- The function that TypeScript `permit` returns. -/
def release (queue : HttpAdmissionQueue κ) (request : Nat) : HttpAdmissionQueue κ :=
  if request ∈ queue.held then
    (grantLoop host queue.waiting.length (queue.giveBack request)).removeIfIdle
  else queue

end HttpAdmissionQueue

/-! ## The queues of all origins -/

/-- The map of the queues, and all queue objects. -/
structure HttpQueues (κ : Type) where
  queues : InsertionMap κ Nat
  objects : List (HttpAdmissionQueue κ)

/-- The numbers a new queue gets: `Math.min(maxConcurrentHttpRequests, agent.maxSockets)` and `maxQueuedHttpRequests`. -/
structure AdmissionLimits (κ : Type) where
  limit : κ → Nat
  maxQueuedHttpRequests : Nat

namespace HttpQueues

variable {κ : Type} [DecidableEq κ]

def empty : HttpQueues κ := ⟨.empty, []⟩

/-- A call of a queue; `onIdle` deletes its key. -/
def update (queues : HttpQueues κ) (index : Nat) (call : HttpAdmissionQueue κ → HttpAdmissionQueue κ) : HttpQueues κ :=
  match queues.objects[index]? with
  | none => queues
  | some queue =>
    { queues := if (call queue).idle then queues.queues.delete queue.key else queues.queues
      objects := queues.objects.set index { call queue with idle := false } }

def admitHttp (limits : AdmissionLimits κ) (queues : HttpQueues κ) (key : κ) (host : AdmissionHost) : HttpQueues κ :=
  match queues.queues.get? key with
  | some index => queues.update index (.acquire host)
  | none =>
    update
      { queues := queues.queues.set key queues.objects.length
        objects := queues.objects ++ [.new key (limits.limit key) limits.maxQueuedHttpRequests] }
      queues.objects.length (.acquire host)

/-- A request comes in, a permit is given back, a request is cancelled, or its timer fires. -/
inductive Event (κ : Type) where
  | admitHttp (key : κ) (host : AdmissionHost)
  | release (index request : Nat) (host : AdmissionHost)
  | cancel (index request : Nat) (host : AdmissionHost)
  | timeout (index request : Nat) (host : AdmissionHost)

def step (limits : AdmissionLimits κ) (queues : HttpQueues κ) : Event κ → HttpQueues κ
  | .admitHttp key host => queues.admitHttp limits key host
  | .release index request host => queues.update index fun queue => queue.release host request
  | .cancel index request host => queues.update index fun queue => queue.finish host request false none
  | .timeout index request host => queues.update index fun queue => queue.finish host request false (some .expired)

end HttpQueues

/-! ## Accounting -/

namespace HttpAdmissionQueue

variable {κ : Type}

/-- Every earlier request was answered before a request that is admitted. -/
def Fifo (answers : List (Nat × Admission)) : Prop :=
  ∀ earlier request waited later, answers = earlier ++ (request, .admitted waited) :: later →
    ∀ other < request, other ∈ earlier.map Prod.fst

/-- The accounts of a queue, with the requests that have no answer. -/
structure Accounts (queue : HttpAdmissionQueue κ) (unanswered : List Nat) : Prop where
  active_eq : queue.active = queue.held.length
  active_le : queue.active ≤ queue.limit
  waiting_le : queue.waiting.length ≤ queue.maxWaiting
  sorted : queue.waiting.Pairwise (· < ·)
  unanswered_lt : ∀ request ∈ unanswered, request < queue.requests
  answered : ∀ request, (queue.answers.map Prod.fst).count request =
    if request < queue.requests ∧ request ∉ unanswered then 1 else 0
  fifo : Fifo queue.answers
  http_eq : queue.httpLeases = queue.active
  queued_eq : queue.queuedLeases = queue.waiting.length
  held_nodup : queue.held.Nodup
  held_answered : ∀ request ∈ queue.held, request < queue.requests ∧ request ∉ unanswered

variable (queue : HttpAdmissionQueue κ)

/-- What holds at every moment of a call: the requests in the line have no answer. -/
def Consistent : Prop := queue.Accounts queue.waiting

def Full : Prop := queue.waiting ≠ [] → queue.active = queue.limit

def Inert : Prop := queue.active = 0 ∧ queue.waiting = []

variable {request : Nat}

lemma fifo_answer {answers : List (Nat × Admission)} (h : Fifo answers) {admission : Admission}
    (hnew : ∀ waited, admission = .admitted waited → ∀ other < request, other ∈ answers.map Prod.fst) :
    Fifo (answers ++ [(request, admission)]) := by
  intro earlier admitted waited later heq other hother
  rcases eq_nil_or_concat later with rfl | ⟨rest, last, rfl⟩
  · obtain ⟨rfl, hlast⟩ := append_inj' heq rfl
    obtain ⟨rfl, rfl⟩ := Prod.mk.inj (singleton_inj.mp hlast)
    exact hnew waited rfl other hother
  · rw [concat_eq_append, ← cons_append, ← append_assoc] at heq
    obtain ⟨hanswers, -⟩ := append_inj' heq rfl
    exact h earlier admitted waited rest hanswers other hother

section Answers

variable {queue : HttpAdmissionQueue κ} {request : Nat} (h : queue.Accounts (request :: queue.waiting))
include h

variable (hnot : request ∉ queue.waiting)
include hnot

lemma Accounts.answered_concat (admission : Admission) (other : Nat) :
    ((queue.answers ++ [(request, admission)]).map Prod.fst).count other =
      if other < queue.requests ∧ other ∉ queue.waiting then 1 else 0 := by
  rw [map_append, count_append, h.answered, map_singleton, count_singleton]
  by_cases hsame : other = request
  · subst hsame
    simp [h.unanswered_lt other mem_cons_self, hnot]
  · simp [hsame, Ne.symm hsame]

lemma Accounts.answer {admission : Admission}
    (hrefuse : ∀ waited, admission ≠ .admitted waited) : (queue.answer request admission).Consistent where
  active_eq := h.active_eq
  active_le := h.active_le
  waiting_le := h.waiting_le
  sorted := h.sorted
  unanswered_lt := fun other hother => h.unanswered_lt other (mem_cons_of_mem _ hother)
  answered := h.answered_concat hnot admission
  fifo := fifo_answer h.fifo fun waited hadmitted => absurd hadmitted (hrefuse waited)
  http_eq := h.http_eq
  queued_eq := h.queued_eq
  held_nodup := h.held_nodup
  held_answered := fun other hother =>
    ⟨(h.held_answered other hother).1, fun hmem => (h.held_answered other hother).2 (mem_cons_of_mem _ hmem)⟩

lemma Accounts.admitted (hroom : queue.active < queue.limit)
    (hfirst : ∀ other < request, other ∉ queue.waiting) (waited : Bool) : (queue.admitted request waited).Consistent where
  active_eq := by
    show queue.active + 1 = ((queue.held ++ [request]).length : Int)
    rw [h.active_eq, length_append]
    rfl
  active_le := hroom
  waiting_le := h.waiting_le
  sorted := h.sorted
  unanswered_lt := fun other hother => h.unanswered_lt other (mem_cons_of_mem _ hother)
  answered := h.answered_concat hnot _
  fifo := by
    refine fifo_answer h.fifo fun _ _ other hother => ?_
    have hlt := lt_trans hother (h.unanswered_lt request mem_cons_self)
    have hunanswered : other ∉ request :: queue.waiting := by
      rw [mem_cons, not_or]
      exact ⟨ne_of_lt hother, hfirst other hother⟩
    rw [← count_pos_iff, h.answered, if_pos ⟨hlt, hunanswered⟩]
    exact one_pos
  http_eq := congrArg (· + 1) h.http_eq
  queued_eq := h.queued_eq
  held_nodup := by
    show (queue.held ++ [request]).Nodup
    rw [nodup_append']
    refine ⟨h.held_nodup, nodup_singleton _, fun other hother hsame => ?_⟩
    rw [mem_singleton.mp hsame] at hother
    exact (h.held_answered request hother).2 mem_cons_self
  held_answered := by
    intro other hother
    rcases mem_append.mp hother with hold | hnew
    · exact ⟨(h.held_answered other hold).1, fun hmem => (h.held_answered other hold).2 (mem_cons_of_mem _ hmem)⟩
    · rw [mem_singleton.mp hnew]
      exact ⟨h.unanswered_lt request mem_cons_self, hnot⟩

omit hnot

end Answers

/-! ## What a call keeps -/

/-- A call belongs to its queue, and calls `onIdle` only when there is nothing to do. -/
structure Keeps (queue after : HttpAdmissionQueue κ) : Prop where
  key : after.key = queue.key
  limit : after.limit = queue.limit
  maxWaiting : after.maxWaiting = queue.maxWaiting
  idle : after.idle = true → after.Inert

/-- A call keeps the accounts, and lets nobody wait for nothing. -/
structure Serves (queue after : HttpAdmissionQueue κ) : Prop where
  consistent : after.Consistent
  full : after.Full
  keeps : queue.Keeps after

lemma removeIfIdle_eq :
    queue.removeIfIdle = queue ∨ (queue.Inert ∧ queue.removeIfIdle = { queue with idle := true }) := by
  unfold removeIfIdle
  split
  next hidle => exact .inr ⟨hidle, rfl⟩
  next => exact .inl rfl

lemma Keeps.removeIfIdle {queue after : HttpAdmissionQueue κ} (h : queue.Keeps after) : queue.Keeps after.removeIfIdle := by
  rcases after.removeIfIdle_eq with heq | ⟨hinert, heq⟩
  · rw [heq]
    exact h
  · rw [heq]
    exact ⟨h.key, h.limit, h.maxWaiting, fun _ => hinert⟩

@[simp] lemma removeIfIdle_active : queue.removeIfIdle.active = queue.active := by
  rcases queue.removeIfIdle_eq with heq | ⟨-, heq⟩ <;> rw [heq]

@[simp] lemma removeIfIdle_waiting : queue.removeIfIdle.waiting = queue.waiting := by
  rcases queue.removeIfIdle_eq with heq | ⟨-, heq⟩ <;> rw [heq]

@[simp] lemma removeIfIdle_limit : queue.removeIfIdle.limit = queue.limit := by
  rcases queue.removeIfIdle_eq with heq | ⟨-, heq⟩ <;> rw [heq]

@[simp] lemma removeIfIdle_answers : queue.removeIfIdle.answers = queue.answers := by
  rcases queue.removeIfIdle_eq with heq | ⟨-, heq⟩ <;> rw [heq]

variable {queue : HttpAdmissionQueue κ}

lemma accounts_removeIfIdle {unanswered : List Nat} (h : queue.Accounts unanswered) :
    queue.removeIfIdle.Accounts unanswered := by
  rcases queue.removeIfIdle_eq with heq | ⟨-, heq⟩
  · rw [heq]
    exact h
  · rw [heq]
    exact { h with }

lemma Consistent.removeIfIdle (h : queue.Consistent) : queue.removeIfIdle.Consistent := by
  rw [Consistent, removeIfIdle_waiting]
  exact accounts_removeIfIdle h

lemma Serves.removeIfIdle {queue after : HttpAdmissionQueue κ} (h : queue.Serves after) :
    queue.Serves after.removeIfIdle := by
  refine ⟨h.consistent.removeIfIdle, fun hne => ?_, h.keeps.removeIfIdle⟩
  rw [removeIfIdle_waiting] at hne
  rw [removeIfIdle_active, removeIfIdle_limit]
  exact h.full hne

/-- Calls that do not call `onIdle`. -/
lemma keeps_of_idle {queue after : HttpAdmissionQueue κ} (hkey : after.key = queue.key) (hlimit : after.limit = queue.limit)
    (hmax : after.maxWaiting = queue.maxWaiting) (hidle : after.idle = false) : queue.Keeps after := by
  refine ⟨hkey, hlimit, hmax, fun hflag => ?_⟩
  rw [hidle] at hflag
  cases hflag

lemma Consistent.receive (h : queue.Consistent) : queue.receive.Accounts (queue.requests :: queue.receive.waiting) := by
  refine { h with unanswered_lt := ?_, answered := fun request => ?_, held_answered := fun request hrequest => ?_ }
  · intro request hrequest
    rcases mem_cons.mp hrequest with rfl | hrequest
    · exact Nat.lt_succ_self _
    · exact Nat.lt_succ_of_lt (h.unanswered_lt request hrequest)
  · refine (h.answered request).trans (if_congr ?_ rfl rfl)
    rw [mem_cons, not_or]
    show _ ↔ request < queue.requests + 1 ∧ _ ∧ request ∉ queue.waiting
    constructor
    · rintro ⟨hlt, hwait⟩
      exact ⟨Nat.lt_succ_of_lt hlt, Nat.ne_of_lt hlt, hwait⟩
    · rintro ⟨hlt, hne, hwait⟩
      exact ⟨by omega, hwait⟩
  · obtain ⟨hlt, hanswered⟩ := h.held_answered request hrequest
    refine ⟨Nat.lt_succ_of_lt hlt, fun hmem => ?_⟩
    rcases mem_cons.mp hmem with rfl | hwait
    · exact lt_irrefl _ hlt
    · exact hanswered hwait

variable (host : AdmissionHost)

lemma acquire_sound (h : queue.Consistent) (hfull : queue.Full) (hidle : queue.idle = false) :
    queue.Serves (queue.acquire host) := by
  have hopen := h.receive
  have hnot : queue.requests ∉ queue.receive.waiting := fun hmem => lt_irrefl _ (h.unanswered_lt _ hmem)
  have hkeeps : queue.Keeps queue.receive := keeps_of_idle rfl rfl rfl hidle
  have hrefuse : ∀ admission : Admission, (∀ waited, admission ≠ .admitted waited) →
      queue.Serves (queue.receive.answer queue.requests admission) :=
    fun admission hadmission => ⟨hopen.answer hnot hadmission, hfull, keeps_of_idle rfl rfl rfl hidle⟩
  have hrefuseIdle : ∀ admission : Admission, (∀ waited, admission ≠ .admitted waited) →
      queue.Serves (queue.receive.removeIfIdle.answer queue.requests admission) := by
    intro admission hadmission
    rcases queue.receive.removeIfIdle_eq with heq | ⟨hinert, heq⟩
    · rw [heq]
      exact hrefuse admission hadmission
    obtain ⟨hconsistent, -, -⟩ := hrefuse admission hadmission
    rw [heq]
    refine ⟨{ hconsistent with }, hfull, ⟨rfl, rfl, rfl, fun _ => hinert⟩⟩
  unfold acquire
  simp only
  split_ifs with hcanceled hlate hroom hbudget hmany hqueue
  · exact hrefuseIdle _ nofun
  · exact hrefuseIdle _ nofun
  · -- a permit is free, so nobody waits
    have hempty : queue.receive.waiting = [] := by
      by_contra hne
      have hlimit := hfull hne
      exact absurd hroom (by rw [show queue.receive.active = _ from hlimit]; exact lt_irrefl _)
    refine ⟨hopen.admitted hnot hroom (fun other _ => ?_) false, fun hne => absurd hempty hne, keeps_of_idle rfl rfl rfl hidle⟩
    rw [hempty]
    exact not_mem_nil
  · exact hrefuseIdle _ nofun
  · exact hrefuse _ nofun
  · have hactive : queue.active = queue.limit := le_antisymm h.active_le (not_lt.mp hroom)
    have hmem : ∀ request, request ∈ queue.waiting ++ [queue.requests] ↔ request ∈ queue.requests :: queue.waiting := by
      intro request
      rw [mem_cons, mem_append, mem_singleton, or_comm]
    refine ⟨⟨h.active_eq, h.active_le, ?_, ?_, fun request hrequest => hopen.unanswered_lt request ((hmem request).mp hrequest),
      ?_, h.fifo, h.http_eq, ?_, h.held_nodup, fun request hrequest => ?_⟩, fun _ => hactive, keeps_of_idle rfl rfl rfl hidle⟩
    · show (queue.waiting ++ [queue.requests]).length ≤ queue.maxWaiting
      rw [length_append]
      exact not_le.mp hmany
    · refine pairwise_append.mpr ⟨h.sorted, pairwise_singleton _ _, fun request hrequest last hlast => ?_⟩
      rw [mem_singleton.mp hlast]
      exact h.unanswered_lt request hrequest
    · exact fun request => (hopen.answered request).trans
        (if_congr (and_congr_right fun _ => not_congr (hmem request).symm) rfl rfl)
    · show queue.queuedLeases + 1 = ((queue.waiting ++ [queue.requests]).length : Int)
      rw [h.queued_eq, length_append]
      rfl
    · obtain ⟨hlt, hanswered⟩ := hopen.held_answered request hrequest
      exact ⟨hlt, fun hwait => hanswered ((hmem request).mp hwait)⟩
  · exact hrefuse _ nofun

lemma Consistent.dequeue (h : queue.Consistent) (hmem : request ∈ queue.waiting) :
    (queue.dequeue request).Accounts (request :: (queue.dequeue request).waiting) ∧
      request ∉ (queue.dequeue request).waiting := by
  have hnodup : queue.waiting.Nodup := h.sorted.imp fun hlt => ne_of_lt hlt
  have hperm : queue.waiting.Perm (request :: queue.waiting.erase request) := perm_cons_erase hmem
  refine ⟨⟨h.active_eq, h.active_le, ?_, h.sorted.sublist erase_sublist, ?_, ?_, h.fifo, h.http_eq, ?_, h.held_nodup, ?_⟩,
    hnodup.not_mem_erase⟩
  · exact le_trans length_erase_le h.waiting_le
  · exact fun other hother => h.unanswered_lt other (hperm.mem_iff.mpr hother)
  · exact fun other => (h.answered other).trans (if_congr (and_congr_right fun _ => not_congr hperm.mem_iff) rfl rfl)
  · show queue.queuedLeases - 1 = ((queue.waiting.erase request).length : Int)
    have hlength := hperm.length_eq
    rw [length_cons] at hlength
    rw [h.queued_eq]
    omega
  · intro other hother
    obtain ⟨hlt, hanswered⟩ := h.held_answered other hother
    exact ⟨hlt, fun hmem' => hanswered (hperm.mem_iff.mpr hmem')⟩

lemma finish_sound (h : queue.Consistent) (hfull : queue.Full)
    (hidle : queue.idle = false) (request : Nat) {error : Option Admission} (herror : ∀ waited, error ≠ some (.admitted waited)) :
    queue.Serves (queue.finish host request false error) := by
  unfold finish
  split
  next hmem =>
    obtain ⟨hopen, hnot⟩ := h.dequeue hmem
    have hadmission : ∀ waited, error.getD .withdrawn ≠ .admitted waited := by
      intro waited heq
      cases error with
      | none => cases heq
      | some admission => exact herror waited (congrArg some heq)
    have hsettle : (queue.dequeue request).settle host request false error =
        (queue.dequeue request).answer request (error.getD .withdrawn) := rfl
    rw [hsettle]
    exact Serves.removeIfIdle
      ⟨hopen.answer hnot hadmission, fun _ => hfull (ne_nil_of_mem hmem), keeps_of_idle rfl rfl rfl hidle⟩
  next => exact ⟨h, hfull, keeps_of_idle rfl rfl rfl hidle⟩

/-- The first request of the line gets a permit, unless it is cancelled, late or the budget is used up. -/
lemma finish_first (h : queue.Consistent) {first : Nat} {rest : List Nat}
    (hwaiting : queue.waiting = first :: rest) (hroom : queue.active < queue.limit) (hidle : queue.idle = false) :
    (queue.finish host first true none).Consistent ∧ (queue.finish host first true none).waiting = rest ∧
      queue.Keeps (queue.finish host first true none) := by
  have hmem : first ∈ queue.waiting := hwaiting ▸ mem_cons_self
  obtain ⟨hopen, hnot⟩ := h.dequeue hmem
  have hrest : (queue.dequeue first).waiting = rest := by
    show queue.waiting.erase first = rest
    rw [hwaiting, erase_cons_head]
  have hfirst : ∀ other < first, other ∉ (queue.dequeue first).waiting := by
    rw [hrest]
    intro other hother hmem'
    have hsorted := h.sorted
    rw [hwaiting] at hsorted
    exact lt_asymm hother (rel_of_pairwise_cons hsorted hmem')
  have hsettle : ((queue.dequeue first).settle host first true none).Consistent ∧
      ((queue.dequeue first).settle host first true none).waiting = rest ∧
      queue.Keeps ((queue.dequeue first).settle host first true none) := by
    unfold settle
    split_ifs
    · exact ⟨hopen.answer hnot nofun, hrest, keeps_of_idle rfl rfl rfl hidle⟩
    · exact ⟨hopen.admitted hnot hroom hfirst true, hrest, keeps_of_idle rfl rfl rfl hidle⟩
    · exact ⟨hopen.answer hnot nofun, hrest, keeps_of_idle rfl rfl rfl hidle⟩
    · exact ⟨hopen.answer hnot nofun, hrest, keeps_of_idle rfl rfl rfl hidle⟩
  rw [finish, if_pos hmem]
  exact ⟨hsettle.1.removeIfIdle, by rw [removeIfIdle_waiting]; exact hsettle.2.1, hsettle.2.2.removeIfIdle⟩

lemma Keeps.trans {queue middle after : HttpAdmissionQueue κ} (first : queue.Keeps middle) (second : middle.Keeps after) :
    queue.Keeps after :=
  ⟨second.key.trans first.key, second.limit.trans first.limit, second.maxWaiting.trans first.maxWaiting, second.idle⟩

lemma grantLoop_sound {fuel : Nat} (h : queue.Consistent)
    (hidle : queue.idle = true → queue.Inert) (hfuel : queue.waiting.length ≤ fuel) :
    queue.Serves (grantLoop host fuel queue) := by
  induction fuel generalizing queue with
  | zero =>
    have hempty : queue.waiting = [] := eq_nil_of_length_eq_zero (Nat.le_zero.mp hfuel)
    exact ⟨h, fun hne => absurd hempty hne, ⟨rfl, rfl, rfl, hidle⟩⟩
  | succ fuel ih =>
    rw [grantLoop]
    split
    next hempty => exact ⟨h, fun hne => absurd hempty hne, ⟨rfl, rfl, rfl, hidle⟩⟩
    next first rest hwaiting =>
      split_ifs with hroom
      · have hflag : queue.idle = false := by
          by_contra hidle'
          have hinert := hidle (by simpa using hidle')
          rw [hinert.2] at hwaiting
          cases hwaiting
        obtain ⟨hconsistent, hrest, hkeeps⟩ := finish_first host h hwaiting hroom hflag
        have hlength : (queue.finish host first true none).waiting.length ≤ fuel := by
          rw [hrest]
          rw [hwaiting] at hfuel
          exact Nat.le_of_succ_le_succ hfuel
        obtain ⟨hafter, hfull, hkeeps'⟩ := ih hconsistent hkeeps.idle hlength
        exact ⟨hafter, hfull, hkeeps.trans hkeeps'⟩
      · exact ⟨h, fun _ => le_antisymm h.active_le (not_lt.mp hroom), ⟨rfl, rfl, rfl, hidle⟩⟩

lemma Consistent.giveBack (h : queue.Consistent) (hmem : request ∈ queue.held) :
    (queue.giveBack request).Consistent := by
  refine { h with
    active_eq := ?_
    active_le := ?_
    http_eq := congrArg (· - 1) h.http_eq
    held_nodup := h.held_nodup.erase request
    held_answered := fun other hother => h.held_answered other (mem_of_mem_erase hother) }
  · show queue.active - 1 = ((queue.held.erase request).length : Int)
    have hlength := length_erase_of_mem hmem
    have hpos := length_pos_of_mem hmem
    rw [h.active_eq, hlength]
    omega
  · have hle := h.active_le
    show queue.active - 1 ≤ queue.limit
    omega

lemma release_sound (h : queue.Consistent) (hfull : queue.Full) (hidle : queue.idle = false) (request : Nat) :
    queue.Serves (queue.release host request) := by
  unfold release
  split
  next hmem =>
    have hflag : (queue.giveBack request).idle = true → (queue.giveBack request).Inert := by
      intro hflag
      rw [show queue.idle = true from hflag] at hidle
      cases hidle
    obtain ⟨hafter, hfull', hkeeps⟩ := grantLoop_sound host (h.giveBack hmem) hflag (le_refl _)
    exact Serves.removeIfIdle ⟨hafter, hfull', { hkeeps with }⟩
  next => exact ⟨h, hfull, keeps_of_idle rfl rfl rfl hidle⟩

lemma consistent_new (key : κ) (limit maxWaiting : Nat) : (new key limit maxWaiting).Consistent := by
  refine ⟨rfl, Int.natCast_nonneg _, Nat.zero_le _, List.Pairwise.nil, fun _ h => absurd h not_mem_nil, fun request => ?_,
    fun earlier request waited later h => ?_, rfl, rfl, nodup_nil, fun _ h => absurd h not_mem_nil⟩
  · exact (if_neg fun h => Nat.not_lt_zero _ h.1).symm
  · exact absurd h.symm (append_ne_nil_of_right_ne_nil _ (cons_ne_nil _ _))

/-! ## Permits that came back -/

/-- The permit of the request came back, or the request never got one. -/
structure Done (queue : HttpAdmissionQueue κ) (request : Nat) : Prop where
  received : request < queue.requests
  not_waiting : request ∉ queue.waiting
  not_held : request ∉ queue.held

lemma Done.removeIfIdle (h : queue.Done request) : queue.removeIfIdle.Done request := by
  rcases queue.removeIfIdle_eq with heq | ⟨-, heq⟩
  · rw [heq]
    exact h
  · rw [heq]
    exact { h with }

lemma Done.answer (h : queue.Done request) (other : Nat) (admission : Admission) :
    (queue.answer other admission).Done request :=
  { h with }

lemma Done.admitted {request other : Nat} (h : queue.Done request) (hne : request ≠ other)
    (waited : Bool) : (queue.admitted other waited).Done request := by
  refine ⟨h.received, h.not_waiting, fun hmem => ?_⟩
  rcases mem_append.mp hmem with hold | hnew
  · exact h.not_held hold
  · exact hne (mem_singleton.mp hnew)

variable (h : queue.Done request)
include h

lemma Done.acquire : (queue.acquire host).Done request := by
  have hreceive : queue.receive.Done request := ⟨Nat.lt_succ_of_lt h.received, h.not_waiting, h.not_held⟩
  have hne : request ≠ queue.requests := ne_of_lt h.received
  unfold HttpAdmissionQueue.acquire
  simp only
  split_ifs
  · exact hreceive.removeIfIdle.answer _ _
  · exact hreceive.removeIfIdle.answer _ _
  · exact hreceive.admitted hne false
  · exact hreceive.removeIfIdle.answer _ _
  · exact hreceive.answer _ _
  · refine ⟨hreceive.received, fun hmem => ?_, hreceive.not_held⟩
    rcases mem_append.mp hmem with hold | hnew
    · exact h.not_waiting hold
    · exact hne (mem_singleton.mp hnew)
  · exact hreceive.answer _ _

lemma Done.finish (other : Nat)
    (admitting : Bool) (error : Option Admission) : (queue.finish host other admitting error).Done request := by
  unfold HttpAdmissionQueue.finish
  split
  next hmem =>
    have hne : request ≠ other := fun heq => h.not_waiting (heq ▸ hmem)
    have hdequeue : (queue.dequeue other).Done request :=
      ⟨h.received, fun hmem' => h.not_waiting (mem_of_mem_erase hmem'), h.not_held⟩
    refine Done.removeIfIdle ?_
    unfold settle
    split_ifs
    · exact hdequeue.answer _ _
    · exact hdequeue.admitted hne true
    · exact hdequeue.answer _ _
    · exact hdequeue.answer _ _
  next => exact h

lemma Done.grantLoop (fuel : Nat) : (grantLoop host fuel queue).Done request := by
  induction fuel generalizing queue with
  | zero => exact h
  | succ fuel ih =>
    rw [grantLoop]
    split
    next => exact h
    next first rest _ =>
      split_ifs
      · exact ih (h.finish host first true none)
      · exact h

lemma Done.release (other : Nat) : (queue.release host other).Done request := by
  unfold HttpAdmissionQueue.release
  split
  next =>
    have hback : (queue.giveBack other).Done request :=
      ⟨h.received, h.not_waiting, fun hmem => h.not_held (mem_of_mem_erase hmem)⟩
    exact (hback.grantLoop host _).removeIfIdle
  next => exact h

omit h

lemma done_release (h : queue.Consistent)
    (hmem : request ∈ queue.held) : (queue.release host request).Done request := by
  obtain ⟨hlt, hwait⟩ := h.held_answered request hmem
  have hback : (queue.giveBack request).Done request := ⟨hlt, hwait, h.held_nodup.not_mem_erase⟩
  rw [release, if_pos hmem]
  exact (hback.grantLoop host _).removeIfIdle

lemma Inert.held_eq_nil (h : queue.Consistent) (hinert : queue.Inert) : queue.held = [] := by
  have hactive := h.active_eq
  rw [hinert.1] at hactive
  exact eq_nil_of_length_eq_zero (by omega)

end HttpAdmissionQueue

/-! ## Whole runs -/

namespace HttpQueues
open HttpAdmissionQueue

variable {κ : Type} [DecidableEq κ]

structure Settled (limits : AdmissionLimits κ) (queue : HttpAdmissionQueue κ) : Prop where
  consistent : queue.Consistent
  full : queue.Full
  limit : queue.limit = limits.limit queue.key
  maxWaiting : queue.maxWaiting = limits.maxQueuedHttpRequests
  idle : queue.idle = false

/-- Every queue object is settled, the map has queues under their keys, and the others have nothing to do. -/
structure Sound (limits : AdmissionLimits κ) (queues : HttpQueues κ) : Prop where
  settled : ∀ (index : Nat) queue, queues.objects[index]? = some queue → Settled limits queue
  mapped : ∀ key index, queues.queues.get? key = some index →
    ∃ queue, queues.objects[index]? = some queue ∧ queue.key = key
  detached : ∀ (index : Nat) queue, queues.objects[index]? = some queue → queues.queues.get? queue.key ≠ some index →
    queue.Inert

variable {limits : AdmissionLimits κ} {queues : HttpQueues κ}

omit [DecidableEq κ] in
lemma Settled.call {queue after : HttpAdmissionQueue κ} (h : Settled limits queue)
    (hcall : queue.Serves after) : Settled limits { after with idle := false } := by
  obtain ⟨hafter, hfull, hkeeps⟩ := hcall
  refine ⟨{ hafter with }, hfull, ?_, hkeeps.maxWaiting.trans h.maxWaiting, rfl⟩
  show after.limit = limits.limit after.key
  rw [hkeeps.limit, hkeeps.key, h.limit]

variable {call : HttpAdmissionQueue κ → HttpAdmissionQueue κ}

lemma Sound.update (h : queues.Sound limits) (index : Nat)
    (hcall : ∀ queue, Settled limits queue → queue.Serves (call queue))
    (hinert : ∀ queue, queues.objects[index]? = some queue → queues.queues.get? queue.key ≠ some index →
      call queue = queue) : (queues.update index call).Sound limits := by
  unfold HttpQueues.update
  cases hindex : queues.objects[index]? with
  | none => exact h
  | some queue =>
    have hsettled := h.settled index queue hindex
    obtain ⟨hafter, hfull, hkeeps⟩ := hcall queue hsettled
    -- a queue that calls `onIdle` is the one in the map
    have hattached : (call queue).idle = true → queues.queues.get? queue.key = some index := by
      intro hflag
      by_contra hnot
      rw [hinert queue hindex hnot, hsettled.idle] at hflag
      cases hflag
    have hobjects : ∀ (other : Nat) found, (queues.objects.set index { call queue with idle := false })[other]? = some found →
        (other = index ∧ found = { call queue with idle := false }) ∨ (other ≠ index ∧ queues.objects[other]? = some found) := by
      intro other found hfound
      by_cases hsame : index = other
      · subst hsame
        rw [getElem?_set_self (List.getElem?_eq_some_iff.mp hindex).1] at hfound
        exact .inl ⟨rfl, (some.inj hfound).symm⟩
      · rw [getElem?_set_ne hsame] at hfound
        exact .inr ⟨Ne.symm hsame, hfound⟩
    have hmap : ∀ key, (if (call queue).idle = true then queues.queues.delete queue.key else queues.queues).get? key =
        if (call queue).idle = true ∧ key = queue.key then none else queues.queues.get? key := by
      intro key
      split_ifs with hflag hboth hboth
      · rw [get?_delete, if_pos hboth.2]
      · rw [get?_delete, if_neg fun hkey => hboth ⟨hflag, hkey⟩]
      · exact absurd hboth.1 hflag
      · rfl
    refine ⟨fun other found hfound => ?_, fun key other hget => ?_, fun other found hfound hnot => ?_⟩
    · rcases hobjects other found hfound with ⟨-, rfl⟩ | ⟨-, hold⟩
      · exact hsettled.call ⟨hafter, hfull, hkeeps⟩
      · exact h.settled other found hold
    · rw [hmap] at hget
      split_ifs at hget
      obtain ⟨found, hfound, hkey⟩ := h.mapped key other hget
      by_cases hsame : index = other
      · subst hsame
        obtain rfl := mem_unique hindex hfound
        exact ⟨_, getElem?_set_self (List.getElem?_eq_some_iff.mp hindex).1, hkeeps.key.trans hkey⟩
      · exact ⟨found, by rw [← hfound]; exact getElem?_set_ne hsame, hkey⟩
    · rw [hmap] at hnot
      rcases hobjects other found hfound with ⟨rfl, rfl⟩ | ⟨hne, hold⟩
      · have hkey : ({ call queue with idle := false } : HttpAdmissionQueue κ).key = queue.key := hkeeps.key
        rw [hkey] at hnot
        by_cases hget : queues.queues.get? queue.key = some other
        · have hflag : (call queue).idle = true := by
            by_contra hflag
            exact hnot (by rw [if_neg fun hboth => hflag hboth.1]; exact hget)
          exact hkeeps.idle hflag
        · rw [hinert queue hindex hget]
          exact h.detached other queue hindex hget
      · by_cases hget : queues.queues.get? found.key = some other
        · exfalso
          split_ifs at hnot with hboth
          · have hboth' := hattached hboth.1
            rw [← hboth.2, hget] at hboth'
            exact hne (some.inj hboth')
          · exact hnot hget
        · exact h.detached other found hold hget

omit [DecidableEq κ] in
lemma settled_new (limits : AdmissionLimits κ) (key : κ) :
    Settled limits (.new key (limits.limit key) limits.maxQueuedHttpRequests) :=
  ⟨consistent_new .., fun hne => absurd rfl hne, rfl, rfl, rfl⟩

lemma Sound.create (h : queues.Sound limits) {key : κ} (hnone : queues.queues.get? key = none) :
    Sound limits
      { queues := queues.queues.set key queues.objects.length
        objects := queues.objects ++ [.new key (limits.limit key) limits.maxQueuedHttpRequests] } := by
  have hobjects : ∀ (index : Nat) found,
      (queues.objects ++ [.new key (limits.limit key) limits.maxQueuedHttpRequests])[index]? = some found →
      (index = queues.objects.length ∧ found = .new key (limits.limit key) limits.maxQueuedHttpRequests) ∨
        queues.objects[index]? = some found := by
    intro index found hfound
    rcases lt_trichotomy index queues.objects.length with hlt | rfl | hgt
    · rw [getElem?_append_left hlt] at hfound
      exact .inr hfound
    · rw [getElem?_concat_length] at hfound
      exact .inl ⟨rfl, (some.inj hfound).symm⟩
    · rw [getElem?_eq_none (by simp; omega)] at hfound
      cases hfound
  refine ⟨fun index found hfound => ?_, fun other index hget => ?_, fun index found hfound hnot => ?_⟩
  · rcases hobjects index found hfound with ⟨-, rfl⟩ | hold
    · exact settled_new limits key
    · exact h.settled index found hold
  · simp only [get?_set] at hget
    split_ifs at hget with hkey
    · cases hget
      exact ⟨_, getElem?_concat_length .., hkey⟩
    · obtain ⟨found, hfound, hother⟩ := h.mapped other index hget
      exact ⟨found, (getElem?_append_left (List.getElem?_eq_some_iff.mp hfound).1).trans hfound, hother⟩
  · simp only [get?_set] at hnot
    rcases hobjects index found hfound with ⟨rfl, rfl⟩ | hold
    · exact absurd (if_pos rfl) hnot
    refine h.detached index found hold fun hget => ?_
    rw [if_neg] at hnot
    · exact hnot hget
    rintro rfl
    rw [hnone] at hget
    cases hget

variable (limits)

lemma step_sound (queues : HttpQueues κ) (event : Event κ) (h : queues.Sound limits) :
    (queues.step limits event).Sound limits := by
  have hfinish : ∀ index request host error,
      (∀ waited, error ≠ some (.admitted waited)) →
      (queues.update index fun queue => queue.finish host request false error).Sound limits := by
    intro index request host error herror
    refine h.update index (fun queue hqueue => finish_sound host hqueue.consistent hqueue.full hqueue.idle request herror) ?_
    intro queue hqueue hnot
    rw [finish, if_neg]
    rw [(h.detached index queue hqueue hnot).2]
    exact not_mem_nil
  have hacquire : ∀ host queue, Settled limits queue →
      queue.Serves (queue.acquire host) :=
    fun host queue hqueue => acquire_sound host hqueue.consistent hqueue.full hqueue.idle
  cases event with
  | cancel index request host => exact hfinish index request host none nofun
  | timeout index request host => exact hfinish index request host (some .expired) nofun
  | release index request host =>
    refine h.update index (fun queue hqueue => release_sound host hqueue.consistent hqueue.full hqueue.idle request) ?_
    intro queue hqueue hnot
    have hheld := (h.detached index queue hqueue hnot).held_eq_nil (h.settled index queue hqueue).consistent
    rw [release, if_neg]
    rw [hheld]
    exact not_mem_nil
  | admitHttp key host =>
    show (queues.admitHttp limits key host).Sound limits
    unfold admitHttp
    split
    next index hget =>
      refine h.update index (hacquire host) fun queue hqueue hnot => ?_
      obtain ⟨found, hfound, hkey⟩ := h.mapped key index hget
      obtain rfl := mem_unique hqueue hfound
      rw [hkey] at hnot
      exact absurd hget hnot
    next hnone =>
      refine (h.create hnone).update _ (hacquire host) fun queue hqueue hnot => ?_
      simp only [getElem?_concat_length, some.injEq] at hqueue
      subst hqueue
      simp only [get?_set] at hnot
      exact absurd (if_pos rfl) hnot

lemma run_sound (events : List (Event κ)) : (run (step limits) empty events).Sound limits := by
  refine run_keeps (I := Sound limits) (fun queues event h => step_sound limits queues event h) ?_ events
  refine ⟨fun _ _ h => ?_, fun _ _ h => ?_, fun _ _ h => ?_⟩ <;> cases h

variable {limits}

lemma getElem?_update (queues : HttpQueues κ) (index other : Nat) (call : HttpAdmissionQueue κ → HttpAdmissionQueue κ) :
    (queues.update index call).objects[other]? =
      if index = other then queues.objects[other]?.map fun queue => { call queue with idle := false }
      else queues.objects[other]? := by
  unfold update
  cases hindex : queues.objects[index]? with
  | none =>
    split_ifs with hsame
    · rw [← hsame, hindex]
      rfl
    · rfl
  | some queue =>
    split_ifs with hsame
    · subst hsame
      rw [hindex]
      exact getElem?_set_self (List.getElem?_eq_some_iff.mp hindex).1
    · exact getElem?_set_ne hsame

def Returned (queues : HttpQueues κ) (index request : Nat) : Prop :=
  ∃ queue, queues.objects[index]? = some queue ∧ queue.Done request

variable {index request : Nat} (h : queues.Returned index request)
include h

lemma Returned.update (other : Nat) (hcall : ∀ queue, queue.Done request → (call queue).Done request) :
    (queues.update other call).Returned index request := by
  obtain ⟨queue, hqueue, hdone⟩ := h
  rw [Returned, getElem?_update]
  split_ifs
  · refine ⟨_, by rw [hqueue]; rfl, ?_⟩
    have hafter := hcall queue hdone
    exact { hafter with }
  · exact ⟨queue, hqueue, hdone⟩

lemma Returned.step (limits : AdmissionLimits κ)
    (event : Event κ) : (queues.step limits event).Returned index request := by
  cases event with
  | cancel other request' host => exact h.update other fun queue hqueue => hqueue.finish host request' false none
  | timeout other request' host => exact h.update other fun queue hqueue => hqueue.finish host request' false _
  | release other request' host => exact h.update other fun queue hqueue => hqueue.release host request'
  | admitHttp key host =>
    show (queues.admitHttp limits key host).Returned index request
    unfold admitHttp
    split
    next other _ => exact h.update other fun queue hqueue => hqueue.acquire host
    next =>
      refine Returned.update ?_ _ fun queue hqueue => hqueue.acquire host
      obtain ⟨queue, hqueue, hdone⟩ := h
      exact ⟨queue, (getElem?_append_left (List.getElem?_eq_some_iff.mp hqueue).1).trans hqueue, hdone⟩

lemma Returned.release (hsound : queues.Sound limits) (host : AdmissionHost) :
    queues.step limits (.release index request host) = queues := by
  obtain ⟨queue, hqueue, hdone⟩ := h
  have hidle := (hsound.settled index queue hqueue).idle
  have hsame : queue.release host request = queue := if_neg hdone.not_held
  have hset : queues.objects.set index { queue with idle := false } = queues.objects := by
    obtain ⟨hlt, hget⟩ := List.getElem?_eq_some_iff.mp hqueue
    have hflag : ({ queue with idle := false } : HttpAdmissionQueue κ) = queues.objects[index] := by rw [← hidle, hget]
    rw [hflag, set_getElem_self]
  show queues.update index (fun queue => queue.release host request) = queues
  unfold HttpQueues.update
  rw [hqueue]
  simp only [hsame, hidle, Bool.false_eq_true, if_false, hset]

omit h

lemma answered_finish {queue : HttpAdmissionQueue κ}
    (hqueue : queues.objects[index]? = some queue) (hmem : request ∈ queue.waiting)
    (host : AdmissionHost) (error : Option Admission) :
    ∃ after, (queues.update index fun queue => queue.finish host request false error).objects[index]? = some after ∧
      (request, error.getD .withdrawn) ∈ after.answers := by
  rw [getElem?_update, if_pos rfl, hqueue]
  refine ⟨_, rfl, ?_⟩
  show _ ∈ (queue.finish host request false error).answers
  rw [finish, if_pos hmem, removeIfIdle_answers]
  exact mem_append_right _ mem_cons_self

/-- Over every interleaving of requests, releases, cancellations and timeouts, in every queue: between none and `limit` requests are
active, the line is not longer than its maximum, requests wait only while all permits are out, a request is admitted only when
every earlier one has its answer, and each request has one answer exactly when it is not in the line. A timer or a cancellation answers a
request that waits, and a permit that comes back twice comes back once. Of two queues of one origin one has nothing to do. -/
theorem admission_accounting (limits : AdmissionLimits κ) (events : List (Event κ)) :
    (∀ (index : Nat) queue, (run (step limits) empty events).objects[index]? = some queue →
      (0 ≤ queue.active ∧ queue.active ≤ limits.limit queue.key) ∧
      queue.waiting.length ≤ limits.maxQueuedHttpRequests ∧
      (queue.waiting ≠ [] → queue.active = limits.limit queue.key) ∧
      Fifo queue.answers ∧
      (∀ request, (queue.answers.map Prod.fst).count request =
        if request < queue.requests ∧ request ∉ queue.waiting then 1 else 0) ∧
      (∀ request ∈ queue.waiting, ∀ host,
        (∃ after, ((run (step limits) empty events).step limits (.timeout index request host)).objects[index]? = some after ∧
          (request, .expired) ∈ after.answers) ∧
        ∃ after, ((run (step limits) empty events).step limits (.cancel index request host)).objects[index]? = some after ∧
          (request, .withdrawn) ∈ after.answers) ∧
      ∀ request ∈ queue.held, ∀ host between again,
        run (step limits) empty (events ++ .release index request host :: between ++ [.release index request again]) =
          run (step limits) empty (events ++ .release index request host :: between)) ∧
    ∀ (i j : Nat) queue other, (run (step limits) empty events).objects[i]? = some queue →
      (run (step limits) empty events).objects[j]? = some other → i ≠ j → queue.key = other.key →
      queue.Inert ∨ other.Inert := by
  have hsound := run_sound limits events
  refine ⟨fun index queue hqueue => ?_, fun i j queue other hi hj hne hkey => ?_⟩
  · obtain ⟨hconsistent, hfull, hlimit, hmax, -⟩ := hsound.settled index queue hqueue
    refine ⟨⟨?_, ?_⟩, ?_, ?_, hconsistent.fifo, hconsistent.answered, fun request hmem host => ⟨?_, ?_⟩,
      fun request hmem host between again => ?_⟩
    · rw [hconsistent.active_eq]
      exact Int.natCast_nonneg _
    · rw [← hlimit]
      exact hconsistent.active_le
    · rw [← hmax]
      exact hconsistent.waiting_le
    · rw [← hlimit]
      exact hfull
    · exact answered_finish hqueue hmem host (some .expired)
    · exact answered_finish hqueue hmem host none
    have hreturned : (run (step limits) empty (events ++ [.release index request host])).Returned index request := by
      rw [run_append, run_cons, run_nil]
      refine ⟨{ queue.release host request with idle := false }, ?_, ?_⟩
      · show (update _ index _).objects[index]? = _
        rw [getElem?_update, if_pos rfl, hqueue]
        rfl
      · have hdone := done_release host hconsistent hmem
        exact { hdone with }
    have hbetween : (run (step limits) empty (events ++ .release index request host :: between)).Returned index request := by
      rw [← singleton_append, ← append_assoc, run_append]
      exact run_keeps (I := fun queues : HttpQueues κ => queues.Returned index request) (fun _ event h => h.step limits event) hreturned between
    rw [run_append]
    exact hbetween.release (run_sound limits _) again
  · by_cases hget : (run (step limits) empty events).queues.get? queue.key = some i
    · refine .inr (hsound.detached j other hj fun hget' => hne ?_)
      rw [← hkey, hget] at hget'
      exact some.inj hget'
    · exact .inl (hsound.detached i queue hi hget)

end HttpQueues

end PortManager.Browser
