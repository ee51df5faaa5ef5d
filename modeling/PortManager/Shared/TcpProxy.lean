import PortManager.Base.BufferWindow
import PortManager.Base.Run

/-!
# The two directions of a proxied connection

Embeds `pm_tcp_proxy_forward` of `pm_tcp_proxy.c` with `pm_read_direction`, `pm_write_direction` and `pm_shutdown_drained`. What
`poll`, `recv` and `send` answer is the input, wake-up by wake-up, failures included. The suppression of a hang-up that was
seen decides what `poll` may report and is left to it.

`received` and `sent` collect the bytes of the calls, `capacities` the room that `recv` was called with. In every run of the proxy
they stay related by what is in the buffer (`Direction.Relays`).
-/

namespace PortManager.Shared
open Run BufferWindow List

def PM_TCP_PROXY_BUFFER_SIZE : Nat := 65536

lemma bufferSize_pos : 0 < PM_TCP_PROXY_BUFFER_SIZE := by decide

structure Direction where
  sourceOpen : Bool
  buffer : Nat → UInt8
  start : Nat
  length : Nat
  targetShutdown : Bool
  received : List UInt8
  sent : List UInt8
  capacities : List Nat

/-- What `recv` answers; at least one byte, and not more than there is room for. -/
inductive RecvAnswer where
  | bytes (first : UInt8) (rest : List UInt8)
  | eof
  | again
  | failed

/-- The answers of `send` as long as there is something to send: one byte more than the number, or an interruption. When they are
used up the call would block or fails. -/
structure SendAnswers where
  counts : List (Option Nat)
  fails : Bool

namespace Direction

variable (direction : Direction)

def initial (memory : Nat → UInt8) : Direction := ⟨true, memory, 0, 0, false, [], [], []⟩

def queued : List UInt8 := window direction.buffer direction.start direction.length

/-- The window is moved when it touches the end of the buffer. -/
def makeRoom : Direction :=
  if direction.start + direction.length = PM_TCP_PROXY_BUFFER_SIZE then
    { direction with buffer := move direction.buffer direction.start direction.length, start := 0 }
  else direction

def available : Nat := PM_TCP_PROXY_BUFFER_SIZE - direction.start - direction.length

variable (answer : RecvAnswer)

/-- The call of `recv`, and whether it failed. -/
def recv : Direction × Bool :=
  let called := { direction with capacities := direction.available :: direction.capacities }
  match answer with
  | .bytes first rest =>
    let bytes := (first :: rest).take direction.available
    ({ called with
      buffer := write direction.buffer (direction.start + direction.length) bytes
      length := direction.length + bytes.length
      received := direction.received ++ bytes }, false)
  | .eof => ({ called with sourceOpen := false }, false)
  | .again => (called, false)
  | .failed => (called, true)

/-- `pm_read_direction`. -/
def read : Direction × Bool :=
  if direction.sourceOpen = false ∨ direction.length = PM_TCP_PROXY_BUFFER_SIZE then (direction, false)
  else direction.makeRoom.recv answer

/-- A read that is only tried when `poll` reports input or a hang-up. -/
def readIf (ready : Bool) (answer : RecvAnswer) : Direction × Bool :=
  if ready then direction.read answer else (direction, false)

def advance (count : Nat) : Direction :=
  { direction with
    start := if direction.length - count = 0 then 0 else direction.start + count
    length := direction.length - count
    sent := direction.sent ++ direction.queued.take count }

/-- `pm_write_direction`. -/
def writeLoop (fails : Bool) : Direction → List (Option Nat) → Direction × Bool
  | direction, [] => (direction, direction.length ≠ 0 && fails)
  | direction, answer :: answers =>
    if direction.length = 0 then (direction, false)
    else
      match answer with
      | none => writeLoop fails direction answers
      | some count => writeLoop fails (direction.advance (min (count + 1) direction.length)) answers

def send (answers : SendAnswers) : Direction × Bool := writeLoop answers.fails direction answers.counts

/-- `pm_shutdown_drained`. -/
def shutdownDrained : Direction :=
  if direction.sourceOpen = false ∧ direction.length = 0 then { direction with targetShutdown := true } else direction

def wantsRead : Bool := direction.sourceOpen && direction.length < PM_TCP_PROXY_BUFFER_SIZE

/-! ## What every call keeps -/

/-- The bytes that are sent, followed by the queued ones, are the received ones; the window is inside the buffer; `recv` had room; and
the write half is shut only after the end of the input, with nothing queued. -/
structure Relays (direction : Direction) : Prop where
  bytes : direction.sent ++ direction.queued = direction.received
  inside : direction.start + direction.length ≤ PM_TCP_PROXY_BUFFER_SIZE
  room : ∀ capacity ∈ direction.capacities, 0 < capacity
  shut : direction.targetShutdown = true → direction.sourceOpen = false ∧ direction.length = 0

variable {direction}

lemma Relays.initial {memory : Nat → UInt8} : (Direction.initial memory).Relays := by
  refine ⟨rfl, Nat.zero_le _, fun capacity h => ?_, fun h => ?_⟩
  · cases h
  · cases h

variable (h : direction.Relays)
include h

lemma Relays.makeRoom (hroom : direction.length < PM_TCP_PROXY_BUFFER_SIZE) :
    direction.makeRoom.Relays ∧ 0 < direction.makeRoom.available := by
  have hinside := h.inside
  unfold Direction.makeRoom
  split
  next hend =>
    refine ⟨⟨?_, ?_, h.room, h.shut⟩, ?_⟩
    · simp only [queued, window_move]
      exact h.bytes
    · simp only [zero_add]
      exact hroom.le
    · simp only [available]
      omega
  next hend =>
    refine ⟨h, ?_⟩
    unfold available
    omega

lemma Relays.recv (hopen : direction.sourceOpen = true) (havailable : 0 < direction.available)
    (answer : RecvAnswer) : (direction.recv answer).1.Relays := by
  have hcapacities : ∀ capacity ∈ direction.available :: direction.capacities, 0 < capacity :=
    forall_mem_cons.mpr ⟨havailable, h.room⟩
  have hshut : direction.targetShutdown = true → False := by
    intro hshutdown
    rw [(h.shut hshutdown).1] at hopen
    cases hopen
  cases answer with
  | bytes first rest =>
    refine ⟨?_, ?_, hcapacities, fun hshutdown => (hshut hshutdown).elim⟩
    · simp only [Direction.recv, queued, window_write]
      rw [← append_assoc, ← queued, h.bytes]
    have hlength : ((first :: rest).take direction.available).length ≤ direction.available := length_take_le _ _
    have hinside := h.inside
    simp only [Direction.recv]
    unfold available at hlength ⊢
    omega
  | eof | again | failed => exact ⟨h.bytes, h.inside, hcapacities, fun hshutdown => (hshut hshutdown).elim⟩

lemma Relays.read : (direction.read answer).1.Relays := by
  unfold Direction.read
  split
  next => exact h
  next hgo =>
    rw [not_or, Bool.not_eq_false] at hgo
    have hroom : direction.length < PM_TCP_PROXY_BUFFER_SIZE := by
      have := h.inside
      omega
    obtain ⟨hmoved, havailable⟩ := h.makeRoom hroom
    refine hmoved.recv ?_ havailable answer
    rw [← hgo.1, Direction.makeRoom]
    split <;> rfl

lemma Relays.readIf (ready : Bool) (answer : RecvAnswer) : (direction.readIf ready answer).1.Relays := by
  unfold Direction.readIf
  split
  · exact h.read answer
  · exact h

omit h

lemma queued_advance {count : Nat} : (direction.advance count).queued = direction.queued.drop count := by
  simp only [advance, queued, ← window_drop]
  split
  next hnone => rw [hnone, window, window, range_zero, map_nil, map_nil]
  next => rfl

variable (h : direction.Relays)
include h

lemma Relays.advance (hlength : direction.length ≠ 0) {count : Nat} (hcount : count ≤ direction.length) :
    (direction.advance count).Relays := by
  refine ⟨?_, ?_, h.room, fun hshutdown => absurd (h.shut hshutdown).2 hlength⟩
  · rw [queued_advance]
    simp only [Direction.advance]
    rw [append_assoc, take_append_drop, h.bytes]
  · have hinside := h.inside
    simp only [Direction.advance]
    split <;> omega

lemma Relays.writeLoop {fails : Bool} {answers : List (Option Nat)} :
    (Direction.writeLoop fails direction answers).1.Relays := by
  induction answers generalizing direction with
  | nil => exact h
  | cons answer answers ih =>
    unfold Direction.writeLoop
    split
    next => exact h
    next hlength =>
      cases answer with
      | none => exact ih h
      | some count => exact ih (h.advance hlength (min_le_right _ _))

lemma Relays.send (answers : SendAnswers) : (direction.send answers).1.Relays := h.writeLoop

lemma Relays.shutdownDrained : direction.shutdownDrained.Relays := by
  unfold Direction.shutdownDrained
  split
  next hdrained => exact ⟨h.bytes, h.inside, h.room, fun _ => hdrained⟩
  next => exact h

lemma Relays.sent_of_drained (hlength : direction.length = 0) : direction.sent = direction.received := by
  rw [← h.bytes, queued, hlength, window, range_zero, map_nil, append_nil]

omit h

/-! ## Failures come from the calls -/

lemma readIf_fails {ready : Bool} {answer : RecvAnswer} (h : (direction.readIf ready answer).2 = true) :
    answer = .failed := by
  unfold Direction.readIf Direction.read at h
  cases answer with
  | failed => rfl
  | _ =>
    split at h
    · split at h
      · cases h
      · cases h
    · cases h

lemma writeLoop_fails {fails : Bool} {answers : List (Option Nat)}
    (h : (Direction.writeLoop fails direction answers).2 = true) : fails = true := by
  induction answers generalizing direction with
  | nil =>
    simp only [Direction.writeLoop, Bool.and_eq_true] at h
    exact h.2
  | cons answer answers ih =>
    unfold Direction.writeLoop at h
    split at h
    · cases h
    cases answer with
    | none => exact ih h
    | some count => exact ih h

end Direction

/-! ## The loop -/

structure Burst where
  recvForward : RecvAnswer
  recvBackward : RecvAnswer
  sendBackward : SendAnswers
  sendForward : SendAnswers

structure Burst.Harmless (burst : Burst) : Prop where
  recvForward : burst.recvForward ≠ .failed
  recvBackward : burst.recvBackward ≠ .failed
  sendBackward : burst.sendBackward.fails = false
  sendForward : burst.sendForward.fails = false

/-- What `poll` reports, and what the calls after it answer. -/
inductive Wakeup where
  /-- an interruption, or a timeout after which no socket has an error -/
  | nothing
  /-- `poll` fails, or a socket has an error -/
  | error
  | ready (client target : Bool) (bursts : Nat → Burst)

def Wakeup.Harmless : Wakeup → Prop
  | .nothing => True
  | .error => False
  | .ready _ _ bursts => ∀ index, (bursts index).Harmless

inductive Outcome where
  | running
  | finished
  | failed
deriving DecidableEq

structure Proxy where
  forward : Direction
  backward : Direction
  outcome : Outcome

namespace Proxy

def initial (memory memory' : Nat → UInt8) : Proxy := ⟨.initial memory, .initial memory', .running⟩

variable (proxy : Proxy)

/-- One round: the reads that `poll` allows and then the writes. It tells whether the loop goes on. -/
def burst (client target : Bool) (answers : Burst) : Proxy × Bool :=
  let forward := proxy.forward.readIf client answers.recvForward
  if forward.2 then (⟨forward.1, proxy.backward, .failed⟩, false)
  else
    let backward := proxy.backward.readIf target answers.recvBackward
    if backward.2 then (⟨forward.1, backward.1, .failed⟩, false)
    else
      let backward' := backward.1.send answers.sendBackward
      if backward'.2 then (⟨forward.1, backward'.1, .failed⟩, false)
      else
        let forward' := forward.1.send answers.sendForward
        if forward'.2 then (⟨forward'.1, backward'.1, .failed⟩, false)
        else
          let idle := forward.1.length = proxy.forward.length && backward.1.length = proxy.backward.length &&
            forward'.1.length = proxy.forward.length && backward'.1.length = proxy.backward.length &&
            forward'.1.sourceOpen = proxy.forward.sourceOpen && backward'.1.sourceOpen = proxy.backward.sourceOpen
          (⟨forward'.1, backward'.1, proxy.outcome⟩, !idle)

def burstLoop (client target : Bool) (bursts : Nat → Burst) : Nat → Proxy → Proxy
  | 0, proxy => proxy
  | left + 1, proxy =>
    let next := proxy.burst client target (bursts left)
    if next.2 then burstLoop client target bursts left next.1 else next.1

/-- One turn of the loop of `pm_tcp_proxy_forward`. -/
def turn (proxy : Proxy) (wakeup : Wakeup) : Proxy :=
  if proxy.outcome ≠ .running then proxy
  else
    let drained : Proxy := ⟨proxy.forward.shutdownDrained, proxy.backward.shutdownDrained, .running⟩
    if drained.forward.wantsRead = false ∧ drained.backward.wantsRead = false ∧ drained.forward.length = 0 ∧
        drained.backward.length = 0 then { drained with outcome := .finished }
    else
      match wakeup with
      | .nothing => drained
      | .error => { drained with outcome := .failed }
      | .ready client target bursts => burstLoop client target bursts 16 drained

/-- Both directions relay what they receive, and at the end all of it is delivered. -/
structure Relays (proxy : Proxy) : Prop where
  forward : proxy.forward.Relays
  backward : proxy.backward.Relays
  finished : proxy.outcome = .finished → proxy.forward.sourceOpen = false ∧ proxy.backward.sourceOpen = false ∧
    proxy.forward.length = 0 ∧ proxy.backward.length = 0

variable {proxy}

lemma Relays.of_unfinished {forward backward : Direction} {outcome : Outcome} (hforward : forward.Relays)
    (hbackward : backward.Relays) (houtcome : outcome ≠ .finished) : Relays ⟨forward, backward, outcome⟩ :=
  ⟨hforward, hbackward, fun hfinished => absurd hfinished houtcome⟩

/-- What a round or a loop of rounds leaves of a running proxy; it fails only if a call does. -/
structure Goes (harmless : Prop) (proxy : Proxy) : Prop where
  relays : proxy.Relays
  unfinished : proxy.outcome ≠ .finished
  running : harmless → proxy.outcome = .running

lemma Goes.of_failed {harmless : Prop} {forward backward : Direction} (hforward : forward.Relays)
    (hbackward : backward.Relays) (hfails : ¬harmless) : Goes harmless ⟨forward, backward, .failed⟩ :=
  ⟨.of_unfinished hforward hbackward Outcome.noConfusion, Outcome.noConfusion, fun h => absurd h hfails⟩

lemma Relays.burst (h : proxy.Relays) (hrunning : proxy.outcome = .running) (client target : Bool) (answers : Burst) :
    Goes answers.Harmless (proxy.burst client target answers).1 ∧
      ((proxy.burst client target answers).2 = true → (proxy.burst client target answers).1.outcome = .running) := by
  have hforward := h.forward.readIf client answers.recvForward
  have hbackward := h.backward.readIf target answers.recvBackward
  simp only [Proxy.burst]
  split
  next hfails =>
    refine ⟨.of_failed hforward h.backward fun hharmless => ?_, fun hgo => absurd hgo Bool.false_ne_true⟩
    exact hharmless.recvForward (Direction.readIf_fails hfails)
  next =>
    split
    next hfails =>
      refine ⟨.of_failed hforward hbackward fun hharmless => ?_, fun hgo => absurd hgo Bool.false_ne_true⟩
      exact hharmless.recvBackward (Direction.readIf_fails hfails)
    next =>
      split
      next hfails =>
        refine ⟨.of_failed hforward (hbackward.send _) fun hharmless => ?_, fun hgo => absurd hgo Bool.false_ne_true⟩
        exact Bool.false_ne_true (hharmless.sendBackward ▸ Direction.writeLoop_fails hfails)
      next =>
        split
        next hfails =>
          refine ⟨.of_failed (hforward.send _) (hbackward.send _) fun hharmless => ?_, fun hgo => absurd hgo Bool.false_ne_true⟩
          exact Bool.false_ne_true (hharmless.sendForward ▸ Direction.writeLoop_fails hfails)
        next =>
          have hunfinished : proxy.outcome ≠ .finished := by rw [hrunning]; decide
          exact ⟨⟨.of_unfinished (hforward.send _) (hbackward.send _) hunfinished, hunfinished, fun _ => hrunning⟩,
            fun _ => hrunning⟩

lemma Relays.burstLoop {client target : Bool} {bursts : Nat → Burst} {left : Nat} (h : proxy.Relays)
    (hrunning : proxy.outcome = .running) :
    Goes (∀ index, (bursts index).Harmless) (Proxy.burstLoop client target bursts left proxy) := by
  induction left generalizing proxy with
  | zero => exact ⟨h, by rw [Proxy.burstLoop, hrunning]; decide, fun _ => hrunning⟩
  | succ left ih =>
    obtain ⟨hgoes, hon⟩ := h.burst hrunning client target (bursts left)
    simp only [Proxy.burstLoop]
    split
    next hgo => exact ih hgoes.relays (hon hgo)
    next => exact ⟨hgoes.relays, hgoes.unfinished, fun hharmless => hgoes.running (hharmless left)⟩

lemma Direction.closed_of_idle {direction : Direction} (hread : direction.wantsRead = false) (hlength : direction.length = 0) :
    direction.sourceOpen = false := by
  simpa [Direction.wantsRead, hlength, bufferSize_pos] using hread

lemma turn_spec (proxy : Proxy) (wakeup : Wakeup) (h : proxy.Relays) :
    (proxy.turn wakeup).Relays ∧
      (proxy.outcome ≠ .failed → wakeup.Harmless → (proxy.turn wakeup).outcome ≠ .failed) := by
  have hforward := h.forward.shutdownDrained
  have hbackward := h.backward.shutdownDrained
  have hdrained : Relays ⟨proxy.forward.shutdownDrained, proxy.backward.shutdownDrained, .running⟩ :=
    .of_unfinished hforward hbackward Outcome.noConfusion
  unfold Proxy.turn
  split
  next => exact ⟨h, fun hunfailed _ => hunfailed⟩
  next =>
    simp only
    split
    next hidle =>
      obtain ⟨hreadForward, hreadBackward, hlengthForward, hlengthBackward⟩ := hidle
      exact ⟨⟨hforward, hbackward, fun _ => ⟨Direction.closed_of_idle hreadForward hlengthForward,
        Direction.closed_of_idle hreadBackward hlengthBackward, hlengthForward, hlengthBackward⟩⟩,
        fun _ _ => Outcome.noConfusion⟩
    next =>
      cases wakeup with
      | nothing => exact ⟨hdrained, fun _ _ => Outcome.noConfusion⟩
      | error =>
        exact ⟨.of_unfinished hforward hbackward Outcome.noConfusion, fun _ hharmless => hharmless.elim⟩
      | ready client target bursts =>
        have hgoes : Goes (∀ index, (bursts index).Harmless) (burstLoop client target bursts 16 _) := hdrained.burstLoop rfl
        refine ⟨hgoes.relays, fun _ hharmless hfailed => ?_⟩
        rw [hgoes.running hharmless] at hfailed
        cases hfailed

variable {memory memory' : Nat → UInt8}

lemma run_relays (wakeups : List Wakeup) : (run turn (initial memory memory') wakeups).Relays :=
  run_keeps (fun proxy wakeup h => (turn_spec proxy wakeup h).1)
    (.of_unfinished Direction.Relays.initial Direction.Relays.initial Outcome.noConfusion) wakeups

lemma run_unfailed {wakeups : List Wakeup} (h : ∀ wakeup ∈ wakeups, wakeup.Harmless) :
    (run turn (initial memory memory') wakeups).outcome ≠ .failed := by
  induction wakeups using List.reverseRecOn with
  | nil => exact Outcome.noConfusion
  | append_singleton wakeups wakeup ih =>
    rw [forall_mem_append] at h
    rw [run_append]
    exact (turn_spec _ wakeup (run_relays wakeups)).2 (ih h.1) (h.2 wakeup (mem_singleton_self wakeup))

end Proxy

structure Direction.Transparent (direction : Direction) : Prop where
  in_order : direction.sent <+: direction.received
  shut_after_eof : direction.targetShutdown = true → direction.sourceOpen = false ∧ direction.sent = direction.received
  inside : direction.start + direction.length ≤ PM_TCP_PROXY_BUFFER_SIZE
  capacity_pos : ∀ capacity ∈ direction.capacities, 0 < capacity

lemma Direction.Relays.transparent {direction : Direction} (h : direction.Relays) : direction.Transparent :=
  ⟨⟨direction.queued, h.bytes⟩, fun hshut => ⟨(h.shut hshut).1, h.sent_of_drained (h.shut hshut).2⟩, h.inside, h.room⟩

end PortManager.Shared
