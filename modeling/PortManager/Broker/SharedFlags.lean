import PortManager.Base.Run

/-!
# Requests on one shared socket

Embeds the path of an `ACCEPT` or `CONNECT` through `portmanager_network_broker.c`: `pm_nb_release`, `pm_nb_reply`,
`pm_nb_begin_nonblocking`, `pm_nb_accept_tcp`, `pm_nb_execute` and the turns of `pm_nb_loop`. All clients pass descriptors
of one open file description, so they share its status flags. No request sets `PM_NB_NONBLOCK`. What the kernel, the agent
and the checks of a request answer are arguments of the turns; `fcntl` on an open descriptor succeeds.

The flags are put back whenever no request is in progress. But a request that starts while another one is in progress reads
the flags the broker itself has set: it takes the description for a non-blocking one and is answered that it would block.
-/

namespace PortManager.Broker
open Run Option

structure StatusFlags where
  nonblock : Bool
  others : Nat
deriving DecidableEq

inductive Errno where
  | EAGAIN
  | EWOULDBLOCK
  | EINPROGRESS
  | EPROTO
  | other (code : Nat)
deriving DecidableEq

/-- What a blocking call never fails with. -/
def Errno.WouldBlock : Errno → Prop
  | .EAGAIN | .EWOULDBLOCK | .EINPROGRESS => True
  | _ => False

/-- `accept` has no connection to give. -/
def Errno.Again : Errno → Prop
  | .EAGAIN | .EWOULDBLOCK => True
  | _ => False

instance Errno.decidableAgain : (errno : Errno) → Decidable errno.Again
  | .EAGAIN | .EWOULDBLOCK => .isTrue trivial
  | .EINPROGRESS | .EPROTO | .other _ => .isFalse id

inductive Operation where
  | connect
  | accept
deriving DecidableEq

inductive Phase where
  | free
  | receive
  | authorizing (authorizingBroker : Bool)
  | connecting
  | accepting
  | send
  | fdAcknowledgement
deriving DecidableEq

/-- The call of the request has started and is not answered. -/
def Phase.InProgress : Phase → Prop
  | .connecting | .accepting => True
  | _ => False

structure Client where
  phase : Phase
  operation : Operation
  originalFlags : StatusFlags
  changedFlags : Bool

def Client.empty : Client := ⟨.free, .connect, ⟨false, 0⟩, false⟩

/-- The description all clients passed, the slots, and the errors that were answered (`none` is success). -/
structure Server where
  flags : StatusFlags
  clients : Nat → Client
  replies : List (Option Errno)

/-- What one attempt of the call answers: `accept` gives a descriptor that is then set up by `fcntl`. -/
structure CallAnswer where
  error : Option Errno
  setup : Option Errno

inductive Turn where
  | admission (slot : Nat)
  /-- the last byte of the request, with the check that fails, if one does, and the answer of the call -/
  | request (slot : Nat) (operation : Operation) (scope validation : Option Errno) (answer : CallAnswer)
  /-- ancillary data that the protocol does not allow -/
  | invalid (slot : Nat)
  | authorized (slot : Nat) (scope validation : Option Errno) (answer : CallAnswer)
  | refused (slot : Nat) (error : Errno)
  /-- the socket is ready -/
  | ready (slot : Nat) (answer : CallAnswer)
  | sent (slot : Nat) (returned : Bool)
  /-- deadline, disconnection, another process, acknowledgement -/
  | release (slot : Nat)

namespace Server

variable (server : Server) (slot : Nat)

def initial (others : Nat) : Server := ⟨⟨false, others⟩, fun _ => .empty, []⟩

def setClient (client : Client) : Server := { server with clients := Function.update server.clients slot client }

/-- The flags after `F_SETFL` with what the client has found, if it changed them. -/
def restoredFlags : StatusFlags :=
  if (server.clients slot).changedFlags then (server.clients slot).originalFlags else server.flags

/-- `pm_nb_release`. -/
def release : Server := { server.setClient slot .empty with flags := server.restoredFlags slot }

/-- `pm_nb_reply`. -/
def reply (error : Option Errno) : Server :=
  { server.setClient slot { server.clients slot with phase := .send, changedFlags := false } with
    flags := server.restoredFlags slot
    replies := error :: server.replies }

def goto (phase : Phase) : Server := server.setClient slot { server.clients slot with phase := phase }

/-- `pm_nb_begin_nonblocking`. -/
def beginNonblocking : Server :=
  let client := { server.clients slot with originalFlags := server.flags }
  if server.flags.nonblock then server.setClient slot client
  else
    { server.setClient slot { client with changedFlags := true } with
      flags := { server.flags with nonblock := true } }

/-- `pm_nb_accept_tcp`. -/
def acceptTcp (answer : CallAnswer) : Server :=
  match answer.error with
  | none => server.reply slot answer.setup
  | some error =>
    if error.Again ∧ (server.clients slot).originalFlags.nonblock = false then server.goto slot .accepting
    else server.reply slot (some error)

/-- The `connect` of `pm_nb_execute`. -/
def connectTcp (answer : CallAnswer) : Server :=
  if answer.error = some .EINPROGRESS ∧ (server.clients slot).originalFlags.nonblock = false then
    server.goto slot .connecting
  else server.reply slot answer.error

/-- `pm_nb_execute`. -/
def execute (validation : Option Errno) (answer : CallAnswer) : Server :=
  match validation with
  | some error => server.reply slot (some error)
  | none =>
    match (server.clients slot).operation with
    | .accept => (server.beginNonblocking slot).acceptTcp slot answer
    | .connect => (server.beginNonblocking slot).connectTcp slot answer

/-- `pm_scope_begin`, for the broker itself or for the client. -/
def beginScope (authorizingBroker : Bool) (scope : Option Errno) : Server :=
  match scope with
  | some error => server.reply slot (some error)
  | none => server.goto slot (.authorizing authorizingBroker)

def receiveRequest (operation : Operation) : Server :=
  server.setClient slot { server.clients slot with operation := operation }

/-- What the loop does with one client; `agent` tells whether there is an agent to ask. -/
def turn (agent : Bool) (server : Server) : Turn → Server
  | .admission slot =>
    if (server.clients slot).phase = .free then server.setClient slot { Client.empty with phase := .receive } else server
  | .request slot operation scope validation answer =>
    if (server.clients slot).phase = .receive then
      let received := server.receiveRequest slot operation
      if agent then received.beginScope slot true scope else received.execute slot validation answer
    else server
  | .invalid slot => if (server.clients slot).phase = .receive then server.reply slot (some .EPROTO) else server
  | .authorized slot scope validation answer =>
    if (server.clients slot).phase = .authorizing true then server.beginScope slot false scope
    else if (server.clients slot).phase = .authorizing false then server.execute slot validation answer
    else server
  | .refused slot error =>
    match (server.clients slot).phase with
    | .authorizing _ => server.reply slot (some error)
    | _ => server
  | .ready slot answer =>
    match (server.clients slot).phase with
    | .accepting => server.acceptTcp slot answer
    | .connecting => server.reply slot answer.error
    | _ => server
  | .sent slot returned =>
    if (server.clients slot).phase = .send then
      if returned then server.goto slot .fdAcknowledgement else server.release slot
    else server
  | .release slot => server.release slot

/-! ## The flags -/

def Busy : Prop := ∃ slot, (server.clients slot).phase.InProgress

/-- The request in progress, if there is one, is the one that has changed the flags, and it knows the original ones. -/
structure Owned (original : StatusFlags) (owner : Option Nat) (server : Server) : Prop where
  changed_iff : ∀ slot, (server.clients slot).changedFlags = true ↔ owner = some slot
  inProgress_iff : ∀ slot, (server.clients slot).phase.InProgress ↔ owner = some slot
  found : ∀ slot, owner = some slot → (server.clients slot).originalFlags = original
  flags : server.flags = if owner.isSome then { original with nonblock := true } else original

variable {server slot} {original : StatusFlags} {owner : Option Nat} {operation : Operation} {answer : CallAnswer}
  {error scope validation : Option Errno} {agent : Bool}

variable (h : Owned original owner server)
include h

lemma Owned.busy_iff : server.Busy ↔ owner.isSome := by
  constructor
  · rintro ⟨slot, hslot⟩
    rw [(h.inProgress_iff slot).mp hslot]
    rfl
  · intro hsome
    obtain ⟨slot, rfl⟩ := isSome_iff_exists.mp hsome
    exact ⟨slot, (h.inProgress_iff slot).mpr rfl⟩

lemma Owned.unchanged (hslot : ¬(server.clients slot).phase.InProgress) :
    (server.clients slot).changedFlags = false := by
  rw [Bool.eq_false_iff]
  intro hchanged
  exact hslot ((h.inProgress_iff slot).mpr ((h.changed_iff slot).mp hchanged))

lemma Owned.ne_owner (hslot : ¬(server.clients slot).phase.InProgress) :
    owner ≠ some slot := fun e => hslot ((h.inProgress_iff slot).mpr e)

omit h

lemma restoredFlags_of_unchanged (h : (server.clients slot).changedFlags = false) :
    server.restoredFlags slot = server.flags := by
  rw [restoredFlags, h]
  rfl

lemma filter_owner_of_ne (h : owner ≠ some slot) : owner.filter (· ≠ slot) = owner := by
  cases owner with
  | none => rfl
  | some other => simp [show other ≠ slot from fun e => h (congrArg some e)]

variable (h : Owned original owner server)
include h

lemma Owned.settle (slot : Nat) (client : Client) (hchanged : client.changedFlags = false)
    (hphase : ¬client.phase.InProgress) (replies : List (Option Errno)) :
    Owned original (owner.filter (· ≠ slot))
      ⟨server.restoredFlags slot, Function.update server.clients slot client, replies⟩ := by
  have howner : ∀ other, owner.filter (· ≠ slot) = some other ↔ owner = some other ∧ other ≠ slot := by
    intro other
    simp [filter_eq_some_iff]
  refine ⟨fun other => ?_, fun other => ?_, fun other hother => ?_, ?_⟩
  · by_cases e : other = slot
    · subst e
      simp [hchanged]
    · simp [e, h.changed_iff other]
  · by_cases e : other = slot
    · subst e
      simp [hphase]
    · simp [e, h.inProgress_iff other]
  · obtain ⟨hother, hne⟩ := (howner other).mp hother
    simp [hne, h.found other hother]
  by_cases e : owner = some slot
  · subst e
    simp [restoredFlags, (h.changed_iff slot).mpr rfl, h.found slot rfl]
  have hunchanged : (server.clients slot).changedFlags = false := by
    rw [Bool.eq_false_iff]
    exact fun hc => e ((h.changed_iff slot).mp hc)
  rw [filter_owner_of_ne e, restoredFlags_of_unchanged hunchanged]
  exact h.flags

lemma Owned.setClient {client : Client}
    (hslot : ¬(server.clients slot).phase.InProgress) (hchanged : client.changedFlags = false)
    (hphase : ¬client.phase.InProgress) : Owned original owner (server.setClient slot client) := by
  have hsettled := h.settle slot client hchanged hphase server.replies
  rw [restoredFlags_of_unchanged (h.unchanged hslot), filter_owner_of_ne (h.ne_owner hslot)] at hsettled
  exact hsettled

lemma Owned.reply (slot : Nat) (error : Option Errno) :
    Owned original (owner.filter (· ≠ slot)) (server.reply slot error) := h.settle slot _ rfl id _

lemma Owned.release (slot : Nat) :
    Owned original (owner.filter (· ≠ slot)) (server.release slot) := h.settle slot _ rfl id _

omit h

lemma Owned.begin_goto (h : Owned original none server) (hblocking : original.nonblock = false) {phase : Phase}
    (hphase : phase.InProgress) : Owned original (some slot) ((server.beginNonblocking slot).goto slot phase) := by
  have hflags : server.flags = original := h.flags
  have hbegin : (server.beginNonblocking slot).goto slot phase =
      ⟨{ original with nonblock := true }, Function.update server.clients slot
        { server.clients slot with phase := phase, originalFlags := original, changedFlags := true }, server.replies⟩ := by
    simp [beginNonblocking, goto, Server.setClient, hflags, hblocking]
  rw [hbegin]
  refine ⟨fun other => ?_, fun other => ?_, fun other hother => ?_, rfl⟩
  · by_cases e : other = slot
    · subst e
      simp
    · simp [e, h.changed_iff other, Ne.symm e]
  · by_cases e : other = slot
    · subst e
      simp [hphase]
    · simp [e, h.inProgress_iff other, Ne.symm e]
  · cases hother
    simp

lemma begin_reply (hunchanged : (server.clients slot).changedFlags = false) (error : Option Errno) :
    (server.beginNonblocking slot).reply slot error =
      ⟨server.flags, Function.update server.clients slot
        { server.clients slot with phase := .send, originalFlags := server.flags, changedFlags := false },
        error :: server.replies⟩ := by
  cases hblock : server.flags.nonblock with
  | true => simp [beginNonblocking, Server.reply, restoredFlags, Server.setClient, hblock, hunchanged]
  | false => simp [beginNonblocking, Server.reply, restoredFlags, Server.setClient, hblock]

@[simp] lemma begin_originalFlags : ((server.beginNonblocking slot).clients slot).originalFlags = server.flags := by
  unfold beginNonblocking
  split <;> simp [Server.setClient]

variable (h : Owned original owner server)
include h

lemma Owned.begin_reply (hslot : ¬(server.clients slot).phase.InProgress)
    (error : Option Errno) : Owned original owner ((server.beginNonblocking slot).reply slot error) := by
  have hunchanged := h.unchanged hslot
  rw [Server.begin_reply hunchanged]
  have hsettled := h.settle slot { server.clients slot with
    phase := .send, originalFlags := server.flags, changedFlags := false } rfl id (error :: server.replies)
  rw [restoredFlags_of_unchanged hunchanged, filter_owner_of_ne (h.ne_owner hslot)] at hsettled
  exact hsettled

lemma Owned.nonblock_eq (hblocking : original.nonblock = false) : server.flags.nonblock = owner.isSome := by
  rw [h.flags]
  cases owner with
  | none => exact hblocking
  | some slot => rfl

lemma Owned.execute (hblocking : original.nonblock = false) (hslot : ¬(server.clients slot).phase.InProgress) :
    ∃ owner, Owned original owner (server.execute slot validation answer) := by
  have halone : server.flags.nonblock = false → Owned original none server := by
    intro hflag
    rw [h.nonblock_eq hblocking, isSome_eq_false_iff, isNone_iff_eq_none] at hflag
    exact hflag ▸ h
  cases validation with
  | some error => exact ⟨_, h.reply slot (some error)⟩
  | none =>
    cases hoperation : (server.clients slot).operation with
    | accept =>
      simp only [Server.execute, hoperation, acceptTcp, begin_originalFlags]
      cases answer.error with
      | none => exact ⟨_, h.begin_reply hslot _⟩
      | some error =>
        simp only
        split
        next hwaits => exact ⟨_, (halone hwaits.2).begin_goto hblocking trivial⟩
        next => exact ⟨_, h.begin_reply hslot _⟩
    | connect =>
      simp only [Server.execute, hoperation, connectTcp, begin_originalFlags]
      split
      next hwaits => exact ⟨_, (halone hwaits.2).begin_goto hblocking trivial⟩
      next => exact ⟨_, h.begin_reply hslot _⟩

lemma Owned.beginScope (hslot : ¬(server.clients slot).phase.InProgress)
    (authorizingBroker : Bool) (scope : Option Errno) :
    ∃ owner, Owned original owner (server.beginScope slot authorizingBroker scope) := by
  cases scope with
  | some error => exact ⟨_, h.reply slot (some error)⟩
  | none => exact ⟨_, h.setClient hslot (h.unchanged hslot) id⟩

lemma Owned.turn (hblocking : original.nonblock = false) (next : Turn) :
    ∃ owner, Owned original owner (server.turn agent next) := by
  have hkept : ∃ owner, Owned original owner server := ⟨owner, h⟩
  cases next with
  | admission slot =>
    simp only [Server.turn]
    split
    next hfree => exact ⟨owner, h.setClient (hfree ▸ id) rfl id⟩
    next => exact hkept
  | request slot operation scope validation answer =>
    simp only [Server.turn]
    split
    next hreceive =>
      have hslot : ¬(server.clients slot).phase.InProgress := hreceive ▸ id
      have hreceived : Owned original owner (server.receiveRequest slot operation) :=
        h.setClient hslot (h.unchanged hslot) hslot
      have hslot' : ¬((server.receiveRequest slot operation).clients slot).phase.InProgress := by
        simpa [receiveRequest, Server.setClient] using hslot
      split
      · exact hreceived.beginScope hslot' true scope
      · exact hreceived.execute hblocking hslot'
    next => exact hkept
  | invalid slot | refused slot error =>
    simp only [Server.turn]
    split
    · exact ⟨_, h.reply slot _⟩
    · exact hkept
  | authorized slot scope validation answer =>
    simp only [Server.turn]
    split
    next hphase => exact h.beginScope (hphase ▸ id) false scope
    next =>
      split
      next hphase => exact h.execute hblocking (hphase ▸ id)
      next => exact hkept
  | ready slot answer =>
    simp only [Server.turn]
    split
    next hphase =>
      unfold acceptTcp
      split
      · exact ⟨_, h.reply slot _⟩
      split
      · -- the same client waits on
        have hsame : server.goto slot .accepting = server := by
          simp [goto, Server.setClient, ← hphase]
        rw [hsame]
        exact hkept
      · exact ⟨_, h.reply slot _⟩
    · exact ⟨_, h.reply slot _⟩
    · exact hkept
  | sent slot returned =>
    simp only [Server.turn]
    split
    next hphase =>
      split
      · exact ⟨owner, h.setClient (hphase ▸ id) (h.unchanged (hphase ▸ id)) id⟩
      · exact ⟨_, h.release slot⟩
    next => exact hkept
  | release slot => exact ⟨_, h.release slot⟩

omit h

/-! ## The answers -/

def Plain (error : Option Errno) : Prop := ∀ errno, error = some errno → ¬errno.WouldBlock

def Clean (server : Server) : Prop := ∀ error ∈ server.replies, Plain error

/-- What a request needs when it is executed: the checks fail with other errors, and a call that would block does so while no
request is in progress. -/
def ExecutesPlainly (busy : Prop) (operation : Operation) (validation : Option Errno) (answer : CallAnswer) : Prop :=
  match validation, operation, answer.error with
  | some error, _, _ => ¬error.WouldBlock
  | none, .accept, none => Plain answer.setup
  | none, .accept, some error => error.WouldBlock → error.Again ∧ ¬busy
  | none, .connect, none => True
  | none, .connect, some error => error.WouldBlock → error = .EINPROGRESS ∧ ¬busy

def AcceptsPlainly (answer : CallAnswer) : Prop :=
  match answer.error with
  | none => Plain answer.setup
  | some error => error.WouldBlock → error.Again

/-- No turn answers that the request would block. -/
def Served (agent : Bool) (server : Server) : Turn → Prop
  | .request slot operation scope validation answer =>
    (server.clients slot).phase = .receive →
      if agent then Plain scope else ExecutesPlainly server.Busy operation validation answer
  | .authorized slot scope validation answer =>
    ((server.clients slot).phase = .authorizing true → Plain scope) ∧
      ((server.clients slot).phase = .authorizing false →
        ExecutesPlainly server.Busy (server.clients slot).operation validation answer)
  | .refused slot error => ∀ broker, (server.clients slot).phase = .authorizing broker → ¬error.WouldBlock
  | .ready slot answer =>
    ((server.clients slot).phase = .accepting → AcceptsPlainly answer) ∧
      ((server.clients slot).phase = .connecting → Plain answer.error)
  | _ => True

@[simp] lemma plain_none : Plain none := by
  intro errno h
  cases h

@[simp] lemma plain_some {errno : Errno} : Plain (some errno) ↔ ¬errno.WouldBlock :=
  ⟨fun h => h errno rfl, fun h _ e => some_inj.mp e ▸ h⟩

lemma clean_reply : (server.reply slot error).Clean ↔ Plain error ∧ server.Clean := List.forall_mem_cons

@[simp] lemma begin_replies : (server.beginNonblocking slot).replies = server.replies := by
  unfold beginNonblocking
  split <;> rfl

lemma clean_begin : (server.beginNonblocking slot).Clean ↔ server.Clean := by
  rw [Clean, begin_replies]
  rfl

lemma clean_beginScope {authorizingBroker : Bool} :
    (server.beginScope slot authorizingBroker scope).Clean ↔ Plain scope ∧ server.Clean := by
  cases scope with
  | some error => exact clean_reply
  | none => exact (and_iff_right plain_none).symm

lemma clean_acceptTcp {waits : Prop} (hwaits : (server.clients slot).originalFlags.nonblock = false ↔ waits) :
    (server.acceptTcp slot answer).Clean ↔
      (match answer.error with
        | none => Plain answer.setup
        | some error => error.WouldBlock → error.Again ∧ waits) ∧ server.Clean := by
  unfold acceptTcp
  cases answer.error with
  | none => exact clean_reply
  | some error =>
    simp only [← hwaits]
    split
    next h => exact (and_iff_right fun _ => h).symm
    next h =>
      rw [clean_reply, plain_some]
      exact and_congr_left fun _ => ⟨fun hblock hb => absurd hb hblock, fun himp hblock => h (himp hblock)⟩

lemma clean_connectTcp {waits : Prop} (hwaits : (server.clients slot).originalFlags.nonblock = false ↔ waits) :
    (server.connectTcp slot answer).Clean ↔
      (match answer.error with
        | none => True
        | some error => error.WouldBlock → error = .EINPROGRESS ∧ waits) ∧ server.Clean := by
  unfold connectTcp
  cases answer.error with
  | none =>
    rw [if_neg fun h => some_ne_none _ h.1.symm, clean_reply]
    exact and_congr_left fun _ => iff_true_intro plain_none
  | some error =>
    simp only [← hwaits, some_inj]
    split
    next h => exact (and_iff_right fun _ => h).symm
    next h =>
      rw [clean_reply, plain_some]
      exact and_congr_left fun _ => ⟨fun hblock hb => absurd hb hblock, fun himp hblock => h (himp hblock)⟩

lemma Owned.clean_execute (h : Owned original owner server) (hblocking : original.nonblock = false) :
    (server.execute slot validation answer).Clean ↔
      ExecutesPlainly (owner.isSome = true) (server.clients slot).operation validation answer ∧ server.Clean := by
  have hwaits : ((server.beginNonblocking slot).clients slot).originalFlags.nonblock = false ↔ ¬owner.isSome = true := by
    rw [begin_originalFlags, h.nonblock_eq hblocking, Bool.not_eq_true]
  cases validation with
  | some error =>
    rw [Server.execute, clean_reply, plain_some]
    rfl
  | none =>
    cases hoperation : (server.clients slot).operation with
    | accept =>
      simp only [Server.execute, hoperation]
      rw [clean_acceptTcp hwaits, clean_begin]
      unfold ExecutesPlainly
      cases answer.error <;> rfl
    | connect =>
      simp only [Server.execute, hoperation]
      rw [clean_connectTcp hwaits, clean_begin]
      unfold ExecutesPlainly
      cases answer.error <;> rfl

/-- A turn answers no request that it would block exactly when the turn is served. -/
lemma Owned.clean_turn (h : Owned original owner server) (hblocking : original.nonblock = false) (hclean : server.Clean)
    (next : Turn) : (server.turn agent next).Clean ↔ Served agent server next := by
  have hbusy := h.busy_iff
  cases next with
  | admission slot =>
    refine iff_of_true ?_ trivial
    simp only [Server.turn]
    split <;> exact hclean
  | request slot operation scope validation answer =>
    simp only [Server.turn, Served]
    split
    next hreceive =>
      have hslot : ¬(server.clients slot).phase.InProgress := hreceive ▸ id
      have hreceived : Owned original owner (server.receiveRequest slot operation) :=
        h.setClient hslot (h.unchanged hslot) hslot
      have hclean' : (server.receiveRequest slot operation).Clean := hclean
      have hoperation : ((server.receiveRequest slot operation).clients slot).operation = operation := by
        simp [receiveRequest, Server.setClient]
      rw [forall_prop_of_true hreceive]
      split
      · rw [clean_beginScope, and_iff_left hclean']
      · rw [hreceived.clean_execute hblocking, and_iff_left hclean', hoperation, propext hbusy]
    next hphase => exact iff_of_true hclean fun e => absurd e hphase
  | invalid slot =>
    refine iff_of_true ?_ trivial
    simp only [Server.turn]
    split
    · exact clean_reply.mpr ⟨plain_some.mpr id, hclean⟩
    · exact hclean
  | authorized slot scope validation answer =>
    simp only [Server.turn, Served]
    split
    next hphase =>
      rw [clean_beginScope, and_iff_left hclean]
      simp [hphase]
    next hbroker =>
      split
      next hphase =>
        rw [h.clean_execute hblocking, and_iff_left hclean, propext hbusy]
        simp [hphase]
      next hphase => exact iff_of_true hclean ⟨fun e => absurd e hbroker, fun e => absurd e hphase⟩
  | refused slot error =>
    simp only [Server.turn, Served]
    split
    next broker hphase =>
      rw [clean_reply, and_iff_left hclean, plain_some]
      exact ⟨fun hplain _ _ => hplain, fun hplain => hplain broker hphase⟩
    next hphase => exact iff_of_true hclean fun broker e => absurd e (hphase broker)
  | ready slot answer =>
    simp only [Server.turn, Served]
    split
    next hphase =>
      have howner : owner = some slot := (h.inProgress_iff slot).mp (hphase ▸ trivial)
      have hwaits : (server.clients slot).originalFlags.nonblock = false ↔ True := by
        rw [h.found slot howner]
        exact iff_true_intro hblocking
      rw [clean_acceptTcp hwaits, and_iff_left hclean]
      simp only [hphase, true_implies, reduceCtorEq, false_implies, and_true, AcceptsPlainly]
    next hphase =>
      rw [clean_reply, and_iff_left hclean]
      simp [hphase]
    next haccepting hconnecting => exact iff_of_true hclean ⟨fun e => absurd e haccepting, fun e => absurd e hconnecting⟩
  | sent slot returned =>
    refine iff_of_true ?_ trivial
    simp only [Server.turn]
    split
    · split <;> exact hclean
    · exact hclean
  | release slot => exact iff_of_true hclean trivial

lemma owned_initial {others : Nat} : Owned ⟨false, others⟩ none (initial others) := by
  refine ⟨fun slot => ?_, fun slot => ?_, fun slot h => ?_, rfl⟩
  · exact iff_of_false Bool.false_ne_true (some_ne_none slot).symm
  · exact iff_of_false id (some_ne_none slot).symm
  · cases h

def Transparent (original : StatusFlags) (server : Server) : Prop :=
  server.Clean ∧ (¬server.Busy → server.flags = original)

/-- On a blocking description, for every interleaving of requests: the broker never answers that a call would block, and the
flags are the original ones whenever no request is in progress, exactly when every turn is served. -/
theorem shared_requests_block_iff (agent : Bool) (others : Nat) (turns : List Turn) :
    (∀ done rest, turns = done ++ rest → Transparent ⟨false, others⟩ (run (turn agent) (initial others) done)) ↔
      StepsMeet (turn agent) (Served agent) (initial others) turns := by
  refine forall_reached_iff_of_invariant
    (J := fun server : Server => (∃ owner, Owned ⟨false, others⟩ owner server) ∧ server.Clean)
    (fun server h => ?_) (fun server next h hserved => ?_) (fun server next h hreached => ?_) ⟨⟨_, owned_initial⟩, ?_⟩
  · obtain ⟨⟨owner, howned⟩, hclean⟩ := h
    refine ⟨hclean, fun hidle => ?_⟩
    rw [howned.flags, if_neg fun hsome => hidle (howned.busy_iff.mpr hsome)]
  · obtain ⟨⟨owner, howned⟩, hclean⟩ := h
    exact ⟨howned.turn rfl next, (howned.clean_turn rfl hclean next).mpr hserved⟩
  · obtain ⟨⟨owner, howned⟩, hclean⟩ := h
    exact (howned.clean_turn rfl hclean next).mp hreached.1
  · intro error herror
    cases herror

/-- Two processes share a listener and both ask for a connection: the second one is told `EAGAIN`. -/
theorem second_accept_would_block :
    ¬Transparent ⟨false, 2⟩ (run (turn false) (initial 2)
      [.admission 0, .request 0 .accept none none ⟨some .EAGAIN, none⟩,
        .admission 1, .request 1 .accept none none ⟨some .EAGAIN, none⟩]) := by
  intro h
  exact h.1 (some .EAGAIN) (by decide +kernel) .EAGAIN rfl trivial

end Server

end PortManager.Broker
