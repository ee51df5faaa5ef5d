import PortManager.Base.CText

/-!
# The first bytes of a browser connection

Embeds `sniffBrowserProxyConnection` of `platform/ports/browser-network-proxy-transport.ts`: it reads from the client until the
bytes say who serves the connection, and gives them back. Which handler is called depends on the bytes, however they are divided,
and on whether the backend greets before the first of them is read (`sniff_dispatches`).
-/

namespace PortManager.Browser
open List CText

def HTTP_METHOD_PREFIXES : List Text :=
  ["GET ", "HEAD ", "POST ", "PUT ", "DELETE ", "OPTIONS ", "PATCH ", "CONNECT ", "TRACE "].map ascii

def MAX_SNIFF_BYTES : Nat := (HTTP_METHOD_PREFIXES.map length).foldl max 0

inductive Handler where
  | http
  | tls
  | raw
  | forward
deriving DecidableEq

/-- What the socket has to read, the variables of the function (`sniffed` is its `prefix`), whether its listeners are on and its
sniff timer runs, the handlers called and the argument of the raw one. -/
structure Sniffer where
  readable : Text := []
  sniffed : Text := []
  listening : Bool := true
  aborted : Bool := false
  armed : Bool := false
  dispatched : Bool := false
  destroyed : Bool := false
  handlers : List Handler := []
  head : Text := []
deriving DecidableEq

inductive Event where
  /-- The socket is readable, and the bytes are new. -/
  | segment (bytes : Text)
  /-- The probe, which begins while nothing is read, sees the backend's first bytes and brings the handler `forward`. -/
  | greeting

/-- What comes behind the segments. -/
inductive Ending where
  | still
  | finished
  | timeout
  | close

/-- The handler that the bytes call for, if they are enough to say. -/
def sniffedHandler (hasTls : Bool) (bytes : Text) : Option Handler :=
  if bytes.head? = some 0x16 ∧ hasTls = true then some .tls
  else if HTTP_METHOD_PREFIXES.any (·.isPrefixOf bytes) then some .http
  else if HTTP_METHOD_PREFIXES.any bytes.isPrefixOf then none
  else some .raw

namespace Sniffer

variable (socket : Sniffer)

def cleanup : Sniffer := { socket with listening := false, aborted := true, armed := false }

/-- The prefix goes back to the socket, unless the handler is the raw one. -/
def dispatch (handler : Handler) : Sniffer :=
  if socket.dispatched || socket.destroyed then socket
  else
    let socket := { socket.cleanup with dispatched := true, handlers := socket.handlers ++ [handler] }
    if handler = .raw then { socket with head := socket.sniffed }
    else { socket with readable := socket.sniffed ++ socket.readable }

def onReadable (hasTls : Bool) : Sniffer :=
  let count := min socket.readable.length (MAX_SNIFF_BYTES - socket.sniffed.length)
  if count = 0 then socket
  else
    let socket := { socket with
      aborted := true, sniffed := socket.sniffed ++ socket.readable.take count, readable := socket.readable.drop count }
    match sniffedHandler hasTls socket.sniffed with
    | some handler => socket.dispatch handler
    | none => { socket with armed := true }

def onEnd : Sniffer :=
  if socket.sniffed ≠ [] then socket.dispatch .raw else { socket.cleanup with destroyed := true }

def step (hasTls : Bool) (socket : Sniffer) : Event → Sniffer
  | .segment bytes =>
    let socket := { socket with readable := socket.readable ++ bytes }
    if socket.listening then socket.onReadable hasTls else socket
  | .greeting => if socket.aborted || socket.destroyed then socket else socket.dispatch .forward

def finish (socket : Sniffer) : Ending → Sniffer
  | .still => socket
  | .finished => if socket.listening then socket.onEnd else socket
  | .timeout => if socket.armed then socket.dispatch .raw else socket
  | .close => { socket.cleanup with destroyed := true }

end Sniffer

def sniffBrowserProxyConnection (hasTls : Bool) (events : List Event) (ending : Ending) : Sniffer :=
  (events.foldl (Sniffer.step hasTls) {}).finish ending

/-! ## The bytes decide -/

variable {hasTls : Bool} {bytes more : Text} {handler : Handler}

lemma sniffedHandler_eq_none (h : sniffedHandler hasTls bytes = none) : bytes.length < MAX_SNIFF_BYTES := by
  simp only [sniffedHandler] at h
  split at h <;> try cases h
  split at h <;> try cases h
  next hmethod =>
  split at h <;> try cases h
  next hpartial =>
  obtain ⟨method, hmem, hle⟩ := any_eq_true.mp hpartial
  have hbound : ∀ method ∈ HTTP_METHOD_PREFIXES, method.length ≤ MAX_SNIFF_BYTES := by decide
  rw [ isPrefixOf_iff_prefix] at hle
  refine lt_of_le_of_ne (hle.length_le.trans (hbound method hmem)) fun heq => hmethod (any_eq_true.mpr ⟨method, hmem, ?_⟩)
  rw [hle.eq_of_length_le (heq ▸ hbound method hmem)]
  exact isPrefixOf_iff_prefix.mpr prefix_rfl

/-- More bytes do not change what the first ones say. -/
lemma sniffedHandler_append (h : sniffedHandler hasTls bytes = some handler) :
    sniffedHandler hasTls (bytes ++ more) = some handler := by
  have hne : bytes ≠ [] := by
    rintro rfl
    cases h
  have hhead : (bytes ++ more).head? = bytes.head? := head?_append_of_ne_nil _ hne
  simp only [sniffedHandler, hhead, any_eq_true, isPrefixOf_iff_prefix] at h ⊢
  split at h
  next htls => rwa [if_pos htls]
  next htls =>
  rw [if_neg htls]
  split at h
  next hmethod =>
    obtain ⟨method, hmem, hle⟩ := hmethod
    rwa [if_pos ⟨method, hmem, hle.trans ( prefix_append _ _)⟩]
  next hmethod =>
  split at h
  next => cases h
  next hpartial =>
    have hno : ¬∃ method ∈ HTTP_METHOD_PREFIXES, method <+: bytes ++ more := by
      rintro ⟨method, hmem, hle⟩
      rcases prefix_or_prefix_of_prefix hle ( prefix_append bytes more) with hle | hle
      · exact hmethod ⟨method, hmem, hle⟩
      · exact hpartial ⟨method, hmem, hle⟩
    have hnone : ¬∃ method ∈ HTTP_METHOD_PREFIXES, bytes ++ more <+: method :=
      fun ⟨method, hmem, hle⟩ => hpartial ⟨method, hmem, ( prefix_append bytes more).trans hle⟩
    rwa [if_neg hno, if_neg hnone]

/-! ## Every division of the bytes -/

/-- The client's bytes. -/
def received : List Event → Text
  | [] => []
  | .segment bytes :: events => bytes ++ received events
  | .greeting :: events => received events

/-- The backend greets before the client's first byte is read. -/
def greetsFirst : List Event → Bool
  | [] => false
  | .greeting :: _ => true
  | .segment bytes :: events => bytes = [] && greetsFirst events

lemma received_append (events rest : List Event) : received (events ++ rest) = received events ++ received rest := by
  induction events with
  | nil => rfl
  | cons event events ih => cases event <;> simp [received, ih]

lemma greetsFirst_append (events rest : List Event) :
    greetsFirst (events ++ rest) = (greetsFirst events || received events = [] && greetsFirst rest) := by
  induction events with
  | nil => rfl
  | cons event events ih => cases event <;> simp [greetsFirst, received, ih, Bool.and_or_distrib_left, Bool.and_assoc]

def handlerFor (hasTls : Bool) (events : List Event) : Option Handler :=
  if greetsFirst events then some .forward else sniffedHandler hasTls (received events)

lemma handlerFor_append {events : List Event} (h : handlerFor hasTls events = some handler) (rest : List Event) :
    handlerFor hasTls (events ++ rest) = some handler := by
  unfold handlerFor at h ⊢
  rw [greetsFirst_append, received_append]
  split at h
  next hgreets => rw [if_pos (by rw [hgreets, Bool.true_or]), h]
  next hgreets =>
    have hne : received events ≠ [] := by
      intro hnil
      rw [hnil] at h
      cases h
    rw [if_neg (by simp [hgreets, hne]), sniffedHandler_append h]

namespace Sniffer

/-- Nothing is dispatched yet: all bytes are read. -/
def waiting (bytes : Text) : Sniffer := { sniffed := bytes, aborted := bytes ≠ [], armed := bytes ≠ [] }

/-- The handler is called, and no byte is lost. -/
structure Served (handler : Handler) (bytes : Text) (socket : Sniffer) : Prop where
  listening : socket.listening = false
  aborted : socket.aborted = true
  armed : socket.armed = false
  handlers : socket.handlers = [handler]
  bytes : socket.head ++ socket.readable = bytes

lemma served_dispatch (handler : Handler) (readable sniffed : Text) (aborted armed : Bool) :
    (dispatch { readable, sniffed, aborted, armed } handler).Served handler (sniffed ++ readable) := by
  unfold dispatch
  split
  next hdone => cases hdone
  · dsimp only
    split <;> exact ⟨rfl, rfl, rfl, rfl, rfl⟩

/-- The socket waits for more bytes, or is served by the handler they call for. -/
def Follows (handler : Option Handler) (bytes : Text) (socket : Sniffer) : Prop :=
  handler = none ∧ socket = waiting bytes ∨ ∃ called, handler = some called ∧ socket.Served called bytes

lemma follows_segment (h : sniffedHandler hasTls bytes = none) :
    Follows (sniffedHandler hasTls (bytes ++ more)) (bytes ++ more) ((waiting bytes).step hasTls (.segment more)) := by
  have hlength := sniffedHandler_eq_none h
  have hread (count : Nat) : bytes ++ more.take count ++ more.drop count = bytes ++ more := by
    rw [append_assoc, take_append_drop]
  show Follows _ _ ({ waiting bytes with readable := more }.onReadable hasTls)
  unfold onReadable
  dsimp only [waiting]
  split
  next hcount =>
    have hmore : more = [] := by
      rw [← length_eq_zero_iff]
      omega
    rw [hmore, append_nil]
    exact .inl ⟨h, rfl⟩
  next hcount =>
  split
  next handler hsome =>
    rw [← hread, sniffedHandler_append hsome]
    exact .inr ⟨handler, rfl, served_dispatch ..⟩
  next hnone =>
    have hall : min more.length (MAX_SNIFF_BYTES - bytes.length) = more.length := by
      have hshort := sniffedHandler_eq_none hnone
      simp only [length_append, length_take] at hshort
      omega
    simp only [hall, take_length, drop_length] at hnone hcount ⊢
    refine .inl ⟨hnone, ?_⟩
    simp [waiting, length_eq_zero_iff.not.mp hcount]

lemma follows_step {events : List Event} {socket : Sniffer} (h : Follows (handlerFor hasTls events) (received events) socket)
    (event : Event) :
    Follows (handlerFor hasTls (events ++ [event])) (received (events ++ [event])) (socket.step hasTls event) := by
  rcases h with ⟨hnone, rfl⟩ | ⟨handler, hsome, h⟩
  · have hgreets : ¬greetsFirst events = true := by
      intro hgreets
      rw [handlerFor, if_pos hgreets] at hnone
      cases hnone
    rw [handlerFor, if_neg hgreets] at hnone
    rw [handlerFor, greetsFirst_append, received_append, Bool.eq_false_of_not_eq_true hgreets, Bool.false_or]
    cases event with
    | segment more =>
      simp only [greetsFirst, Bool.and_false, Bool.false_eq_true, if_false, received, append_nil]
      exact follows_segment hnone
    | greeting =>
      simp only [greetsFirst, Bool.and_true, decide_eq_true_eq, received, append_nil]
      split
      next hnil =>
        rw [hnil]
        exact .inr ⟨_, rfl, served_dispatch .forward [] [] false false⟩
      next hne => exact .inl ⟨hnone, by simp [step, waiting, hne]⟩
  · refine .inr ⟨handler, handlerFor_append hsome _, ?_⟩
    rw [received_append]
    cases event with
    | segment more =>
      rw [show socket.step hasTls (.segment more) = { socket with readable := socket.readable ++ more } by simp [step, h.listening]]
      exact { h with bytes := by rw [← append_assoc, h.bytes, received, received, append_nil] }
    | greeting => simpa [step, h.aborted, received] using h

lemma follows_run (events : List Event) :
    Follows (handlerFor hasTls events) (received events) (events.foldl (step hasTls) {}) := by
  induction events using reverseRecOn with
  | nil => exact .inl ⟨rfl, rfl⟩
  | append_singleton events event ih =>
    rw [foldl_append]
    exact follows_step ih event

/-- A socket in the end: at most one handler was called, and every byte of the client is with it, with the sniffer or unread. -/
def Ends (handler : Option Handler) (bytes : Text) (socket : Sniffer) : Prop :=
  socket.handlers = handler.toList ∧ socket.handlers.length ≤ 1 ∧
    socket.head ++ (if socket.handlers = [] then socket.sniffed else []) ++ socket.readable = bytes

lemma Served.ends {socket : Sniffer} (h : socket.Served handler bytes) : Ends (some handler) bytes socket := by
  refine ⟨h.handlers, by rw [h.handlers]; rfl, ?_⟩
  rw [h.handlers, if_neg (cons_ne_nil _ _), append_nil, h.bytes]

end Sniffer

/-- The handler that is called in the end. A stream that ends, or stops for too long, before it says more goes to the raw one. -/
def handlerAtEnd (hasTls : Bool) (events : List Event) : Ending → Option Handler
  | .finished | .timeout => (handlerFor hasTls events).or (if received events = [] then none else some .raw)
  | .still | .close => handlerFor hasTls events

open Sniffer in
/-- At most one handler is called, for every division of the bytes the same one, and no byte is lost. -/
theorem sniff_dispatches (hasTls : Bool) (events : List Event) (ending : Ending) :
    (sniffBrowserProxyConnection hasTls events ending).Ends (handlerAtEnd hasTls events ending) (received events) := by
  have hrun : Follows (handlerFor hasTls events) _ _ := follows_run events
  unfold sniffBrowserProxyConnection
  generalize events.foldl (step hasTls) {} = socket at hrun ⊢
  rcases hrun with ⟨hnone, rfl⟩ | ⟨handler, hsome, h⟩
  · have hraw := (served_dispatch .raw [] (received events) true true).ends
    cases ending with
    | still | close => simp [Ends, finish, waiting, handlerAtEnd, hnone, cleanup]
    | finished | timeout =>
      by_cases hnil : received events = []
      · simp [Ends, finish, onEnd, waiting, handlerAtEnd, hnone, hnil, cleanup]
      · simpa [finish, onEnd, waiting, handlerAtEnd, hnone, hnil] using hraw
  · have hend : handlerAtEnd hasTls events ending = some handler := by
      cases ending <;> simp [handlerAtEnd, hsome]
    rw [hend]
    refine Served.ends ?_
    cases ending with
    | still => exact h
    | finished => simpa [finish, h.listening] using h
    | timeout => simpa [finish, h.armed] using h
    | close => exact ⟨rfl, rfl, rfl, h.handlers, h.bytes⟩

/-- A greeting changes the handler, with the same bytes. -/
theorem sniff_greeted :
    (sniffBrowserProxyConnection false [.segment (ascii "GET / ")] .still).handlers = [.http] ∧
      (sniffBrowserProxyConnection false [.greeting, .segment (ascii "GET / ")] .still).handlers = [.forward] := by
  decide

end PortManager.Browser
