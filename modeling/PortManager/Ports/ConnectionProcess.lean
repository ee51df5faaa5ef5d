import PortManager.Node.BrowserDnsServer

/-!
# The process at the other end of a connection

Embeds `parseClientProcessFromLsof` of `platform/ports/tcp-connection-process-resolver.ts` with the functions it calls:
`parseLsofTcpConnection`, `parseEndpoint`, `isClientSideConnection`, `parsePositiveInteger` and `isTcpPort`. A text is the
list of its UTF-16 units.

The output of `lsof -Fpcn` has a line `p` for each process, followed by a line `n` for each of its sockets. Over that view of
the output (`sockets`) the loop is a search (`parseClientProcessFromLsof_eq`), and what it compares is the two ports only.
-/

namespace PortManager.Ports
open Node

/-- `LogicalPortRouterConnection`, the fields that identify the peer. -/
structure RouterConnection where
  localAddress : Option (List Nat)
  localPort : Option Nat
  remoteAddress : Option (List Nat)
  remotePort : Option Nat

structure ParsedConnectionEndpoint where
  address : List Nat
  port : Nat
deriving DecidableEq

structure ParsedConnection where
  localEnd : ParsedConnectionEndpoint
  remoteEnd : ParsedConnectionEndpoint
deriving DecidableEq

structure TcpConnectionProcess where
  pid : Nat
  processName : Option (List Nat)
deriving DecidableEq

variable (value : List Nat)

def parsePositiveInteger : Option Nat :=
  (parseInt value).bind fun n => if 0 < n then some n.toNat else none

/-- `Number.parseInt` with `isTcpPort` of the result. -/
def parsePort (portText : List Nat) : Option Nat :=
  (parseInt portText).bind fun n => if 1 ≤ n ∧ n ≤ 65535 then some n.toNat else none

/-- What stands before and after the first place where the two units follow each other. -/
def splitAtPair (first second : Nat) : List Nat → Option (List Nat × List Nat)
  | a :: b :: rest =>
    if a = first ∧ b = second then some ([], rest)
    else (splitAtPair first second (b :: rest)).map fun parts => (a :: parts.1, parts.2)
  | _ => none

variable (text : List Nat)

/-- What stands before and after the last colon. -/
def splitAtLastColon : Option (List Nat × List Nat) :=
  if 58 ∈ text then
    let portText := text.reverse.takeWhile (· ≠ 58)
    some (text.take (text.length - portText.length - 1), portText.reverse)
  else none

def parseEndpoint : Option ParsedConnectionEndpoint :=
  let trimmed := trim value
  let parts :=
    if trimmed.head? = some 91 then (splitAtPair 93 58 trimmed).map fun parts => (parts.1.drop 1, parts.2)
    else splitAtLastColon trimmed
  parts.bind fun parts => (parsePort parts.2).map (⟨parts.1, ·⟩)

/-- `.replace(/^TCP\s+/i, "")` -/
def dropTcp : List Nat :=
  match text with
  | t :: c :: p :: space :: rest =>
    if (t = 84 ∨ t = 116) ∧ (c = 67 ∨ c = 99) ∧ (p = 80 ∨ p = 112) ∧ isSpaceUnit space then rest.dropWhile isSpaceUnit
    else text
  | _ => text

/-- `/^\(.+\)$/`: `.` is no line terminator. -/
def isParenthesized : Bool :=
  match text with
  | 40 :: inner =>
    inner.getLast? = some 41 && inner.dropLast ≠ [] &&
      inner.dropLast.all fun c => !(c = 10 || c = 13 || c = 0x2028 || c = 0x2029)
  | _ => false

/-- `.replace(/\s+\(.+\)$/, "")`: the first match is the longest. -/
def dropState : List Nat → List Nat
  | [] => []
  | c :: rest =>
    if isSpaceUnit c && isParenthesized (rest.dropWhile isSpaceUnit) then [] else c :: dropState rest

def parseLsofTcpConnection : Option ParsedConnection :=
  (splitAtPair 45 62 (dropState (dropTcp (trim value)))).bind fun ends =>
    (parseEndpoint ends.1).bind fun localEnd => (parseEndpoint ends.2).map (⟨localEnd, ·⟩)

variable (connection : RouterConnection)

/-- `isClientSideConnection`. -/
def isClientSideConnection (parsed : ParsedConnection) : Bool :=
  some parsed.localEnd.port = connection.remotePort && some parsed.remoteEnd.port = connection.localPort

variable (output : List Nat)

/-- The lines that are not empty. `split(/\r?\n/)` also takes a carriage return before the line feed, which `trim` removes. -/
def trimmedLines : List (List Nat) := ((output.splitOn 10).map trim).filter (· ≠ [])

/-- The loop, with the current process. -/
def findClientProcess (connection : RouterConnection) :
    Option Nat → Option (List Nat) → List (List Nat) → Option TcpConnectionProcess
  | _, _, [] => none
  | pid, processName, line :: lines =>
    match line with
    | 112 :: value => findClientProcess connection (parsePositiveInteger value) none lines
    | 99 :: value => findClientProcess connection pid (if value = [] then none else some value) lines
    | 110 :: value =>
      match pid, parseLsofTcpConnection value with
      | some number, some parsed =>
        if isClientSideConnection connection parsed then some ⟨number, processName⟩
        else findClientProcess connection pid processName lines
      | _, _ => findClientProcess connection pid processName lines
    | _ => findClientProcess connection pid processName lines

def parseClientProcessFromLsof (connection : RouterConnection) : Option TcpConnectionProcess :=
  findClientProcess connection none none (trimmedLines output)

/-! ## The sockets an output lists -/

/-- The sockets under their processes, from a place of the output on where a process is current. -/
def socketsFrom : Option Nat → Option (List Nat) → List (List Nat) → List (TcpConnectionProcess × ParsedConnection)
  | _, _, [] => []
  | pid, processName, line :: lines =>
    match line with
    | 112 :: value => socketsFrom (parsePositiveInteger value) none lines
    | 99 :: value => socketsFrom pid (if value = [] then none else some value) lines
    | 110 :: value =>
      let socket := pid.bind fun number => (parseLsofTcpConnection value).map ((⟨number, processName⟩ : TcpConnectionProcess), ·)
      socket.toList ++ socketsFrom pid processName lines
    | _ => socketsFrom pid processName lines

def sockets : List (TcpConnectionProcess × ParsedConnection) :=
  socketsFrom none none (trimmedLines output)

def IsPeer (parsed : ParsedConnection) : Prop :=
  some parsed.localEnd.address = connection.remoteAddress ∧ some parsed.localEnd.port = connection.remotePort ∧
    some parsed.remoteEnd.address = connection.localAddress ∧ some parsed.remoteEnd.port = connection.localPort

instance decidableIsPeer (connection : RouterConnection) (parsed : ParsedConnection) :
    Decidable (IsPeer connection parsed) := inferInstanceAs (Decidable (_ ∧ _ ∧ _ ∧ _))

variable {connection : RouterConnection} {output : List Nat}

lemma findClientProcess_eq (pid : Option Nat) (processName : Option (List Nat)) (lines : List (List Nat)) :
    findClientProcess connection pid processName lines =
      ((socketsFrom pid processName lines).find? fun socket => isClientSideConnection connection socket.2).map (·.1) := by
  induction lines generalizing pid processName with
  | nil => rfl
  | cons line lines ih =>
    unfold findClientProcess socketsFrom
    split
    next value => exact ih _ _
    next value => exact ih _ _
    next value =>
      cases pid with
      | none => exact ih none processName
      | some number =>
        cases hparsed : parseLsofTcpConnection value with
        | none => simpa using ih (some number) processName
        | some parsed =>
          cases hside : isClientSideConnection connection parsed with
          | true => simp [hside]
          | false => simpa [hside] using ih (some number) processName
    next => exact ih _ _

lemma parseClientProcessFromLsof_eq :
    parseClientProcessFromLsof output connection =
      ((sockets output).find? fun socket => isClientSideConnection connection socket.2).map (·.1) :=
  findClientProcess_eq none none _

/-- The process that is returned has the other end of the connection exactly when the process of the first socket with the
ports of the connection has it. -/
theorem returned_process_has_peer_iff (output : List Nat) (connection : RouterConnection) :
    (∀ process, parseClientProcessFromLsof output connection = some process →
      ∃ socket ∈ sockets output, socket.1.pid = process.pid ∧ IsPeer connection socket.2) ↔
    (∀ before socket after, sockets output = before ++ socket :: after →
      (∀ earlier ∈ before, isClientSideConnection connection earlier.2 = false) →
      isClientSideConnection connection socket.2 = true →
      ∃ peer ∈ sockets output, peer.1.pid = socket.1.pid ∧ IsPeer connection peer.2) := by
  constructor
  · intro h before socket after hsockets hbefore hsocket
    refine h socket.1 ?_
    rw [parseClientProcessFromLsof_eq, hsockets, List.find?_append]
    have hnone : before.find? (fun socket => isClientSideConnection connection socket.2) = none := by
      rw [List.find?_eq_none]
      intro earlier hearlier
      simp [hbefore earlier hearlier]
    simp [hnone, hsocket]
  · intro h process hprocess
    rw [parseClientProcessFromLsof_eq, Option.map_eq_some_iff] at hprocess
    obtain ⟨socket, hfind, rfl⟩ := hprocess
    obtain ⟨hsocket, before, after, hsockets, hbefore⟩ := List.find?_eq_some_iff_append.mp hfind
    refine h before socket after hsockets (fun earlier hearlier => ?_) hsocket
    simpa using hbefore earlier hearlier

/-- Another process talks from the same port to the same port of another machine. -/
theorem other_address_returned :
    (let output := JsonText.codes
        "p41\ncnode\nn10.0.0.5:50000->93.184.216.34:3000\np42\ncChrome\nn127.0.0.1:50000->127.0.0.1:3000 (ESTABLISHED)\n"
    let loopback := some (JsonText.codes "127.0.0.1")
    let connection : RouterConnection := ⟨loopback, some 3000, loopback, some 50000⟩
    parseClientProcessFromLsof output connection = some ⟨41, some (JsonText.codes "node")⟩ ∧
      ∀ socket ∈ sockets output, socket.1.pid = 41 → ¬IsPeer connection socket.2) := by
  decide +kernel

end PortManager.Ports
