import PortManager.Node.RouteTable

/-!
# Choosing an actual port

Embeds the routing policy (`src/core/port-routing.ts`) up to the probes: which ports are tried in which order,
and the comparison of hosts that decides whether two endpoints collide (`endpointHostMatches` of
`src/agent/port-manager-agent.ts`). `String.prototype.toLowerCase` is an argument.
-/

namespace PortManager.Node
open JsonText

/-! ## Hosts -/

variable (lower : List Nat → List Nat)

def normalizeEndpointHostKey (host : List Nat) : List Nat :=
  let trimmedHost := lower (trim host)
  if trimmedHost = [] ∨ trimmedHost = codes "*" ∨ trimmedHost = codes "0.0.0.0" ∨ trimmedHost = codes "::" ∨
      trimmedHost = codes "[::]" then codes "*"
  else if trimmedHost = codes "localhost" then codes "127.0.0.1"
  else
    let trimmedHost := if trimmedHost.head? = some 91 ∧ trimmedHost.getLast? = some 93
      then trimmedHost.tail.dropLast else trimmedHost
    if codes "::ffff:" <+: trimmedHost then trimmedHost.drop 7 else trimmedHost

def isOctetText (text : List Nat) : Bool :=
  1 ≤ text.length ∧ text.length ≤ 3 ∧ text.all fun c => 48 ≤ c && c ≤ 57

/-- `isNonDefaultLoopbackHost`: four groups of digits, the first `127`, except `127.0.0.1`. -/
def isNonDefaultLoopbackHost (host : List Nat) : Bool :=
  match host.splitOn 46 with
  | [first, second, third, fourth] =>
    first = codes "127" ∧ isOctetText second ∧ isOctetText third ∧ isOctetText fourth ∧ host ≠ codes "127.0.0.1"
  | _ => false

def endpointHostMatches (listenerHost routeHost : List Nat) : Bool :=
  let listener := normalizeEndpointHostKey lower listenerHost
  let route := normalizeEndpointHostKey lower routeHost
  if listener = codes "*" ∨ route = codes "*" then true
  else if isNonDefaultLoopbackHost route then listener = route
  else if (route = codes "127.0.0.1" ∧ listener = codes "::1") ∨ (route = codes "::1" ∧ listener = codes "127.0.0.1")
    then true
  else listener = route

/-- The comparison without the special case of network loopbacks, which the other cases contain. -/
lemma endpointHostMatches_iff (a b : List Nat) :
    endpointHostMatches lower a b = true ↔
      normalizeEndpointHostKey lower a = codes "*" ∨ normalizeEndpointHostKey lower b = codes "*" ∨
      (normalizeEndpointHostKey lower b = codes "127.0.0.1" ∧ normalizeEndpointHostKey lower a = codes "::1") ∨
      (normalizeEndpointHostKey lower b = codes "::1" ∧ normalizeEndpointHostKey lower a = codes "127.0.0.1") ∨
      normalizeEndpointHostKey lower a = normalizeEndpointHostKey lower b := by
  unfold endpointHostMatches
  generalize normalizeEndpointHostKey lower a = listener
  generalize normalizeEndpointHostKey lower b = route
  dsimp only
  split
  next hany =>
    rcases hany with h | h
    · simp [h]
    · simp [h]
  next hany =>
    obtain ⟨hlistener, hroute⟩ := not_or.mp hany
    split
    next hloopback =>
      have hdefault : route ≠ codes "127.0.0.1" := by
        rintro rfl
        cases hloopback
      have hsix : route ≠ codes "::1" := by
        rintro rfl
        cases hloopback
      simp [hlistener, hroute, hdefault, hsix]
    next =>
      split
      next hpair =>
        rcases hpair with hpair | hpair
        · simp [hpair]
        · simp [hpair]
      next hpair =>
        obtain ⟨hfour, hsix⟩ := not_or.mp hpair
        simp only [decide_eq_true_eq]
        constructor
        · exact fun h => .inr (.inr (.inr (.inr h)))
        rintro (h | h | h | h | h)
        · exact absurd h hlistener
        · exact absurd h hroute
        · exact absurd h hfour
        · exact absurd h hsix
        · exact h

lemma endpointHostMatches_comm (a b : List Nat) : endpointHostMatches lower a b = endpointHostMatches lower b a := by
  have hswap : ∀ a b, endpointHostMatches lower a b = true → endpointHostMatches lower b a = true := by
    intro a b
    rw [endpointHostMatches_iff, endpointHostMatches_iff]
    rintro (h | h | ⟨h, h'⟩ | ⟨h, h'⟩ | h)
    · exact .inr (.inl h)
    · exact .inl h
    · exact .inr (.inr (.inr (.inl ⟨h', h⟩)))
    · exact .inr (.inr (.inl ⟨h', h⟩))
    · exact .inr (.inr (.inr (.inr h.symm)))
  exact Bool.eq_iff_iff.mpr ⟨hswap a b, hswap b a⟩

/-! ## Candidates -/

inductive ScanDirection where
  | up | down | both
deriving DecidableEq

inductive PortRoutingMode where
  | nearest | hashed
deriving DecidableEq

/-- `PortRoutingRequest`; numbers are integers. -/
structure PortRoutingRequest where
  requestedPort : Nat
  host : List Nat
  scanRange : Int
  scanDirection : ScanDirection
  routingMode : Option PortRoutingMode
  routeScope : Option (List Nat)
  virtualPortRangeStart : Option Nat
  virtualPortRangeEnd : Option Nat

/-- The failures of `PortRoutingService.route`. -/
inductive PortRoutingError where
  | requestedPort (port : Nat)
  | scanRange (range : Int)
  | virtualRange (first last : Nat)
  | noneNear (port : Nat) (direction : ScanDirection) (range : Int)
  | noneHashed (port first last : Nat)
deriving DecidableEq

def isValidPort (port : Nat) : Bool := 1 ≤ port ∧ port ≤ 65535

def buildCandidatePorts (requestedPort scanRange : Nat) (scanDirection : ScanDirection) : List Nat :=
  (List.range scanRange).flatMap fun index =>
    let offset := index + 1
    (if scanDirection = .up ∨ scanDirection = .both then [requestedPort + offset].filter isValidPort else []) ++
      (if scanDirection = .down ∨ scanDirection = .both then
        -- below zero there is no valid port
        if offset ≤ requestedPort then [requestedPort - offset].filter isValidPort else []
      else [])

/-- `hashText`: FNV-1a. -/
def hashText (value : List Nat) : UInt32 :=
  value.foldl (fun hash c => (hash ^^^ UInt32.ofNat c) * 0x01000193) 0x811c9dc5

/-- `buildHashedPortCandidates` in a valid range. -/
def buildHashedPortCandidates (requestedPort : Nat) (routeScope : List Nat) (scanRange first last : Nat) : List Nat :=
  let rangeSize := last - first + 1
  let startOffset := (hashText (routeScope ++ 58 :: decimal requestedPort)).toNat % rangeSize
  (List.range (min rangeSize (scanRange + 1))).map fun offset => first + (startOffset + offset) % rangeSize

namespace PortRoutingRequest

variable (request : PortRoutingRequest)

def mode : PortRoutingMode := request.routingMode.getD .nearest

def rangeStart : Nat := request.virtualPortRangeStart.getD 53000

def rangeEnd : Nat := request.virtualPortRangeEnd.getD 59999

/-- `validateRequest` and the ports `route` checks, in order. -/
def candidates : Except PortRoutingError (List Nat) :=
  if !isValidPort request.requestedPort then .error (.requestedPort request.requestedPort)
  else if request.scanRange < 0 then .error (.scanRange request.scanRange)
  else
    match request.mode with
    | .nearest =>
      .ok (request.requestedPort ::
        buildCandidatePorts request.requestedPort request.scanRange.toNat request.scanDirection)
    | .hashed =>
      if !isValidPort request.rangeStart ∨ !isValidPort request.rangeEnd ∨ request.rangeEnd < request.rangeStart then
        .error (.virtualRange request.rangeStart request.rangeEnd)
      else
        .ok (buildHashedPortCandidates request.requestedPort (request.routeScope.getD request.host)
          request.scanRange.toNat request.rangeStart request.rangeEnd)

/-- The failure of `route` when no candidate is available. -/
def exhausted : PortRoutingError :=
  match request.mode with
  | .nearest => .noneNear request.requestedPort request.scanDirection request.scanRange
  | .hashed => .noneHashed request.requestedPort request.rangeStart request.rangeEnd

end PortRoutingRequest

end PortManager.Node
