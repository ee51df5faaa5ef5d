import PortManager.Base.JsonText
import PortManager.Base.Utf8

/-!
# The Node daemon's reading of the shared document

Embeds `sharedStateRevisionMatches` and `isSharedNetworkRegistryState` of
`src/agent/port-manager-agent.ts`. A JavaScript string is the list of its UTF-16 code units; the file
and the revision of the request arrive as UTF-8. `JSON.parse` is the reader of `Base/JsonText.lean`,
with what the language adds to the grammar: escapes are replaced, the last of several members of one
name counts, and a number is the double nearest to its literal.
-/

namespace PortManager.Node
open JsonText

/-! ## JavaScript values -/

def escaped (c : Nat) : Nat :=
  if c = 98 then 8
  else if c = 102 then 12
  else if c = 110 then 10
  else if c = 114 then 13
  else if c = 116 then 9
  else c

def hexValue (c : Nat) : Nat := if c ≤ 57 then c - 48 else if c ≤ 70 then c - 55 else c - 87

/-- The string that is spelled `raw`; `unit` holds the digits of a `\u` escape read so far. -/
def unescape : StringPlace → Nat → List Nat → List Nat
  | _, _, [] => []
  | .plain, _, c :: raw => if c = 92 then unescape .escape 0 raw else c :: unescape .plain 0 raw
  | .escape, _, c :: raw =>
    if c = 117 then unescape (.hex 3) 0 raw else escaped c :: unescape .plain 0 raw
  | .hex 0, unit, c :: raw => (unit * 16 + hexValue c) :: unescape .plain 0 raw
  | .hex (left + 1), unit, c :: raw => unescape (.hex left) (unit * 16 + hexValue c) raw

def stringValue (raw : List Nat) : List Nat := unescape .plain 0 raw

def fractionDigits : List Nat → List Nat × List Nat
  | 46 :: s => (s.takeWhile isDigit, s.dropWhile isDigit)
  | s => ([], s)

/-- The exponent of a literal: whether it is negative, and its absolute value. -/
def exponentValue : List Nat → Bool × Nat
  | _ :: 45 :: s => (true, s.foldl (fun n c => n * 10 + (c - 48)) 0)
  | _ :: 43 :: s => (false, s.foldl (fun n c => n * 10 + (c - 48)) 0)
  | _ :: s => (false, s.foldl (fun n c => n * 10 + (c - 48)) 0)
  | [] => (false, 0)

/-- Whether 1 is the double nearest to a literal. The doubles next to 1 are `1 - 2 ^ -53` and
`1 + 2 ^ -52`, and a value halfway to one of them goes to 1, whose significand is even. -/
def isOne (literal : List Nat) : Bool :=
  let int := literal.takeWhile isDigit
  let (frac, rest) := fractionDigits (literal.dropWhile isDigit)
  let (negative, exponent) := exponentValue rest
  let significand := (int ++ frac).foldl (fun n c => n * 10 + (c - 48)) 0
  let numerator := if negative then significand else significand * 10 ^ exponent
  let denominator := if negative then 10 ^ (frac.length + exponent) else 10 ^ frac.length
  literal.head? ≠ some 45 && (2 ^ 54 - 1) * denominator ≤ numerator * 2 ^ 54 &&
    numerator * 2 ^ 54 ≤ (2 ^ 54 + 2) * denominator

/-- The property of an object, `none` for `undefined`. -/
def property (members : List (List Nat × Json)) (name : List Nat) : Option Json :=
  (members.reverse.find? fun member => stringValue member.1 = name).map Prod.snd

/-- `Array.isArray(value)` -/
def isArray : Option Json → Bool
  | some (.array _) => true
  | _ => false

/-- `value === 1` -/
def strictlyOne : Option Json → Bool
  | some (.number literal) => isOne literal
  | _ => false

/-- `value === text` for a string `text`. -/
def strictlyString (text : List Nat) : Option Json → Bool
  | some (.string raw) => stringValue raw = text
  | _ => false

/-! ## The document -/

/-- TS `isSharedNetworkRegistryState`. The properties of an array are `undefined`. -/
def isSharedNetworkRegistryState : Option Json → Bool
  | some (.object members) =>
    isArray (property members (codes "networks")) && isArray (property members (codes "attachments")) &&
      isArray (property members (codes "exposures"))
  | _ => false

/-- `"version" in parsed || "revision" in parsed || "state" in parsed` -/
def isVersionedEnvelope (members : List (List Nat × Json)) : Bool :=
  (property members (codes "version")).isSome || (property members (codes "revision")).isSome ||
    (property members (codes "state")).isSome

/-- What TS `sharedStateRevisionMatches` returns for a parsed document. The operator `in` throws for
values that are no objects, and no array has the three arrays of a registry. -/
def documentMatches (revision : List Nat) : Option Json → Bool
  | some (.object members) =>
    (revision ≠ codes "legacy" && strictlyOne (property members (codes "version")) &&
      strictlyString revision (property members (codes "revision")) &&
      isSharedNetworkRegistryState (property members (codes "state"))) ||
    (revision = codes "legacy" && !isVersionedEnvelope members &&
      isSharedNetworkRegistryState (some (.object members)))
  | _ => false

end PortManager.Node
