import Mathlib

/-!
# JSON texts

A strict reader of the JSON grammar over lists of character codes, which are octets or UTF-16 code
units. Strings and member names are kept as they are spelled between their quotes, numbers as their
literals, and members in the order of the text: what a program makes of escapes, of number values and
of repeated names is its own.

The loops take fuel, of which one unit for each character and one more is enough. A reader may limit
the length of member names.
-/

namespace JsonText

inductive Json where
  | null
  | bool (value : Bool)
  | number (literal : List Nat)
  | string (raw : List Nat)
  | array (items : List Json)
  | object (members : List (List Nat × Json))

inductive Parsed (α : Type) where
  | ok (value : α) (rest : List Nat)
  | fail

def Parsed.bind {α β : Type} (parsed : Parsed α) (next : α → List Nat → Parsed β) : Parsed β :=
  match parsed with
  | .ok value rest => next value rest
  | .fail => .fail

@[simp] lemma Parsed.bind_ok {α β : Type} (next : α → List Nat → Parsed β) (value : α)
    (rest : List Nat) : (Parsed.ok value rest).bind next = next value rest := rfl

def Parsed.map {α β : Type} (f : α → β) (parsed : Parsed α) : Parsed β :=
  parsed.bind fun value rest => .ok (f value) rest

/-! ## Characters -/

def isSpace (c : Nat) : Bool := c == 9 || c == 10 || c == 13 || c == 32

def isDigit (c : Nat) : Bool := 48 ≤ c && c ≤ 57

def isHexDigit (c : Nat) : Bool := isDigit c || (65 ≤ c && c ≤ 70) || (97 ≤ c && c ≤ 102)

/-- The characters that may follow a backslash, `u` apart. -/
def isEscape (c : Nat) : Bool :=
  c == 34 || c == 92 || c == 47 || c == 98 || c == 102 || c == 110 || c == 114 || c == 116

def skipSpace (s : List Nat) : List Nat := s.dropWhile isSpace

/-! ## Strings and numbers -/

/-- Where a reader stands in a string: between characters, behind a backslash, or with `left + 1`
digits of a `\u` escape to come. -/
inductive StringPlace where
  | plain
  | escape
  | hex (left : Nat)

def StringPlace.afterDigit : Nat → StringPlace
  | 0 => .plain
  | left + 1 => .hex left

/-- The rest of a string, up to its closing quote. -/
def stringBody : StringPlace → List Nat → Parsed (List Nat)
  | _, [] => .fail
  | .plain, c :: s =>
    if c = 34 then .ok [] s
    else if c < 32 then .fail
    else if c = 92 then (stringBody .escape s).map (c :: ·)
    else (stringBody .plain s).map (c :: ·)
  | .escape, c :: s =>
    if isEscape c then (stringBody .plain s).map (c :: ·)
    else if c = 117 then (stringBody (.hex 3) s).map (c :: ·)
    else .fail
  | .hex left, c :: s =>
    if isHexDigit c then (stringBody (.afterDigit left) s).map (c :: ·) else .fail

/-- The spelling of a string with one character for each escape, the one behind the backslash. -/
def unquote : StringPlace → List Nat → List Nat
  | _, [] => []
  | .plain, c :: raw => if c = 92 then unquote .escape raw else c :: unquote .plain raw
  | .escape, c :: raw => c :: unquote (if isEscape c then .plain else .hex 3) raw
  | .hex left, _ :: raw => unquote (.afterDigit left) raw

def digits : List Nat → Parsed (List Nat)
  | [] => .fail
  | c :: s =>
    if isDigit c then .ok (c :: s.takeWhile isDigit) (s.dropWhile isDigit) else .fail

/-- The integer part of a number, which has no leading zero. -/
def integer : List Nat → Parsed (List Nat)
  | [] => .fail
  | c :: s => if c = 48 then .ok [c] s else digits (c :: s)

def fraction : List Nat → Parsed (List Nat)
  | [] => .ok [] []
  | c :: s => if c = 46 then (digits s).map (c :: ·) else .ok [] (c :: s)

/-- The digits of an exponent with their sign. -/
def signedDigits : List Nat → Parsed (List Nat)
  | [] => .fail
  | c :: s => if c = 43 ∨ c = 45 then (digits s).map (c :: ·) else digits (c :: s)

def exponent : List Nat → Parsed (List Nat)
  | [] => .ok [] []
  | c :: s => if c = 101 ∨ c = 69 then (signedDigits s).map (c :: ·) else .ok [] (c :: s)

def unsigned (s : List Nat) : Parsed (List Nat) :=
  (integer s).bind fun int s =>
    (fraction s).bind fun frac s => (exponent s).map fun exp => int ++ frac ++ exp

def number : List Nat → Parsed (List Nat)
  | [] => .fail
  | c :: s => if c = 45 then (unsigned s).map (c :: ·) else unsigned (c :: s)

/-! ## Values -/

def codes (word : String) : List Nat := word.toList.map Char.toNat

/-- Words and numbers. -/
def scalar (s : List Nat) : Parsed Json :=
  if (codes "true").isPrefixOf s then .ok (.bool true) (s.drop 4)
  else if (codes "false").isPrefixOf s then .ok (.bool false) (s.drop 5)
  else if (codes "null").isPrefixOf s then .ok .null (s.drop 4)
  else (number s).map .number

def expect (c : Nat) : List Nat → Parsed Unit
  | [] => .fail
  | d :: s => if d = c then .ok () s else .fail

/-- What follows an item: the end of the list, or a comma and the next one. -/
def next {α : Type} (close : Nat) (finished : α) (again : List Nat → Parsed α) (s : List Nat) : Parsed α :=
  match skipSpace s with
  | [] => .fail
  | c :: s =>
    if c = close then .ok finished s
    else (expect 44 (c :: s)).bind fun _ s => again (skipSpace s)

/-- The inside of an array or object, behind its opening bracket. -/
def inside {α : Type} (close : Nat) (empty : α) (loop : List Nat → Parsed α) (s : List Nat) : Parsed α :=
  match skipSpace s with
  | [] => .fail
  | c :: s => if c = close then .ok empty s else loop (c :: s)

variable (limit : Option Nat)

/-- Whether a name is longer than the reader allows. -/
def tooLong (raw : List Nat) : Bool :=
  limit.any (· ≤ (unquote .plain raw).length)

/-- A member name with its colon, and the space around both. -/
def name (s : List Nat) : Parsed (List Nat) :=
  (expect 34 s).bind fun _ s =>
    (stringBody .plain s).bind fun raw s =>
      if tooLong limit raw then .fail
      else (expect 58 (skipSpace s)).bind fun _ s => .ok raw (skipSpace s)

/-- A value, with readers for the items of an array and the members of an object. -/
def valueWith (elements : List Nat → Parsed (List Json))
    (members : List Nat → Parsed (List (List Nat × Json))) (s : List Nat) : Parsed Json :=
  match skipSpace s with
  | [] => .fail
  | c :: s =>
    if c = 34 then (stringBody .plain s).map .string
    else if c = 123 then (inside 125 [] members s).map .object
    else if c = 91 then (inside 93 [] elements s).map .array
    else scalar (c :: s)

mutual

/-- The items of an array, of which there is at least one. -/
def elements (limit : Option Nat) : Nat → List Nat → Parsed (List Json)
  | 0, _ => .fail
  | fuel + 1, s =>
    (valueWith (elements limit fuel) (members limit fuel) s).bind fun value s =>
      next 93 [value] (fun s => (elements limit fuel s).map (value :: ·)) s

def members (limit : Option Nat) : Nat → List Nat → Parsed (List (List Nat × Json))
  | 0, _ => .fail
  | fuel + 1, s =>
    (name limit s).bind fun raw s =>
      (valueWith (elements limit fuel) (members limit fuel) s).bind fun value s =>
        next 125 [(raw, value)] (fun s => (members limit fuel s).map ((raw, value) :: ·)) s

end

def value (fuel : Nat) (s : List Nat) : Parsed Json :=
  valueWith (elements limit fuel) (members limit fuel) s

def document (fuel : Nat) (s : List Nat) : Option Json :=
  match value limit fuel s with
  | .fail => none
  | .ok json rest => if skipSpace rest = [] then some json else none

/-! ## Strings and names -/

mutual

def Json.mapStrings (f : List Nat → List Nat) : Json → Json
  | .null => .null
  | .bool value => .bool value
  | .number literal => .number literal
  | .string raw => .string (f raw)
  | .array items => .array (mapStringsItems f items)
  | .object members => .object (mapStringsMembers f members)
termination_by structural json => json

def Json.mapStringsItems (f : List Nat → List Nat) : List Json → List Json
  | [] => []
  | json :: items => json.mapStrings f :: mapStringsItems f items
termination_by structural items => items

def Json.mapStringsMembers (f : List Nat → List Nat) :
    List (List Nat × Json) → List (List Nat × Json)
  | [] => []
  | member :: members => mapStringsMember f member :: mapStringsMembers f members
termination_by structural members => members

def Json.mapStringsMember (f : List Nat → List Nat) : List Nat × Json → List Nat × Json
  | (raw, json) => (f raw, json.mapStrings f)
termination_by structural member => member

end

end JsonText
