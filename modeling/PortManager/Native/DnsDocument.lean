import PortManager.Base.Cursor
import PortManager.Base.JsonText
import PortManager.Native.Json

/-!
# The shared document's cursor

Embeds the JSON cursor of `native/agent/portmanager_agent_dns.c`, with which the daemon decides
whether a shared document authorizes a browser DNS update (`pm_dns_document_authorizes`). The
functions walk the memory object of the document (`Base/Cursor.lean`); the loops take fuel,
and `dnsDocumentAuthorizes` gives them more than the object can use up.

Every function takes the flag `guarded`. The daemon's scanner is the one with `guarded = false`. With
`guarded = true` the scanner stops (`cut`) when the byte after a backslash is the terminator; it
differs in nothing else.
-/

namespace PortManager.Native
open CText Cursor
open JsonText (StringPlace)

variable (mem : Text)

def dnsJsonSpace : Scan Unit := skipWhile isspace mem

/-- `if (*cursor->p++ != c) return -1;` -/
def dnsJsonExpect (c : UInt8) (mem : Text) : Scan Unit :=
  (expect (· == c) mem).bind fun _ mem => .ok () mem

/-- `strchr("\"\\/bfnrt", ch) != NULL`; the search also finds the terminator of the literal. -/
def isSimpleEscape (ch : UInt8) : Bool :=
  ch == 0 || ch == 34 || ch == 92 || ch == 47 || ch == 98 || ch == 102 || ch == 110 || ch == 114 ||
    ch == 116

/-- The loop of C `pm_dns_json_string` with the bytes it has copied. -/
def dnsJsonStringLoop (guarded : Bool) : StringPlace → Text → Text → Scan Text
  | _, [], _ => .overrun
  | .plain, c :: rest, out =>
    if c = 0 then .refuse
    else if c = 34 then .ok out rest
    else if c < 0x20 then .refuse
    else if c = 92 then dnsJsonStringLoop guarded .escape rest out
    else dnsJsonStringLoop guarded .plain rest (out ++ [c])
  | .escape, ch :: rest, out =>
    if guarded && ch == 0 then .cut
    else if isSimpleEscape ch then dnsJsonStringLoop guarded .plain rest (out ++ [ch])
    else if ch = 117 then dnsJsonStringLoop guarded (.hex 3) rest (out ++ [ch])
    else .refuse
  | .hex left, c :: rest, out =>
    if isxdigit c then dnsJsonStringLoop guarded (.afterDigit left) rest out else .refuse

variable (guarded : Bool)

/-- C `pm_dns_json_string`; a string that is copied has to fit its buffer, and the callers read the
buffer up to its first NUL. -/
def dnsJsonString (size : Option Nat) (mem : Text) : Scan Text :=
  (dnsJsonExpect 34 mem).bind fun _ mem =>
    (dnsJsonStringLoop guarded .plain mem []).bind fun out mem =>
      if size.any (· ≤ out.length) then .refuse else .ok (out.takeWhile (· != 0)) mem

/-- `if (!isdigit(*p)) return -1; while (isdigit(*p)) p++;` -/
def dnsJsonDigits : Scan Unit :=
  (expect isdigit mem).bind fun _ mem => skipWhile isdigit mem

def dnsJsonExponent : Scan Unit :=
  (peek mem).bind fun c mem =>
    if c = 101 ∨ c = 69 then
      (peek mem.tail).bind fun c mem => if c = 43 ∨ c = 45 then dnsJsonDigits mem.tail else dnsJsonDigits mem
    else .ok () mem

def dnsJsonFraction : Scan Unit :=
  (peek mem).bind fun c mem => if c = 46 then dnsJsonDigits mem.tail else .ok () mem

def dnsJsonInteger : Scan Unit :=
  (expect isdigit mem).bind fun c mem => if c = 48 then .ok () mem else skipWhile isdigit mem

/-- The number at the end of C `pm_dns_json_value`. -/
def dnsJsonNumber : Scan Unit :=
  (peek mem).bind fun c mem =>
    (dnsJsonInteger (if c = 45 then mem.tail else mem)).bind fun _ mem =>
      (dnsJsonFraction mem).bind fun _ mem => dnsJsonExponent mem

/-- The words and numbers of C `pm_dns_json_value`. -/
def dnsJsonScalar : Scan Unit :=
  (tryWord (ascii "true") mem).bind fun found mem =>
    if found then .ok () mem
    else (tryWord (ascii "false") mem).bind fun found mem =>
      if found then .ok () mem
      else (tryWord (ascii "null") mem).bind fun found mem =>
        if found then .ok () mem else dnsJsonNumber mem

/-- What follows an element of an array or a member of an object: its end, or a comma and the next
one. -/
def dnsJsonNext {α : Type} (close : UInt8) (finished : α) (again : Text → Scan α) (mem : Text) : Scan α :=
  (dnsJsonSpace mem).bind fun _ mem =>
    (peek mem).bind fun c mem =>
      if c = close then .ok finished mem.tail
      else (dnsJsonExpect 44 mem).bind fun _ mem => (dnsJsonSpace mem).bind fun _ mem => again mem

/-- A member name with its colon, and the space around both. -/
def dnsJsonName (mem : Text) : Scan Text :=
  (dnsJsonString guarded (some PM_SMALL) mem).bind fun key mem =>
    (dnsJsonSpace mem).bind fun _ mem =>
      (dnsJsonExpect 58 mem).bind fun _ mem => (dnsJsonSpace mem).bind fun _ mem => .ok key mem

/-- The start of C `pm_dns_json_array` and `pm_dns_json_object`. -/
def dnsJsonOpen (opening closing : UInt8) (loop : Text → Scan Unit) (mem : Text) : Scan Unit :=
  (dnsJsonExpect opening mem).bind fun _ mem =>
    (dnsJsonSpace mem).bind fun _ mem =>
      (peek mem).bind fun c mem => if c = closing then .ok () mem.tail else loop mem

/-- C `pm_dns_json_value`, with the loops of C `pm_dns_json_array` and `pm_dns_json_object`. -/
def dnsJsonValueWith (elements members : Text → Scan Unit) (mem : Text) : Scan Unit :=
  (dnsJsonSpace mem).bind fun _ mem =>
    (peek mem).bind fun c mem =>
      if c = 34 then (dnsJsonString guarded none mem).bind fun _ mem => .ok () mem
      else if c = 123 then dnsJsonOpen 123 125 members mem
      else if c = 91 then dnsJsonOpen 91 93 elements mem
      else dnsJsonScalar mem

mutual

/-- The loop of C `pm_dns_json_array`. -/
def dnsJsonElements (guarded : Bool) : Nat → Text → Scan Unit
  | 0, _ => .unfinished
  | fuel + 1, mem =>
    (dnsJsonValueWith guarded (dnsJsonElements guarded fuel) (dnsJsonMembers guarded fuel) mem).bind
      fun _ mem => dnsJsonNext 93 () (dnsJsonElements guarded fuel) mem

/-- The loop of C `pm_dns_json_object`. -/
def dnsJsonMembers (guarded : Bool) : Nat → Text → Scan Unit
  | 0, _ => .unfinished
  | fuel + 1, mem =>
    (dnsJsonName guarded mem).bind fun _ mem =>
      (dnsJsonValueWith guarded (dnsJsonElements guarded fuel) (dnsJsonMembers guarded fuel) mem).bind
        fun _ mem => dnsJsonNext 125 () (dnsJsonMembers guarded fuel) mem

end

variable (fuel : Nat)

def dnsJsonValue (mem : Text) : Scan Unit :=
  dnsJsonValueWith guarded (dnsJsonElements guarded fuel) (dnsJsonMembers guarded fuel) mem

def dnsJsonArray (mem : Text) : Scan Unit :=
  dnsJsonOpen 91 93 (dnsJsonElements guarded fuel) mem

/-! ## The document -/

/-- The flags `networks`, `attachments` and `exposures`. -/
structure RegistryArrays where
  networks : Bool
  attachments : Bool
  exposures : Bool
deriving DecidableEq

inductive RegistryArray where
  | networks | attachments | exposures
deriving DecidableEq

def RegistryArray.ofName (key : Text) : Option RegistryArray :=
  if key = ascii "networks" then some .networks
  else if key = ascii "attachments" then some .attachments
  else if key = ascii "exposures" then some .exposures else none

namespace RegistryArrays

def none : RegistryArrays := ⟨false, false, false⟩

/-- `*seen` -/
def has (seen : RegistryArrays) : RegistryArray → Bool
  | .networks => seen.networks
  | .attachments => seen.attachments
  | .exposures => seen.exposures

/-- `*seen = 1` -/
def mark (seen : RegistryArrays) : RegistryArray → RegistryArrays
  | .networks => { seen with networks := true }
  | .attachments => { seen with attachments := true }
  | .exposures => { seen with exposures := true }

def all (seen : RegistryArrays) : Bool := seen.networks && seen.attachments && seen.exposures

end RegistryArrays

/-- The array members of a state and of a legacy document: each once, and an array. -/
def dnsJsonRegistryArray (seen : RegistryArrays) (name : RegistryArray) (mem : Text) : Scan RegistryArrays :=
  if seen.has name then .refuse
  else (dnsJsonArray guarded fuel mem).bind fun _ mem => .ok (seen.mark name) mem

def dnsJsonStateMember (seen : RegistryArrays) (key mem : Text) : Scan RegistryArrays :=
  match RegistryArray.ofName key with
  | some name => dnsJsonRegistryArray guarded fuel seen name mem
  | none => (dnsJsonValue guarded fuel mem).bind fun _ mem => .ok seen mem

/-- The loop of C `pm_dns_json_state`. -/
def dnsJsonStateLoop (guarded : Bool) : Nat → RegistryArrays → Text → Scan RegistryArrays
  | 0, _, _ => .unfinished
  | fuel + 1, seen, mem =>
    (dnsJsonName guarded mem).bind fun key mem =>
      (dnsJsonStateMember guarded fuel seen key mem).bind fun seen mem =>
        dnsJsonNext 125 seen (dnsJsonStateLoop guarded fuel seen) mem

/-- C `pm_dns_json_state`; its `0` is a refusal. -/
def dnsJsonState (mem : Text) : Scan Unit :=
  (dnsJsonExpect 123 mem).bind fun _ mem =>
    (dnsJsonSpace mem).bind fun _ mem =>
      (peek mem).bind fun c mem =>
        if c = 125 then .refuse
        else (dnsJsonStateLoop guarded fuel .none mem).bind fun seen mem =>
          if seen.all then .ok () mem else .refuse

/-- What C `pm_dns_document_authorizes` has seen. `version_one` and `state_valid` are set with their
members, which are refused otherwise. -/
structure DocumentSeen where
  version : Bool
  revision : Option Text
  state : Bool
  raw : RegistryArrays
deriving DecidableEq

def DocumentSeen.none : DocumentSeen := ⟨false, Option.none, false, .none⟩

/-- `cursor.p - start == 1 && start[0] == '1'` for a cursor that moved from `mem` to `rest`. -/
def spelledOne (mem rest : Text) : Prop := mem.length = rest.length + 1 ∧ mem.head? = some 49

instance (mem rest : Text) : Decidable (spelledOne mem rest) :=
  inferInstanceAs (Decidable (_ ∧ _))

def dnsDocumentMember (seen : DocumentSeen) (key mem : Text) : Scan DocumentSeen :=
  if key = ascii "version" then
    if seen.version then .refuse
    else (dnsJsonValue guarded fuel mem).bind fun _ rest =>
      if spelledOne mem rest then .ok { seen with version := true } rest else .refuse
  else if key = ascii "revision" then
    if seen.revision.isSome then .refuse
    else (dnsJsonString guarded (some PM_SMALL) mem).bind fun revision mem =>
      .ok { seen with revision := some revision } mem
  else if key = ascii "state" then
    if seen.state then .refuse
    else (dnsJsonState guarded fuel mem).bind fun _ mem => .ok { seen with state := true } mem
  else
    match RegistryArray.ofName key with
    | some name => (dnsJsonRegistryArray guarded fuel seen.raw name mem).bind fun raw mem =>
        .ok { seen with raw := raw } mem
    | none => (dnsJsonValue guarded fuel mem).bind fun _ mem => .ok seen mem

/-- The loop of C `pm_dns_document_authorizes`. -/
def dnsDocumentLoop (guarded : Bool) : Nat → DocumentSeen → Text → Scan DocumentSeen
  | 0, _, _ => .unfinished
  | fuel + 1, seen, mem =>
    (dnsJsonName guarded mem).bind fun key mem =>
      (dnsDocumentMember guarded fuel seen key mem).bind fun seen mem =>
        dnsJsonNext 125 seen (dnsDocumentLoop guarded fuel seen) mem

/-- `pm_dns_json_space(&cursor); if (*cursor.p != 0) return 0;` -/
def dnsDocumentEnd (seen : DocumentSeen) (mem : Text) : Scan DocumentSeen :=
  (dnsJsonSpace mem).bind fun _ mem =>
    (peek mem).bind fun c mem => if c = 0 then .ok seen mem else .refuse

def dnsDocumentScan (mem : Text) : Scan DocumentSeen :=
  (dnsJsonSpace mem).bind fun _ mem =>
    (dnsJsonExpect 123 mem).bind fun _ mem =>
      (dnsJsonSpace mem).bind fun _ mem =>
        (peek mem).bind fun c mem =>
          if c = 125 then .refuse
          else (dnsDocumentLoop guarded fuel .none mem).bind dnsDocumentEnd

/-- The last two lines of C `pm_dns_document_authorizes`: an envelope for its own revision, or a raw
state for `legacy`. -/
def documentVerdict (seen : DocumentSeen) (revision : Text) : Bool :=
  if seen.version ∨ seen.revision.isSome ∨ seen.state then
    seen.version ∧ seen.state ∧ revision ≠ ascii "legacy" ∧ seen.revision = some revision
  else revision = ascii "legacy" ∧ seen.raw.all

def documentFuel : Nat := mem.length + 1

/-- What C `pm_dns_document_authorizes` returns after a scan; nothing can be said of a scan that left
the object. -/
def scanVerdict (scan : Scan DocumentSeen) (revision : Text) : Option Bool :=
  match scan with
  | .ok seen _ => some (documentVerdict seen revision)
  | .refuse => some false
  | _ => none

/-- C `pm_dns_document_authorizes` on the memory object of a document. -/
def dnsDocumentAuthorizes (mem revision : Text) : Option Bool :=
  scanVerdict (dnsDocumentScan false (documentFuel mem) mem) revision

/-- A document is cut when the guarded scan of its bytes ends right after a backslash in a string. -/
def documentCut (text : Text) : Bool :=
  match dnsDocumentScan true (documentFuel (text ++ [0])) (text ++ [0]) with
  | .cut => true
  | _ => false

end PortManager.Native
