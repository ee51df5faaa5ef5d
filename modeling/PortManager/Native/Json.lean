import PortManager.Base.CText

/-!
# The native daemon's JSON reader

Embeds `native/agent/portmanager_agent_json.c`: the member lookup that walks one object without
building a tree (`pm_find_json_key`), the bounded string reader (`pm_read_json_string`), the number
readers on top of `strtol`, and the parsers of the requests a network credential can send.

A fixed `char` buffer has room for one byte less than its size. The reader refuses a longer string
and leaves the empty text behind, so a caller that ignores the result sees `""`.

The daemon writes a control byte without a letter of its own as a `\u` sequence, and its reader has
only `?` for those: `json_string_roundtrip_iff` says which texts come back.
-/

namespace PortManager.Native
open CText List

def toText (codes : List Nat) : Text := codes.map UInt8.ofNat

lemma octets_cons (x : UInt8) (t : Text) : octets (x :: t) = x.toNat :: octets t := rfl

lemma octets_toText {codes : List Nat} (h : ∀ c ∈ codes, c < 0x100) : octets (toText codes) = codes := by
  induction codes with
  | nil => rfl
  | cons c codes ih =>
    rw [List.forall_mem_cons] at h
    have hc : (UInt8.ofNat c).toNat = c := UInt8.toNat_ofNat_of_lt' h.1
    exact congrArg₂ List.cons hc (ih h.2)

/-- Sizes of the fixed buffers (C `PM_TEXT`, `PM_SMALL`, `PM_ID`, `PM_STATUS`, `PM_SOURCE`,
`PM_DIRECTION`). -/
def PM_TEXT : Nat := 1024
def PM_SMALL : Nat := 256
def PM_ID : Nat := 128
def PM_STATUS : Nat := 32
def PM_SOURCE : Nat := 32
def PM_DIRECTION : Nat := 16

/-- Where the walk of `findJsonKey` stands: between tokens, or inside a string whose bytes so far
are kept, with a mark when one of them was escaped. -/
inductive KeyScan where
  | outside
  | string (seen : Text) (escaped : Bool)

def skipSpace (t : Text) : Text := t.dropWhile isspace

/-- The loop of C `pm_find_json_key`, at brace depth `depth`. -/
def findJsonKeyLoop (key : Text) : Nat → KeyScan → Text → Option Text
  | _, _, [] => none
  | depth, .outside, c :: rest =>
    if c = 123 ∨ c = 91 then findJsonKeyLoop key (depth + 1) .outside rest
    else if c = 125 ∨ c = 93 then
      if depth - 1 = 0 then none else findJsonKeyLoop key (depth - 1) .outside rest
    else if c = 34 then findJsonKeyLoop key depth (.string [] false) rest
    else findJsonKeyLoop key depth .outside rest
  | depth, .string seen escaped, c :: rest =>
    if c = 34 then
      match skipSpace rest with
      | 58 :: value =>
        -- a key counts only directly inside the outer object and only when spelled literally
        if depth = 1 ∧ escaped = false ∧ seen = key then some (skipSpace value)
        else findJsonKeyLoop key depth .outside rest
      | _ => findJsonKeyLoop key depth .outside rest
    else if c = 92 then
      match rest with
      | [] => none
      | d :: rest => findJsonKeyLoop key depth (.string (seen ++ [c, d]) true) rest
    else findJsonKeyLoop key depth (.string (seen ++ [c]) escaped) rest

/-- The value of member `key` of the object the text starts with (C `pm_find_json_key`). -/
def findJsonKey (json key : Text) : Option Text :=
  match skipSpace json with
  | 123 :: rest => findJsonKeyLoop key 1 .outside rest
  | _ => none

/-- The byte an escape stands for; a `\u` sequence becomes `?` (C `pm_read_json_string`). -/
def unescape (c : UInt8) : UInt8 :=
  if c = 98 then 8 else if c = 102 then 12 else if c = 110 then 10
  else if c = 114 then 13 else if c = 116 then 9 else if c = 117 then 63 else c

/-- The loop of C `pm_read_json_string`: the result and what the buffer of `size` bytes holds.
`hex` is how many hexadecimal digits of a `\u` sequence may still be skipped. -/
def readJsonStringLoop (size : Nat) : Nat → Text → Text → Bool × Text
  | _, [], out => (false, out)
  | hex, c :: rest, out =>
    if 0 < hex ∧ isxdigit c then readJsonStringLoop size (hex - 1) rest out
    else if c = 34 then (true, out)
    else if c = 92 then
      match rest with
      | [] => (false, out)
      | e :: rest =>
        if size ≤ out.length + 1 then (false, [])
        else readJsonStringLoop size (if e = 117 then 4 else 0) rest (out ++ [unescape e])
    else if size ≤ out.length + 1 then (false, [])
    else readJsonStringLoop size 0 rest (out ++ [c])

/-- C `pm_read_json_string` on an emptied buffer. -/
def readJsonString (cursor : Option Text) (size : Nat) : Bool × Text :=
  match cursor with
  | some (34 :: rest) => readJsonStringLoop size 0 rest []
  | _ => (false, [])

def hexByte (byte : UInt8) : Text :=
  let digit (n : UInt8) : UInt8 := if n < 10 then 48 + n else 87 + n
  [digit (byte / 16), digit (byte % 16)]

/-- How C `pm_json_append_string` writes one byte. -/
def escape (c : UInt8) : Text :=
  if c = 34 then [92, 34] else if c = 92 then [92, 92] else if c = 8 then [92, 98] else if c = 12 then [92, 102]
  else if c = 10 then [92, 110] else if c = 13 then [92, 114] else if c = 9 then [92, 116]
  else if c < 32 then 92 :: 117 :: 48 :: 48 :: hexByte c else [c]

/-- What C `pm_json_append_string` appends. -/
def jsonAppendString (value : Text) : Text := 34 :: value.flatMap escape ++ [34]

/-- C `pm_json_get_string`: whether the member was read, and the buffer. -/
def jsonGetString (json key : Text) (size : Nat) : Bool × Text :=
  readJsonString (findJsonKey json key) size

def jsonGetLong (json key : Text) (default : Int) : Int :=
  match findJsonKey json key with
  | none => default
  | some cursor => (strtol cursor).getD default

def jsonGetInt (json key : Text) (default : Int) : Int :=
  match findJsonKey json key with
  | none => default
  | some cursor =>
    match strtol cursor with
    | none => default
    | some value => toInt32 value

def defaultText (size : Nat) (target fallback : Text) : Text :=
  if target = [] then truncate size fallback else target

/-- C `pm_request`; `payload` is the text from the payload member on. -/
structure Request where
  method : Text
  authorization : Text
  authorizationNetworkId : Text
  payload : Text

structure AllocateInput where
  name : Text
  command : Text
  cwd : Text
  host : Text
  actualHost : Text
  networkId : Text
  experimentalRouteOwnershipMode : Text
  terminalSessionId : Text
  processGroupId : Int
  routeDirection : Text
  compactResponse : Bool
  requestedPort : Int
  scanRange : Int
  scanDirection : Text
  routingMode : Text
  virtualStart : Int
  virtualEnd : Int

structure RegisterInput where
  pid : Int
  name : Text
  command : Text
  cwd : Text
  networkId : Text
  experimentalRouteOwnershipMode : Text
  terminalSessionId : Text
  processGroupId : Int
  allocationId : Text
  source : Text
  host : Text
  requestedPort : Int
  actualPort : Int

structure ReleaseProcessInput where
  pid : Int
  allocationId : Text
  networkId : Text
  experimentalRouteOwnershipMode : Text
  terminalSessionId : Text
  processGroupId : Int
  requestedPort : Int
  actualPort : Int

def parseAllocateInput (payload : Text) : Option AllocateInput :=
  let text key size := (jsonGetString payload (ascii key) size).2
  let int key default := jsonGetInt payload (ascii key) default
  let host := defaultText PM_SMALL (text "host" PM_SMALL) (ascii "localhost")
  let input : AllocateInput :=
    { name := text "name" PM_SMALL
      command := text "command" PM_TEXT
      cwd := defaultText PM_TEXT (text "cwd" PM_TEXT) (ascii ".")
      host := host
      actualHost := defaultText PM_SMALL (text "actualHost" PM_SMALL) host
      networkId := text "networkId" PM_SMALL
      experimentalRouteOwnershipMode := text "experimentalRouteOwnershipMode" PM_SMALL
      terminalSessionId := text "terminalSessionId" PM_SMALL
      processGroupId := int "processGroupId" 0
      routeDirection := defaultText PM_DIRECTION (text "routeDirection" PM_DIRECTION) (ascii "listen")
      compactResponse := decide (int "compactResponse" 0 ≠ 0)
      requestedPort := int "requestedPort" 0
      scanRange := int "scanRange" 20
      scanDirection := defaultText PM_SMALL (text "scanDirection" PM_SMALL) (ascii "up")
      routingMode := defaultText PM_SMALL (text "routingMode" PM_SMALL) (ascii "nearest")
      virtualStart := int "virtualPortRangeStart" 53000
      virtualEnd := int "virtualPortRangeEnd" 59999 }
  if 0 < input.requestedPort then some input else none

def parseRegisterInput (payload : Text) : Option RegisterInput :=
  let text key size := (jsonGetString payload (ascii key) size).2
  let int key default := jsonGetInt payload (ascii key) default
  let name := defaultText PM_SMALL (text "name" PM_SMALL) (ascii "Process")
  let requestedPort := int "requestedPort" 0
  let input : RegisterInput :=
    { pid := toInt32 (jsonGetLong payload (ascii "pid") 0)
      name := name
      command := defaultText PM_TEXT (text "command" PM_TEXT) name
      cwd := defaultText PM_TEXT (text "cwd" PM_TEXT) (ascii ".")
      networkId := text "networkId" PM_SMALL
      experimentalRouteOwnershipMode := text "experimentalRouteOwnershipMode" PM_SMALL
      terminalSessionId := text "terminalSessionId" PM_SMALL
      processGroupId := int "processGroupId" 0
      allocationId := text "allocationId" PM_ID
      source := defaultText PM_SOURCE (text "source" PM_SOURCE) (ascii "registered")
      host := defaultText PM_SMALL (text "host" PM_SMALL) (ascii "localhost")
      requestedPort := requestedPort
      actualPort := int "actualPort" requestedPort }
  if (0 < input.pid ∨ input.source = ascii "compose") ∧ 0 < input.requestedPort ∧ 0 < input.actualPort
  then some input else none

def parseReleaseProcessInput (payload : Text) : Option ReleaseProcessInput :=
  let text key size := (jsonGetString payload (ascii key) size).2
  let int key default := jsonGetInt payload (ascii key) default
  let input : ReleaseProcessInput :=
    { pid := toInt32 (jsonGetLong payload (ascii "pid") 0)
      allocationId := text "allocationId" PM_ID
      networkId := text "networkId" PM_SMALL
      experimentalRouteOwnershipMode := text "experimentalRouteOwnershipMode" PM_SMALL
      terminalSessionId := text "terminalSessionId" PM_SMALL
      processGroupId := int "processGroupId" 0
      requestedPort := int "requestedPort" 0
      actualPort := int "actualPort" 0 }
  if 0 < input.pid ∧ 0 < input.requestedPort ∧ 0 < input.actualPort then some input else none

variable {size hex small large : Nat} {t out rest : Text} {c : UInt8}

lemma readJsonStringLoop_hex (hx : 0 < hex ∧ isxdigit c) :
    readJsonStringLoop size hex (c :: rest) out = readJsonStringLoop size (hex - 1) rest out := by
  rw [readJsonStringLoop.eq_def]
  exact if_pos hx

lemma readJsonStringLoop_escape {e : UInt8} (hx : ¬ (0 < hex ∧ isxdigit 92)) :
    readJsonStringLoop size hex (92 :: e :: rest) out =
      if size ≤ out.length + 1 then (false, [])
      else readJsonStringLoop size (if e = 117 then 4 else 0) rest (out ++ [unescape e]) := by
  rw [readJsonStringLoop.eq_def]
  exact (if_neg hx).trans rfl

lemma readJsonStringLoop_plain (hx : ¬ (0 < hex ∧ isxdigit c)) (hq : c ≠ 34) (hb : c ≠ 92) :
    readJsonStringLoop size hex (c :: rest) out =
      if size ≤ out.length + 1 then (false, [])
      else readJsonStringLoop size 0 rest (out ++ [c]) := by
  rw [readJsonStringLoop.eq_def]
  simp only [if_neg hx, if_neg hq, if_neg hb]

lemma not_hex (c : UInt8) : ¬ (0 < 0 ∧ isxdigit c = true) := fun h => lt_irrefl 0 h.1

lemma readJsonStringLoop_digits {digits : Text} (hdigits : ∀ d ∈ digits, isxdigit d = true)
    (hhex : hex = digits.length) (tail out : Text) :
    readJsonStringLoop size hex (digits ++ tail) out = readJsonStringLoop size 0 tail out := by
  induction digits generalizing hex with
  | nil =>
    subst hhex
    rfl
  | cons d digits ih =>
    obtain ⟨hd, hdigits⟩ := forall_mem_cons.mp hdigits
    rw [length_cons] at hhex
    rw [cons_append, readJsonStringLoop_hex ⟨by omega, hd⟩]
    exact ih hdigits (by omega)

def Coded (c : UInt8) : Prop := c < 32 ∧ c ∉ [8, 9, 10, 12, 13]

instance (c : UInt8) : Decidable (Coded c) := inferInstanceAs (Decidable (_ ∧ _))

lemma escape_letter : ∀ c ∈ ([8, 9, 10, 12, 13, 34, 92] : Text),
    ∃ letter ∈ ([34, 92, 98, 102, 110, 114, 116] : Text),
      escape c = [92, letter] ∧ unescape letter = c ∧ letter ≠ 117 := by
  decide +kernel

lemma escape_coded (h : Coded c) :
    ∃ digits, escape c = 92 :: 117 :: digits ∧ (∀ d ∈ digits, isxdigit d = true) ∧ 4 = digits.length := by
  have hdigits : ∀ n < 32, ∀ d ∈ 48 :: 48 :: hexByte (.ofNat n), isxdigit d = true := by decide +kernel
  have hbyte := hdigits c.toNat h.1
  rw [UInt8.ofNat_toNat] at hbyte
  refine ⟨_, ?_, hbyte, rfl⟩
  simp only [Coded, mem_cons, not_mem_nil, or_false, not_or] at h
  obtain ⟨hlt, hb, ht, hn, hf, hr⟩ := h
  have hquote : c ≠ 34 := by rintro rfl; exact absurd hlt (by decide)
  have hslash : c ≠ 92 := by rintro rfl; exact absurd hlt (by decide)
  simp only [escape, if_neg hquote, if_neg hslash, if_neg hb, if_neg hf, if_neg hn, if_neg hr, if_neg ht, if_pos hlt]

lemma escape_plain (hcoded : ¬ Coded c) (hletter : c ∉ ([8, 9, 10, 12, 13, 34, 92] : Text)) :
    escape c = [c] ∧ c ≠ 34 ∧ c ≠ 92 := by
  simp only [mem_cons, not_mem_nil, or_false, not_or] at hletter
  obtain ⟨hb, ht, hn, hf, hr, hquote, hslash⟩ := hletter
  have hlt : ¬ c < 32 := fun hlt => hcoded ⟨hlt, by simp [hb, ht, hn, hf, hr]⟩
  refine ⟨?_, hquote, hslash⟩
  simp only [escape, if_neg hquote, if_neg hslash, if_neg hb, if_neg hf, if_neg hn, if_neg hr, if_neg ht, if_neg hlt]

/-- The reader takes what was written for one byte, in front of anything. -/
lemma readJsonStringLoop_escaped (hroom : out.length + 1 < size) :
    readJsonStringLoop size 0 (escape c ++ rest) out =
      readJsonStringLoop size 0 rest (out ++ [if Coded c then 63 else c]) := by
  have hroom' : ¬ size ≤ out.length + 1 := not_le.mpr hroom
  by_cases hcoded : Coded c
  · obtain ⟨digits, hescape, hdigits, hcount⟩ := escape_coded hcoded
    rw [hescape, if_pos hcoded, cons_append, cons_append, readJsonStringLoop_escape (not_hex _), if_neg hroom',
      if_pos rfl, readJsonStringLoop_digits hdigits hcount]
    rfl
  rw [if_neg hcoded]
  by_cases hletter : c ∈ ([8, 9, 10, 12, 13, 34, 92] : Text)
  · obtain ⟨letter, -, hescape, hback, hne⟩ := escape_letter c hletter
    rw [hescape, cons_append, singleton_append, readJsonStringLoop_escape (not_hex _), if_neg hroom', if_neg hne, hback]
  · obtain ⟨hescape, hquote, hslash⟩ := escape_plain hcoded hletter
    rw [hescape, singleton_append, readJsonStringLoop_plain (not_hex _) hquote hslash, if_neg hroom']

lemma readJsonStringLoop_written (value : Text) (hfits : out.length + value.length < size) :
    readJsonStringLoop size 0 (value.flatMap escape ++ 34 :: rest) out =
      (true, out ++ value.map fun c => if Coded c then 63 else c) := by
  induction value generalizing out with
  | nil =>
    rw [flatMap_nil, nil_append, map_nil, append_nil, readJsonStringLoop.eq_def]
    rfl
  | cons c value ih =>
    rw [length_cons] at hfits
    rw [flatMap_cons, append_assoc, readJsonStringLoop_escaped (by omega), ih (by simp; omega), map_cons,
      append_assoc, singleton_append]

/-- A text that fits comes back exactly when none of its control bytes is written as a `\u` sequence. -/
theorem json_string_roundtrip_iff (value rest : Text) (size : Nat) (hfits : value.length < size) :
    readJsonString (some (jsonAppendString value ++ rest)) size = (true, value) ↔ ∀ c ∈ value, ¬ Coded c := by
  have hread : readJsonString (some (jsonAppendString value ++ rest)) size =
      (true, value.map fun c => if Coded c then 63 else c) := by
    rw [jsonAppendString, cons_append, cons_append, append_assoc]
    exact readJsonStringLoop_written value (by simpa using hfits)
  rw [hread, Prod.mk.injEq, eq_self_iff_true, true_and]
  constructor
  · intro h c hc hcoded
    have hsame := map_inj_left.mp (h.trans (map_id value).symm) c hc
    rw [if_pos hcoded] at hsame
    obtain rfl : 63 = c := hsame
    exact absurd hcoded (by decide)
  · intro h
    refine (map_congr_left fun c hc => ?_).trans (map_id value)
    exact if_neg (h c hc)

theorem json_string_roundtrip_tab :
    readJsonString (some (jsonAppendString (ascii "a\tb") ++ ascii ",")) PM_ID = (true, ascii "a\tb") :=
  (json_string_roundtrip_iff (ascii "a\tb") (ascii ",") PM_ID (by decide)).mpr (by decide +kernel)

/-- Two texts become one. -/
theorem control_byte_read_as_question_mark :
    readJsonString (some (jsonAppendString [1])) PM_ID = (true, [63]) ∧
      readJsonString (some (jsonAppendString [63])) PM_ID = (true, [63]) := by
  decide

end PortManager.Native
