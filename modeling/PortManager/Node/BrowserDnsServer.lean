import PortManager.Base.DnsWire
import PortManager.Base.InsertionMap
import PortManager.Node.RoutePaths

/-!
# The Node DNS responder

Embeds `src/platform/network/browser-dns-server.ts` and `parseBrowserDnsRecordPairs` of `src/agent/port-manager-agent.ts`:
how a table is built from a records string, which names and addresses are accepted, and the reply to a packet. A
packet is a list of bytes, a text the list of its UTF-16 code units, and `toLowerCase` a parameter.

The reply depends on the bytes behind the header only through the first question (`BrowserDnsServer.buildResponse_eq`).
-/

namespace PortManager.Node
open JsonText List Option Dns

def DNS_TYPE_A : Nat := 1
def DNS_TYPE_ANY : Nat := 255
def DNS_CLASS_IN : Nat := 1
def RESPONSE_TTL_SECONDS : Nat := 1

/-! ## Records -/

/-- A pair of `parseBrowserDnsRecordPairs`: the text before the first `=`, which is not at the start. -/
def parsePair (pair : List Nat) : Option (List Nat × List Nat) :=
  let hostname := pair.takeWhile (· != 61)
  if 61 ∈ pair ∧ hostname ≠ [] then some (hostname, (pair.dropWhile (· != 61)).tail) else none

def parseBrowserDnsRecordPairs (records : List Nat) : List (List Nat × List Nat) :=
  (records.splitOn 44).filterMap parsePair

/-- `[a-z0-9]` -/
def isAlphanumeric (c : Nat) : Bool := isDigit c || (97 ≤ c && c ≤ 122)

/-- `[a-z0-9-]` -/
def isHostUnit (c : Nat) : Bool := isAlphanumeric c || c == 45

/-- The replacement of every run of dashes by one; `dash` says whether the unit before is a dash. -/
def collapseDashes : Bool → List Nat → List Nat
  | _, [] => []
  | dash, c :: rest =>
    if c = 45 then (if dash then collapseDashes true rest else 45 :: collapseDashes true rest)
    else c :: collapseDashes false rest

/-- `/^[a-z0-9](?:[a-z0-9-]*[a-z0-9])?$/.test(text)` -/
def isHostname (text : List Nat) : Bool :=
  text.all isHostUnit && text.head?.any isAlphanumeric && text.getLast?.any isAlphanumeric

section Lower

variable (lower : List Nat → List Nat)

/-- TS `normalizeHostname`. -/
def normalizeHostname (value : List Nat) : Option (List Nat) :=
  let normalized := collapseDashes false ((lower (trim value)).map fun c => if isHostUnit c then c else 45)
  let trimmed := (normalized.dropWhile (· == 45)).rdropWhile (· == 45)
  if trimmed.length = 0 ∨ 63 < trimmed.length ∨ isHostname trimmed = false then none else some trimmed

/-- `.replace(/\.$/, "")` -/
def dropLastDot (text : List Nat) : List Nat := if text.getLast? = some 46 then text.dropLast else text

/-- TS `normalizeDnsRecordName`. -/
def normalizeDnsRecordName (value : List Nat) : Option (List Nat) :=
  let normalized := dropLastDot (lower (trim value))
  if 253 < normalized.length then none
  else ((normalized.splitOn 46).mapM (normalizeHostname lower)).map [46].intercalate

/-- `Number.parseInt(text, 10)`, `none` for `NaN`. -/
def parseInt (text : List Nat) : Option Int :=
  let unsigned (digits : List Nat) : Option Int :=
    if digits = [] then none else some (digits.foldl (fun n c => n * 10 + (c - 48)) 0 : Nat)
  match text.dropWhile isSpaceUnit with
  | 45 :: rest => (unsigned (rest.takeWhile isDigit)).map (- ·)
  | 43 :: rest => unsigned (rest.takeWhile isDigit)
  | rest => unsigned (rest.takeWhile isDigit)

/-- An octet of TS `parseIpv4Address`. -/
def parseOctet (part : List Nat) : Option Nat :=
  (parseInt part).bind fun n => if n < 0 ∨ 255 < n then none else some n.toNat

/-- TS `parseIpv4Address`. -/
def parseIpv4Address (value : List Nat) : Option (List Nat) :=
  let parts := value.splitOn 46
  if parts.length ≠ 4 then none else parts.mapM parseOctet

/-- `address.join(".")` -/
def joinOctets (octets : List Nat) : List Nat := [46].intercalate (octets.map decimal)

/-- A record that TS `sync` does not ignore. -/
def acceptedRecord (record : List Nat × List Nat) : Option (List Nat × List Nat) :=
  match normalizeDnsRecordName lower record.1, parseIpv4Address record.2 with
  | some hostname, some address => some (hostname, joinOctets address)
  | _, _ => none

/-- The state of TS `BrowserDnsServer` that replies depend on. -/
structure BrowserDnsServer where
  records : InsertionMap (List Nat) (List Nat)

namespace BrowserDnsServer

def empty : BrowserDnsServer := ⟨.empty⟩

/-- TS `sync`: the table is cleared, and every accepted record is set in its turn. -/
def sync (records : List (List Nat × List Nat)) : BrowserDnsServer :=
  ⟨.ofList (records.filterMap (acceptedRecord lower))⟩

end BrowserDnsServer

/-! ## Replies -/

/-- The loop of TS `parseQuestion` on the bytes from the cursor on. `toString("ascii")` clears the high bit. -/
def parseNameParts : Nat → Dns.Bytes → List (List Nat) → Option (List (List Nat) × Dns.Bytes)
  | 0, _, _ => none
  | _ + 1, [], nameParts => some (nameParts, [])
  | fuel + 1, length :: rest, nameParts =>
    if length = 0 then some (nameParts, rest)
    else if length &&& 0xc0 ≠ 0 then none
    else if rest.length < length.toNat then none
    else parseNameParts fuel (rest.drop length.toNat)
      (nameParts ++ [(rest.take length.toNat).map fun byte => byte.toNat % 128])

/-- TS `ParsedQuestion`. -/
structure ParsedQuestion where
  name : List Nat
  type : Nat
  klass : Nat
  endOffset : Nat

/-- TS `parseQuestion` from offset 12. -/
def parseQuestion (packet : Dns.Bytes) : Option ParsedQuestion :=
  match parseNameParts ((packet.drop 12).length + 1) (packet.drop 12) [] with
  | some (nameParts, typeHigh :: typeLow :: classHigh :: classLow :: rest) =>
    if nameParts.length = 0 then none
    else some ⟨[46].intercalate nameParts, Dns.readU16 typeHigh typeLow, Dns.readU16 classHigh classLow,
      packet.length - rest.length⟩
  | _ => none

/-- TS `buildHeader`. -/
def buildHeader (id requestFlags questionCount answerCount responseCode : Nat) : Dns.Bytes :=
  let responseFlags := 0x8000 ||| (requestFlags &&& 0x0100) ||| 0x0080 ||| (responseCode &&& 0x000f)
  Dns.u16 id ++ Dns.u16 responseFlags ++ Dns.u16 questionCount ++ Dns.u16 answerCount ++ Dns.u16 0 ++ Dns.u16 0

/-- `answer.writeUInt32BE` -/
def u32 (n : Nat) : Dns.Bytes := Dns.u16 (n / 65536) ++ Dns.u16 n

/-- TS `buildARecordAnswer`, `none` when it throws. -/
def buildARecordAnswer (address : List Nat) : Option Dns.Bytes :=
  (parseIpv4Address address).map fun octets =>
    Dns.u16 0xc00c ++ Dns.u16 DNS_TYPE_A ++ Dns.u16 DNS_CLASS_IN ++ u32 RESPONSE_TTL_SECONDS ++ Dns.u16 4 ++
      octets.map UInt8.ofNat

/-- TS `normalizeDnsQueryName`. -/
def normalizeDnsQueryName (name : List Nat) : List Nat := lower (dropLastDot name)

/-- TS `buildResponse`, `none` when nothing is sent. -/
def BrowserDnsServer.buildResponse (server : BrowserDnsServer) (query : Dns.Bytes) : Option Dns.Bytes :=
  if query.length < 12 then none
  else
    let id := Dns.readU16 (query.getD 0 0) (query.getD 1 0)
    let flags := Dns.readU16 (query.getD 2 0) (query.getD 3 0)
    let questionCount := Dns.readU16 (query.getD 4 0) (query.getD 5 0)
    if questionCount < 1 then some (buildHeader id flags 0 0 0)
    else
      match parseQuestion query with
      | none => some (buildHeader id flags 0 0 1)
      | some question =>
        let questionBytes := (query.take question.endOffset).drop 12
        match server.records.get? (normalizeDnsQueryName lower question.name) with
        | none => some (buildHeader id flags 1 0 3 ++ questionBytes)
        | some address =>
          if question.klass = DNS_CLASS_IN ∧ (question.type = DNS_TYPE_A ∨ question.type = DNS_TYPE_ANY) then
            (buildARecordAnswer address).map fun answer => buildHeader id flags 1 1 0 ++ questionBytes ++ answer
          else some (buildHeader id flags 1 0 0 ++ questionBytes)

/-! ## Questions -/

/-- `toString("ascii")` -/
def asciiUnits (label : Dns.Bytes) : List Nat := label.map fun byte => byte.toNat % 128

def questionName (question : Dns.Question) : List Nat := [46].intercalate (question.labels.map asciiUnits)

lemma parseNameParts_eq (fuel : Nat) (bytes : Dns.Bytes) (nameParts : List (List Nat)) :
    parseNameParts fuel bytes nameParts =
      (readLabels fuel bytes).map fun read => (nameParts ++ read.1.map asciiUnits, read.2) := by
  induction fuel generalizing bytes nameParts with
  | zero => rfl
  | succ fuel ih =>
    cases bytes with
    | nil => simp [parseNameParts, readLabels]
    | cons length bytes =>
      rw [parseNameParts, readLabels]
      by_cases hzero : length = 0
      · simp [hzero]
      by_cases hpointer : length &&& 0xc0 ≠ 0
      · rw [if_neg hzero, if_pos hpointer, if_neg hzero, if_pos (.inl hpointer)]
        rfl
      by_cases hshort : bytes.length < length.toNat
      · rw [if_neg hzero, if_neg hpointer, if_pos hshort, if_neg hzero, if_pos (.inr hshort)]
        rfl
      rw [if_neg hzero, if_neg hpointer, if_neg hshort, if_neg hzero, if_neg (not_or.mpr ⟨hpointer, hshort⟩), ih,
        Option.map_map]
      congr 1
      funext read
      simp [asciiUnits]

lemma parseQuestion_eq {packet : Dns.Bytes} (hpacket : 12 ≤ packet.length) :
    parseQuestion packet = (readQuestion (packet.drop 12)).bind fun read =>
      if read.1.labels = [] then none
      else some ⟨questionName read.1, read.1.type, read.1.klass, 12 + read.1.bytes.length⟩ := by
  rw [parseQuestion, parseNameParts_eq]
  cases hread : readQuestion (packet.drop 12) with
  | none =>
    rw [bind_none]
    split
    next nameParts typeHigh typeLow classHigh classLow rest heq =>
      obtain ⟨read, hlabels, heq⟩ := map_eq_some_iff.mp heq
      obtain ⟨labels, rest'⟩ := read
      cases heq
      obtain ⟨question, hquestion⟩ := exists_question_of_readLabels hlabels
      exact absurd (hread.symm.trans hquestion) (some_ne_none _).symm
    next => rfl
  | some read =>
    obtain ⟨question, rest⟩ := read
    have hbytes := readQuestion_eq_some_iff.mp hread
    have hend : packet.length - rest.length = 12 + question.bytes.length := by
      have hlength := congrArg List.length hbytes
      rw [length_drop, length_append] at hlength
      omega
    rw [hbytes, readLabels_bytes]
    simp only [map_some, bind_some, nil_append, u16, cons_append,
      readU16_u16 question.type_lt, readU16_u16 question.klass_lt, hend, length_eq_zero_iff,
      map_eq_nil_iff]
    rfl

/-! ## The reply to a question -/

def Asked (question : Dns.Question) : Prop :=
  question.klass = DNS_CLASS_IN ∧ (question.type = DNS_TYPE_A ∨ question.type = DNS_TYPE_ANY)

instance (question : Dns.Question) : Decidable (Asked question) := inferInstanceAs (Decidable (_ ∧ _))

def replyHeader (query : Dns.Bytes) (questionCount answerCount responseCode : Nat) : Dns.Bytes :=
  buildHeader (Dns.readU16 (query.getD 0 0) (query.getD 1 0)) (Dns.readU16 (query.getD 2 0) (query.getD 3 0))
    questionCount answerCount responseCode

def answer (query : Dns.Bytes) (question : Dns.Question) : Option (List Nat) → Option Dns.Bytes
  | none => some (replyHeader query 1 0 3 ++ question.bytes)
  | some address =>
    if Asked question then
      (buildARecordAnswer address).map fun answer => replyHeader query 1 1 0 ++ question.bytes ++ answer
    else some (replyHeader query 1 0 0 ++ question.bytes)

lemma BrowserDnsServer.buildResponse_eq (server : BrowserDnsServer) {query : Dns.Bytes} (hlong : 12 ≤ query.length) :
    server.buildResponse lower query =
      if readU16 (query.getD 4 0) (query.getD 5 0) < 1 then some (replyHeader query 0 0 0)
      else
        match readQuestion (query.drop 12) with
        | none => some (replyHeader query 0 0 1)
        | some (question, _) =>
          if question.labels = [] then some (replyHeader query 0 0 1)
          else answer query question (server.records.get? (normalizeDnsQueryName lower (questionName question))) := by
  rw [buildResponse, if_neg (by omega), parseQuestion_eq hlong]
  cases hread : readQuestion (query.drop 12) with
  | none => rfl
  | some read =>
    obtain ⟨question, rest⟩ := read
    have hechoed : (query.take (12 + question.bytes.length)).drop 12 = question.bytes := by
      rw [drop_take, readQuestion_eq_some_iff.mp hread, Nat.add_sub_cancel_left, take_left]
    by_cases hroot : question.labels = []
    · simp only [bind_some, if_pos hroot]
      rfl
    · simp only [bind_some, if_neg hroot, hechoed]
      rfl

end Lower

/-! ## Addresses -/

lemma parseOctet_decimal {n : Nat} (hn : n < 256) : parseOctet (decimal n) = some n ∧ 46 ∉ decimal n := by
  have hall : ∀ n : Fin 256, parseOctet (decimal n.val) = some n.val ∧ 46 ∉ decimal n.val := by decide +kernel
  exact hall ⟨n, hn⟩

lemma parseOctet_lt {part : List Nat} {n : Nat} (h : parseOctet part = some n) : n < 256 := by
  obtain ⟨value, -, hvalue⟩ := bind_eq_some_iff.mp h
  split_ifs at hvalue with hrange
  have hn := some.inj hvalue
  omega

lemma mapM_parseOctet {parts : List (List Nat)} {values : List Nat} (h : parts.mapM parseOctet = some values) :
    values.length = parts.length ∧ ∀ n ∈ values, n < 256 := by
  induction parts generalizing values with
  | nil =>
    cases h
    exact ⟨rfl, fun n hn => absurd hn not_mem_nil⟩
  | cons part parts ih =>
    rw [mapM_cons] at h
    obtain ⟨value, hvalue, h⟩ := bind_eq_some_iff.mp h
    obtain ⟨rest, hrest, h⟩ := bind_eq_some_iff.mp h
    cases h
    obtain ⟨hlength, hlt⟩ := ih hrest
    exact ⟨congrArg (· + 1) hlength, forall_mem_cons.mpr ⟨parseOctet_lt hvalue, hlt⟩⟩

lemma mapM_parseOctet_decimal {octets : List Nat} (hoctets : ∀ n ∈ octets, n < 256) :
    (octets.map decimal).mapM parseOctet = some octets := by
  induction octets with
  | nil => rfl
  | cons octet octets ih =>
    obtain ⟨hoctet, hoctets⟩ := forall_mem_cons.mp hoctets
    rw [map_cons, mapM_cons, (parseOctet_decimal hoctet).1, ih hoctets]
    rfl

lemma octets_of_parseIpv4Address {value octets : List Nat} (h : parseIpv4Address value = some octets) :
    octets.length = 4 ∧ ∀ n ∈ octets, n < 256 := by
  rw [parseIpv4Address] at h
  split_ifs at h with hparts
  obtain ⟨hlength, hlt⟩ := mapM_parseOctet h
  exact ⟨hlength.trans (not_not.mp hparts), hlt⟩

lemma parseIpv4Address_joinOctets {octets : List Nat} (hlength : octets.length = 4) (hoctets : ∀ n ∈ octets, n < 256) :
    parseIpv4Address (joinOctets octets) = some octets := by
  have hpieces : ∀ piece ∈ octets.map decimal, 46 ∉ piece := by
    intro piece hpiece
    obtain ⟨octet, hoctet, rfl⟩ := mem_map.mp hpiece
    exact (parseOctet_decimal (hoctets octet hoctet)).2
  have hne : octets.map decimal ≠ [] := by
    intro h
    rw [map_eq_nil_iff.mp h] at hlength
    cases hlength
  have hsplit : (joinOctets octets).splitOn 46 = octets.map decimal := (SplitText.splitOn_eq_iff hpieces hne).mpr rfl
  rw [parseIpv4Address, hsplit, if_neg (by simpa using hlength)]
  exact mapM_parseOctet_decimal hoctets

end PortManager.Node
