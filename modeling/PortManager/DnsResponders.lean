import PortManager.Native.DnsRequest
import PortManager.Native.DnsResponder
import PortManager.Node.BrowserDnsServer

/-!
# The two DNS responders

Compares the replies of the native responder and of the Node responder when both are loaded from one records string. They
read packets alike but for the length of a name, and they write replies alike; what can differ is the address they have for a
question (`replies_identical_iff`). The native table gives a name its earliest accepted pair and the Node table its last,
and the two accept different names and addresses.
-/

namespace PortManager
open List Native Node.BrowserDnsServer JsonText Option

def toAddress : List Nat → Option Native.Address
  | [a, b, c, d] => some ⟨.ofNat a, .ofNat b, .ofNat c, .ofNat d⟩
  | _ => none

def addressOctets (address : Native.Address) : List Nat :=
  [address.first.toNat, address.second.toNat, address.third.toNat, address.fourth.toNat]

/-- A records string of a `syncBrowserDns` request with at most 4096 pairs. -/
structure RecordsString where
  units : List Nat
  units_lt : ∀ unit ∈ units, unit < 0x10000
  pairs_le : (units.splitOn 44).length ≤ 4096

section Lower

variable (lower : List Nat → List Nat)

def nodeRecord (record : List Nat × List Nat) : Option (List Nat × Native.Address) :=
  match Node.normalizeDnsRecordName lower record.1, (Node.parseIpv4Address record.2).bind toAddress with
  | some hostname, some address => some (hostname, address)
  | _, _ => none

/-- The address that the last accepted pair gives the name of a question, for the Node daemon. -/
def nodeAddress (records : List Nat) (question : Dns.Question) : Option Native.Address :=
  (((Node.parseBrowserDnsRecordPairs records).filterMap (nodeRecord lower)).reverse.find? fun record =>
    record.1 = Node.normalizeDnsQueryName lower (Node.questionName question)).map Prod.snd

/-- The address that the earliest accepted pair gives the name of a question, for the native daemon. -/
def nativeAddress (records : List Nat) (question : Dns.Question) : Option Native.Address :=
  ((Native.acceptedRecords (Native.readText records)).find? fun record =>
    record.hostname = (Native.dottedName question.labels).takeWhile (· != 0)).map Native.DnsRecord.address

/-! ## Tables -/

lemma addressOctets_of_toAddress {octets : List Nat} {address : Native.Address} (hoctets : ∀ n ∈ octets, n < 256)
    (h : toAddress octets = some address) : addressOctets address = octets := by
  unfold toAddress at h
  split at h
  next a b c d =>
    cases h
    simp only [forall_mem_cons] at hoctets
    obtain ⟨ha, hb, hc, hd, -⟩ := hoctets
    simp only [addressOctets, UInt8.toNat_ofNat', Nat.mod_eq_of_lt ha, Nat.mod_eq_of_lt hb, Nat.mod_eq_of_lt hc,
      Nat.mod_eq_of_lt hd]
  next => cases h

lemma exists_toAddress {octets : List Nat} (hlength : octets.length = 4) : ∃ address, toAddress octets = some address := by
  match octets, hlength with
  | [a, b, c, d], _ => exact ⟨_, rfl⟩

lemma acceptedRecord_eq (record : List Nat × List Nat) : Node.acceptedRecord lower record =
    (nodeRecord lower record).map fun record => (record.1, Node.joinOctets (addressOctets record.2)) := by
  unfold Node.acceptedRecord nodeRecord
  cases Node.normalizeDnsRecordName lower record.1 with
  | none => rfl
  | some hostname =>
    cases hparsed : Node.parseIpv4Address record.2 with
    | none => rfl
    | some octets =>
      obtain ⟨hlength, hoctets⟩ := Node.octets_of_parseIpv4Address hparsed
      obtain ⟨address, haddress⟩ := exists_toAddress hlength
      rw [bind_some, haddress]
      simp only [map_some, addressOctets_of_toAddress hoctets haddress]

lemma get?_sync (records : List Nat) (question : Dns.Question) :
    (sync lower (Node.parseBrowserDnsRecordPairs records)).records.get?
      (Node.normalizeDnsQueryName lower (Node.questionName question)) =
      (nodeAddress lower records question).map fun address => Node.joinOctets (addressOctets address) := by
  rw [sync, InsertionMap.get?_ofList, nodeAddress]
  generalize Node.parseBrowserDnsRecordPairs records = pairs
  have haccepted : pairs.filterMap (Node.acceptedRecord lower) = (pairs.filterMap (nodeRecord lower)).map
      fun record => (record.1, Node.joinOctets (addressOctets record.2)) := by
    rw [map_filterMap]
    exact filterMap_congr fun record _ => acceptedRecord_eq lower record
  rw [haccepted, ← map_reverse, find?_map, Option.map_map, Option.map_map]
  rfl

/-! ## Replies -/

variable (query : Dns.Bytes)

lemma replyHeader_eq (questionCount answerCount responseCode : Nat) :
    Node.replyHeader query questionCount answerCount responseCode =
      writeHeader query questionCount answerCount responseCode := by
  rw [Node.replyHeader, Node.buildHeader, Dns.u16_readU16, writeHeader]
  simp only [append_assoc]
  rfl

lemma buildARecordAnswer_eq (address : Native.Address) :
    Node.buildARecordAnswer (Node.joinOctets (addressOctets address)) = some (addressAnswer address) := by
  have hoctets : ∀ n ∈ addressOctets address, n < 256 := by
    simp only [addressOctets, forall_mem_cons]
    exact ⟨address.first.toNat_lt, address.second.toNat_lt, address.third.toNat_lt, address.fourth.toNat_lt,
      fun _ h => absurd h not_mem_nil⟩
  rw [Node.buildARecordAnswer, Node.parseIpv4Address_joinOctets rfl hoctets, map_some]
  simp only [addressOctets, map_cons, map_nil, UInt8.ofNat_toNat]
  rfl

variable (question : Dns.Question)

lemma answer_eq (found : Option Native.Address) :
    Node.answer query question (found.map fun address => Node.joinOctets (addressOctets address)) =
      some (answer query question found) := by
  cases found with
  | none => exact congrArg (fun header => some (header ++ question.bytes)) (replyHeader_eq query 1 0 3)
  | some address =>
    rw [map_some, Node.answer, answer, buildARecordAnswer_eq, replyHeader_eq, replyHeader_eq]
    by_cases hasked : Native.Asked question
    · rw [if_pos hasked]
      exact if_pos hasked
    · rw [if_neg hasked]
      exact if_neg hasked

lemma length_bytes_pos : 0 < question.bytes.length := by
  rw [Dns.Question.bytes, length_append, length_cons]
  omega

lemma writeHeader_ne : writeHeader query 1 0 3 ≠ writeHeader query 1 0 0 := by
  intro h
  have hbyte : UInt8.ofNat (0x8000 ||| (Dns.readU16 (query.getD 2 0) (query.getD 3 0) &&& 0x0100) ||| 0x0080 ||| 3) =
      UInt8.ofNat (0x8000 ||| (Dns.readU16 (query.getD 2 0) (query.getD 3 0) &&& 0x0100) ||| 0x0080 ||| 0) :=
    congrArg (fun header => header.getD 3 0) h
  generalize Dns.readU16 (query.getD 2 0) (query.getD 3 0) = flags at hbyte
  have hbit : flags &&& 0x0100 = 0 ∨ flags &&& 0x0100 = 0x0100 := by
    have hpower : flags &&& 2 ^ 8 = (flags.testBit 8).toNat * 2 ^ 8 := Nat.and_two_pow flags 8
    cases hset : flags.testBit 8 with
    | false => exact .inl (by rw [hset] at hpower; exact hpower)
    | true => exact .inr (by rw [hset] at hpower; exact hpower)
  rcases hbit with hbit | hbit
  · rw [hbit] at hbyte
    cases hbyte
  · rw [hbit] at hbyte
    cases hbyte

lemma answer_some_ne_none (address : Native.Address) :
    answer query question (some address) ≠ answer query question none := by
  intro h
  rw [answer, answer] at h
  split_ifs at h with hasked
  · have hlength := congrArg List.length h
    simp only [length_append, length_writeHeader] at hlength
    have hanswer : (addressAnswer address).length = 16 := rfl
    omega
  · exact writeHeader_ne query (append_inj_left' h rfl).symm

/-- What two lookups must agree on for one reply: whether there is an address, and the address where it is asked for. -/
lemma answer_inj_iff {query : Dns.Bytes} {question : Dns.Question} {a b : Option Native.Address} :
    answer query question a = answer query question b ↔
      a.isSome = b.isSome ∧ (Native.Asked question → a = b) := by
  cases a with
  | none =>
    cases b with
    | none => exact ⟨fun _ => ⟨rfl, fun _ => rfl⟩, fun _ => rfl⟩
    | some b => exact ⟨fun h => absurd h.symm (answer_some_ne_none query question b), fun h => nomatch h.1⟩
  | some a =>
    cases b with
    | none => exact ⟨fun h => absurd h (answer_some_ne_none query question a), fun h => nomatch h.1⟩
    | some b =>
      constructor
      · intro h
        refine ⟨rfl, fun hasked => ?_⟩
        rw [answer, answer, if_pos hasked, if_pos hasked] at h
        exact congrArg some (addressAnswer_injective (append_inj_right' h rfl))
      · rintro ⟨-, hsame⟩
        by_cases hasked : Native.Asked question
        · rw [hsame hasked]
        · rw [answer, answer, if_neg hasked, if_neg hasked]

lemma answer_ne_header (found : Option Native.Address) :
    answer query question found ≠ writeHeader query 0 0 1 := by
  intro h
  have hlength := congrArg List.length h
  have hpos := length_bytes_pos question
  cases found with
  | none =>
    rw [answer, length_append, length_writeHeader, length_writeHeader] at hlength
    omega
  | some address =>
    rw [answer] at hlength
    split_ifs at hlength
    · simp only [length_append, length_writeHeader] at hlength
      omega
    · simp only [length_append, length_writeHeader] at hlength
      omega

/-! ## Agreement -/

/-- The daemons agree on a question: its name fits the native buffer, they both have an address or neither has one, and it
is the same one where it is asked for. -/
structure AgreeOn (records : List Nat) (question : Dns.Question) : Prop where
  fits : (Native.dottedName question.labels).length < Native.DNS_NAME_SIZE
  found : (nativeAddress records question).isSome = (nodeAddress lower records question).isSome
  same : Native.Asked question → nativeAddress records question = nodeAddress lower records question

lemma replies_eq_iff {records : List Nat} {served : Native.ServedRecords} (packet : Native.QueryPacket)
    (hserved : ∀ question, served.lookupQuestion question = nativeAddress records question) :
    (sync lower (Node.parseBrowserDnsRecordPairs records)).buildResponse lower packet.bytes =
        reply served packet ↔
      ∀ question, Native.Asks packet [] question → question.labels ≠ [] → AgreeOn lower records question := by
  simp only [asks_nil_iff]
  by_cases hlong : 12 ≤ packet.bytes.length
  · have hroom : packet.bytes.length + 28 ≤ Native.PM_DNS_MAX_RESPONSE := by
      have := packet.received
      rw [Native.PM_DNS_MAX_RESPONSE]
      omega
    rw [reply, buildResponse_eq served hlong hroom, buildResponse_eq lower _ hlong,
      replyHeader_eq, replyHeader_eq]
    change (if questionCount packet.bytes < 1 then _ else _) = _ ↔ _
    by_cases hcount : questionCount packet.bytes < 1
    · rw [if_pos hcount, if_pos hcount]
      exact ⟨fun _ question hasks => absurd hcount hasks.2, fun _ => rfl⟩
    rw [if_neg hcount, if_neg hcount]
    cases hread : Dns.readQuestion (packet.bytes.drop 12) with
    | none =>
      refine ⟨fun _ question hasks => ?_, fun _ => rfl⟩
      obtain ⟨⟨rest, hnone⟩, -⟩ := hasks
      cases hnone
    | some read =>
      obtain ⟨question, rest⟩ := read
      have hfirst : ∀ first, ((∃ rest', some (question, rest) = some (first, rest')) ∧
          ¬ questionCount packet.bytes < 1) ↔ question = first := by
        intro first
        constructor
        · rintro ⟨⟨rest', heq⟩, -⟩
          exact (Prod.mk.inj (some.inj heq)).1
        · rintro rfl
          exact ⟨⟨rest, rfl⟩, hcount⟩
      simp only [hfirst, forall_eq', get?_sync, answer_eq, hserved]
      by_cases hroot : question.labels = []
      · rw [if_pos hroot, if_neg fun hnamed => hnamed.1 hroot]
        exact ⟨fun _ h => absurd hroot h, fun _ => rfl⟩
      rw [if_neg hroot, some_inj]
      by_cases hnamed : Native.Named question
      · rw [if_pos hnamed, answer_inj_iff]
        constructor
        · rintro ⟨hfound, hsame⟩ -
          exact ⟨hnamed.2, hfound.symm, fun hasked => (hsame hasked).symm⟩
        intro h
        obtain ⟨-, hfound, hsame⟩ := h hroot
        exact ⟨hfound.symm, fun hasked => (hsame hasked).symm⟩
      · rw [if_neg hnamed]
        exact ⟨fun h => absurd h (answer_ne_header _ _ _), fun h => absurd ⟨hroot, (h hroot).fits⟩ hnamed⟩
  · have hnone : reply served packet = none := if_pos (.inl (Nat.lt_of_not_le hlong))
    have hnone' : (sync lower (Node.parseBrowserDnsRecordPairs records)).buildResponse lower
        packet.bytes = none := if_pos (Nat.lt_of_not_le hlong)
    rw [hnone, hnone']
    refine ⟨fun _ question hasks => ?_, fun _ => rfl⟩
    have hempty : packet.bytes.drop 12 = [] := drop_eq_nil_of_le (by omega)
    obtain ⟨⟨rest, hread⟩, -⟩ := hasks
    rw [hempty] at hread
    cases hread

def loadedFrom (payload : CText.Text) : Option Native.ServedRecords :=
  (Native.syncPublication payload).map fun publication => Native.buildIndex publication.replacement.records

lemma items_buildIndex (items : List Native.DnsRecord) : (buildIndex items).items = items := by
  unfold buildIndex
  split_ifs
  · rfl
  · rfl

lemma exists_loadedFrom (records : RecordsString) :
    ∃ served, loadedFrom (payloadText records.units) = some served ∧
      ∀ question, served.lookupQuestion question = nativeAddress records.units question := by
  obtain ⟨publication, hpublication, hrecords⟩ := syncPublication_payloadText records.units_lt records.pairs_le
  refine ⟨_, congrArg (Option.map _) hpublication, fun question => ?_⟩
  rw [Native.ServedRecords.lookupQuestion, Native.ServedRecords.lookup_eq, items_buildIndex, hrecords]
  rfl

/-- Loaded from one records string, the daemons reply to a packet with the same bytes exactly when they agree on its first
question, if it has one. -/
theorem replies_identical_iff (records : RecordsString) (packet : Native.QueryPacket) :
    ∃ served, loadedFrom (payloadText records.units) = some served ∧
      ((sync lower (Node.parseBrowserDnsRecordPairs records.units)).buildResponse lower packet.bytes =
          reply served packet ↔
        ∀ question, Native.Asks packet [] question → question.labels ≠ [] → AgreeOn lower records.units question) := by
  obtain ⟨served, hloaded, hserved⟩ := exists_loadedFrom records
  exact ⟨served, hloaded, replies_eq_iff lower packet hserved⟩

end Lower

def duplicateRecords : RecordsString where
  units := JsonText.codes "a=10.0.0.1,a=10.0.0.2"
  units_lt := by decide
  pairs_le := by decide

def singleQuestion : Dns.Question where
  labels := [CText.ascii "a"]
  type := Native.PM_DNS_TYPE_A
  klass := Native.PM_DNS_CLASS_IN
  labelled := by
    intro label hlabel
    rw [List.mem_singleton.mp hlabel]
    exact ⟨by decide, by decide⟩
  type_lt := Native.dottedQuestion.type_lt
  klass_lt := Native.dottedQuestion.klass_lt

def singlePacket : Native.QueryPacket where
  bytes := [0, 7, 1, 0, 0, 1, 0, 0, 0, 0, 0, 0] ++ singleQuestion.bytes
  received := by decide

lemma duplicate_answers_differ {lower : List Nat → List Nat} (hlower : lower (codes "a") = codes "a") :
    ∃ served, loadedFrom (payloadText duplicateRecords.units) = some served ∧
      (sync lower (Node.parseBrowserDnsRecordPairs duplicateRecords.units)).buildResponse lower
        singlePacket.bytes ≠ reply served singlePacket := by
  obtain ⟨served, hloaded, hserved⟩ := exists_loadedFrom duplicateRecords
  refine ⟨served, hloaded, fun heq => ?_⟩
  have hasks : Native.Asks singlePacket [] singleQuestion := ⟨⟨[], rfl⟩, by decide⟩
  have hsame := ((replies_eq_iff lower singlePacket hserved).mp heq singleQuestion hasks (by decide)).same ⟨rfl, .inl rfl⟩
  have hnative : nativeAddress duplicateRecords.units singleQuestion = some ⟨10, 0, 0, 1⟩ := by decide +kernel
  have hnode : nodeAddress lower duplicateRecords.units singleQuestion = some ⟨10, 0, 0, 2⟩ := by
    have htrim : Node.trim (codes "a") = codes "a" := by decide
    have hlabel : Node.normalizeHostname lower (codes "a") = some (codes "a") := by
      simp only [Node.normalizeHostname, htrim, hlower]
      decide
    have hname : Node.normalizeDnsRecordName lower (codes "a") = some (codes "a") := by
      have hparts : (Node.dropLastDot (codes "a")).splitOn 46 = [codes "a"] := by decide
      simp only [Node.normalizeDnsRecordName, htrim, hlower, hparts]
      rw [if_neg (by decide), mapM_cons, hlabel]
      rfl
    have hpairs : Node.parseBrowserDnsRecordPairs duplicateRecords.units =
        [(codes "a", codes "10.0.0.1"), (codes "a", codes "10.0.0.2")] := by decide
    have haddress : (Node.parseIpv4Address (codes "10.0.0.1")).bind toAddress = some ⟨10, 0, 0, 1⟩ ∧
        (Node.parseIpv4Address (codes "10.0.0.2")).bind toAddress = some ⟨10, 0, 0, 2⟩ := by decide
    have hquery : Node.normalizeDnsQueryName lower (Node.questionName singleQuestion) = codes "a" := hlower
    rw [nodeAddress, hpairs, hquery]
    simp only [filterMap_cons, filterMap_nil, nodeRecord, hname, haddress]
    rfl
  rw [hnative, hnode] at hsame
  cases hsame

/-- A letter in lower case stays as it is, so `id` stands for `toLowerCase` here. -/
theorem duplicate_name_answered_differently :
    ∃ served, loadedFrom (payloadText duplicateRecords.units) = some served ∧
      (sync id (Node.parseBrowserDnsRecordPairs duplicateRecords.units)).buildResponse id
        singlePacket.bytes ≠ reply served singlePacket :=
  duplicate_answers_differ rfl

end PortManager
