import PortManager.Base.DnsWire
import PortManager.Base.Search
import PortManager.Base.SplitText
import PortManager.Native.DnsRecords

/-!
# The native DNS responder

Embeds the responder of `native/agent/portmanager_agent_dns.c`: the sorted index over the records
(`pm_dns_build_index`), the lookup (`pm_dns_lookup`), the question it reads (`pm_dns_parse_question`) and the reply
(`pm_dns_build_response`).

The name of a question is one C string: labels joined by dots, in lower case, up to the first NUL. A label may have dots
and NUL bytes of its own, so two questions with different labels can be one name (`answers_by_labels_iff`).
-/

namespace PortManager.Native
open CText List Dns SplitText

def PM_DNS_MAX_PACKET : Nat := 1500
def PM_DNS_MAX_RESPONSE : Nat := PM_DNS_MAX_PACKET + 32
def PM_DNS_TYPE_A : Nat := 1
def PM_DNS_TYPE_ANY : Nat := 255
def PM_DNS_CLASS_IN : Nat := 1
def PM_DNS_RESPONSE_TTL_SECONDS : Nat := 1

/-- `char name[256]` of C `pm_dns_build_response`. -/
def DNS_NAME_SIZE : Nat := 256

/-! ## Lookup -/

variable (record : DnsRecord)

/-- What `strcmp` orders records by: it compares unsigned bytes. -/
def DnsRecord.key : List Nat := octets record.hostname

/-- The records of the worker. There is no index when there are no records, or when it could not be allocated at the
start; otherwise it is what `qsort` makes of pointers to all records. -/
structure ServedRecords where
  items : List DnsRecord
  index : Option (List (DnsRecord × Nat))
  built : ∀ sorted ∈ index, sorted = Search.sortedRows DnsRecord.key items

/-- C `pm_dns_build_index`. -/
def buildIndex (items : List DnsRecord) : ServedRecords :=
  if items = [] then ⟨items, none, fun _ h => absurd h (Option.not_mem_none _)⟩
  else ⟨items, some (Search.sortedRows DnsRecord.key items), fun _ h => (Option.some.inj h).symm⟩

variable (served : ServedRecords)

/-- C `pm_dns_lookup`. -/
def ServedRecords.lookup (hostname : Text) : Option Address :=
  match served.index with
  | some index => (Search.findRow DnsRecord.key index (octets hostname)).map DnsRecord.address
  | none => (served.items.find? fun record => record.hostname = hostname).map DnsRecord.address

/-! ## Questions -/

def appendLabel (name label : Text) : Text := (if 0 < name.length then name ++ [46] else name) ++ label.map tolower

/-- The loop of C `pm_dns_parse_question` on the bytes from the cursor on, with the name it has written. -/
def parseNameLoop : Nat → Text → Text → Option (Text × Text)
  | 0, _, _ => none
  | _ + 1, [], name => some (name, [])
  | fuel + 1, length :: rest, name =>
    if length = 0 then some (name, rest)
    else if length &&& 0xc0 ≠ 0 ∨ rest.length < length.toNat then none
    else if DNS_NAME_SIZE < name.length + length.toNat + 2 then none
    else parseNameLoop fuel (rest.drop length.toNat) (appendLabel name (rest.take length.toNat))

/-- What C `pm_dns_parse_question` writes; `name` is the buffer up to `name_length`. -/
structure ParsedQuestion where
  name : Text
  type : Nat
  klass : Nat
  endOffset : Nat

/-- C `pm_dns_parse_question`. -/
def parseQuestion (packet : Text) : Option ParsedQuestion :=
  match parseNameLoop ((packet.drop 12).length + 1) (packet.drop 12) [] with
  | some (name, typeHigh :: typeLow :: classHigh :: classLow :: rest) =>
    if name.length = 0 then none
    else some ⟨name, Dns.readU16 typeHigh typeLow, Dns.readU16 classHigh classLow, packet.length - rest.length⟩
  | _ => none

/-! ## Replies -/

def questionCount (query : Text) : Nat := Dns.readU16 (query.getD 4 0) (query.getD 5 0)

/-- C `pm_dns_write_header`. -/
def writeHeader (query : Text) (questionCount answerCount responseCode : Nat) : Text :=
  let requestFlags := Dns.readU16 (query.getD 2 0) (query.getD 3 0)
  let responseFlags := 0x8000 ||| (requestFlags &&& 0x0100) ||| 0x0080 ||| (responseCode &&& 0x000f)
  [query.getD 0 0, query.getD 1 0] ++ Dns.u16 responseFlags ++ Dns.u16 questionCount ++ Dns.u16 answerCount ++
    [0, 0, 0, 0]

/-- The A answer: a pointer to the name of the question, class IN, and four bytes of address. -/
def addressAnswer (address : Address) : Text :=
  [0xc0, 0x0c, 0, .ofNat PM_DNS_TYPE_A, 0, .ofNat PM_DNS_CLASS_IN, 0, 0, 0, .ofNat PM_DNS_RESPONSE_TTL_SECONDS, 0, 4,
    address.first, address.second, address.third, address.fourth]

/-- C `pm_dns_build_response`, `none` when it returns 0 and the worker sends nothing. -/
def buildResponse (query : Text) (responseSize : Nat) : Option Text :=
  if query.length < 12 ∨ responseSize < query.length + 28 then none
  else if questionCount query < 1 then some (writeHeader query 0 0 0)
  else
    match parseQuestion query with
    | none => some (writeHeader query 0 0 1)
    | some question =>
      let echoed := (query.drop 12).take (question.endOffset - 12)
      -- `strcmp` reads the name up to its first NUL
      match served.lookup (question.name.takeWhile (· != 0)) with
      | none => some (writeHeader query 1 0 3 ++ echoed)
      | some address =>
        if question.klass ≠ PM_DNS_CLASS_IN ∨ (question.type ≠ PM_DNS_TYPE_A ∧ question.type ≠ PM_DNS_TYPE_ANY) then
          some (writeHeader query 1 0 0 ++ echoed)
        else some (writeHeader query 1 1 0 ++ echoed ++ addressAnswer address)

/-- A datagram in the buffer of C `pm_dns_handle_readable`. -/
structure QueryPacket where
  bytes : Text
  received : bytes.length ≤ PM_DNS_MAX_PACKET

def reply (packet : QueryPacket) : Option Text :=
  buildResponse served packet.bytes PM_DNS_MAX_RESPONSE

/-! ## Lookup finds the earliest record -/

lemma octets_injective {a b : Text} (h : octets a = octets b) : a = b :=
  map_injective_iff.mpr (fun _ _ => UInt8.toNat_inj.mp) h

lemma ServedRecords.lookup_eq (hostname : Text) :
    served.lookup hostname = (served.items.find? fun record => record.hostname = hostname).map DnsRecord.address := by
  unfold lookup
  split
  next index hindex =>
    rw [served.built index hindex, Search.findRow_sortedRows]
    congr 2
    funext record
    exact decide_eq_decide.mpr ⟨octets_injective, congrArg octets⟩
  next => rfl

/-! ## The name of a question -/

def lowered (labels : List Text) : List Text := labels.map fun label => label.map tolower

/-- The name that C `pm_dns_parse_question` writes for some labels. -/
def dottedName (labels : List Text) : Text := [46].intercalate (lowered labels)

/-- A name of some labels, each behind a dot. -/
def dottedRest (labels : List Text) : Text := labels.flatMap fun label => 46 :: label.map tolower

lemma dottedName_cons (label : Text) (labels : List Text) :
    dottedName (label :: labels) = label.map tolower ++ dottedRest labels := by
  induction labels generalizing label with
  | nil => exact (append_nil _).symm ▸ intercalate_singleton
  | cons next labels ih =>
    have hnext := ih next
    simp only [dottedName, lowered, dottedRest, map_cons, flatMap_cons] at hnext ⊢
    rw [intercalate_cons_cons, hnext, append_assoc]
    rfl

variable {name query : Text} {question : Dns.Question} {address : Address} {b : UInt8}
    {served : ServedRecords} {packet : QueryPacket}

lemma length_appendLabel (hname : 0 < name.length) (label : Text) :
    (appendLabel name label).length = name.length + label.length + 1 := by
  rw [appendLabel, if_pos hname, length_append, length_append, length_map, length_singleton]
  omega

lemma appendLabel_append (hname : 0 < name.length) (label : Text) (labels : List Text) :
    appendLabel name label ++ dottedRest labels = name ++ dottedRest (label :: labels) := by
  rw [appendLabel, if_pos hname, append_assoc, append_assoc]
  rfl

/-- The loop writes the labels behind the name it has, as long as there is room. -/
lemma parseNameLoop_eq_readLabels {fuel : Nat} {bytes : Text} (hname : 0 < name.length)
    (hroom : name.length < DNS_NAME_SIZE) :
    parseNameLoop fuel bytes name = (readLabels fuel bytes).bind fun read =>
      if (name ++ dottedRest read.1).length < DNS_NAME_SIZE then some (name ++ dottedRest read.1, read.2) else none := by
  induction fuel generalizing bytes name with
  | zero => rfl
  | succ fuel ih =>
    cases bytes with
    | nil => simp [parseNameLoop, readLabels, dottedRest, hroom]
    | cons length bytes =>
      rw [parseNameLoop, readLabels]
      split_ifs with hzero hrefused hlong
      · simp [dottedRest, hroom]
      · rfl
      · -- the rest of the name only makes it longer
        symm
        rw [Option.bind_eq_none_iff]
        intro read hread
        obtain ⟨read', -, rfl⟩ := Option.map_eq_some_iff.mp hread
        refine if_neg ?_
        have htake : (bytes.take length.toNat).length = length.toNat := length_take_of_le (by omega)
        simp only [dottedRest, flatMap_cons, length_append, length_cons, length_map, htake]
        omega
      · have htake : (bytes.take length.toNat).length = length.toNat := length_take_of_le (by omega)
        have hlabel := length_appendLabel hname (bytes.take length.toNat)
        rw [ih (by omega) (by omega), Option.bind_map]
        simp only [appendLabel_append hname]
        rfl

lemma parseNameLoop_eq (fuel : Nat) (bytes : Text) :
    parseNameLoop fuel bytes [] = (readLabels fuel bytes).bind fun read =>
      if (dottedName read.1).length < DNS_NAME_SIZE then some (dottedName read.1, read.2) else none := by
  cases fuel with
  | zero => rfl
  | succ fuel =>
    cases bytes with
    | nil => rfl
    | cons length bytes =>
      rw [parseNameLoop, readLabels]
      split_ifs with hzero hrefused hlong
      · rfl
      · rfl
      · rw [isPointer_iff, DNS_NAME_SIZE, length_nil] at *
        omega
      rw [isPointer_iff] at hrefused
      have htake : (bytes.take length.toNat).length = length.toNat := length_take_of_le (by omega)
      have hpositive : 0 < length.toNat := by
        refine pos_of_ne_zero fun heq => hzero ?_
        rw [← UInt8.toNat_inj]
        exact heq
      have hlabel : (appendLabel [] (bytes.take length.toNat)).length = length.toNat :=
        (length_map _).trans htake
      rw [parseNameLoop_eq_readLabels (by omega) (by rw [hlabel, DNS_NAME_SIZE]; omega), Option.bind_map]
      congr 1
      funext read
      simp only [Function.comp_apply, dottedName_cons]
      rfl

lemma dottedName_eq_nil_iff : dottedName question.labels = [] ↔ question.labels = [] := by
  constructor
  · intro h
    cases hlabels : question.labels with
    | nil => rfl
    | cons label labels =>
      rw [hlabels, dottedName_cons, append_eq_nil_iff, map_eq_nil_iff] at h
      have hlabel := question.labelled label (by rw [hlabels]; exact mem_cons_self)
      exact absurd hlabel.1 (by rw [h.1]; decide)
  · intro h
    rw [h]
    rfl

def Named (question : Dns.Question) : Prop :=
  question.labels ≠ [] ∧ (dottedName question.labels).length < DNS_NAME_SIZE

instance (question : Dns.Question) : Decidable (Named question) := inferInstanceAs (Decidable (_ ∧ _))

lemma parseQuestion_eq {packet : Text} (hpacket : 12 ≤ packet.length) :
    parseQuestion packet = (readQuestion (packet.drop 12)).bind fun read =>
      if Named read.1 then
        some ⟨dottedName read.1.labels, read.1.type, read.1.klass, 12 + read.1.bytes.length⟩
      else none := by
  cases hread : readQuestion (packet.drop 12) with
  | none =>
    rw [Option.bind_none, parseQuestion, parseNameLoop_eq]
    cases hlabels : readLabels ((packet.drop 12).length + 1) (packet.drop 12) with
    | none => rfl
    | some read =>
      obtain ⟨labels, rest⟩ := read
      rw [Option.bind_some]
      split_ifs with hlong
      · split
        next name typeHigh typeLow classHigh classLow rest' heq =>
          cases heq
          obtain ⟨question, hquestion⟩ := exists_question_of_readLabels hlabels
          exact absurd (hread.symm.trans hquestion) (Option.some_ne_none _).symm
        next => rfl
      · rfl
  | some read =>
    obtain ⟨question, rest⟩ := read
    have hbytes := readQuestion_eq_some_iff.mp hread
    have hend : packet.length - rest.length = 12 + question.bytes.length := by
      have hlength := congrArg List.length hbytes
      rw [length_drop, length_append] at hlength
      omega
    rw [Option.bind_some, parseQuestion, parseNameLoop_eq, hbytes, readLabels_bytes, Option.bind_some]
    simp only [Named, ne_eq, ← dottedName_eq_nil_iff]
    by_cases hlong : (dottedName question.labels).length < DNS_NAME_SIZE
    · rw [if_pos hlong]
      simp only [u16, cons_append, nil_append, length_eq_zero_iff,
        readU16_u16 question.type_lt, readU16_u16 question.klass_lt, hend, and_true, hlong, ite_not]
    · rw [if_neg hlong, if_neg fun h => hlong h.2]

/-! ## The reply to a question -/

def Asked (question : Dns.Question) : Prop :=
  question.klass = PM_DNS_CLASS_IN ∧ (question.type = PM_DNS_TYPE_A ∨ question.type = PM_DNS_TYPE_ANY)

instance (question : Dns.Question) : Decidable (Asked question) := inferInstanceAs (Decidable (_ ∧ _))

def answer (query : Text) (question : Dns.Question) : Option Address → Text
  | none => writeHeader query 1 0 3 ++ question.bytes
  | some address =>
    if Asked question then writeHeader query 1 1 0 ++ question.bytes ++ addressAnswer address
    else writeHeader query 1 0 0 ++ question.bytes

def ServedRecords.lookupQuestion (served : ServedRecords) (question : Dns.Question) : Option Address :=
  served.lookup ((dottedName question.labels).takeWhile (· != 0))

lemma buildResponse_eq (served : ServedRecords) {size : Nat} (hlong : 12 ≤ query.length)
    (hroom : query.length + 28 ≤ size) :
    buildResponse served query size = some (
      if questionCount query < 1 then writeHeader query 0 0 0
      else
        match readQuestion (query.drop 12) with
        | none => writeHeader query 0 0 1
        | some (question, _) =>
          if Named question then answer query question (served.lookupQuestion question) else writeHeader query 0 0 1) := by
  rw [buildResponse, if_neg (by omega), parseQuestion_eq hlong]
  by_cases hcount : questionCount query < 1
  · rw [if_pos hcount, if_pos hcount]
  rw [if_neg hcount, if_neg hcount]
  cases hread : readQuestion (query.drop 12) with
  | none => rfl
  | some read =>
    obtain ⟨question, rest⟩ := read
    have hechoed : (query.drop 12).take (12 + question.bytes.length - 12) = question.bytes := by
      rw [readQuestion_eq_some_iff.mp hread, Nat.add_sub_cancel_left, take_left]
    by_cases hnamed : Named question
    · simp only [Option.bind_some, if_pos hnamed, hechoed, ServedRecords.lookupQuestion]
      cases served.lookup ((dottedName question.labels).takeWhile (· != 0)) with
      | none => rfl
      | some address =>
        simp only [answer]
        by_cases hasked : Asked question
        · rw [if_pos hasked, if_neg]
          rintro (hklass | ⟨hA, hAny⟩)
          · exact hklass hasked.1
          · exact hasked.2.elim hA hAny
        · rw [if_neg hasked, if_pos]
          by_contra hnot
          obtain ⟨hklass, htype⟩ := not_or.mp hnot
          exact hasked ⟨not_not.mp hklass, or_iff_not_imp_left.mpr fun hA => not_not.mp fun hAny => htype ⟨hA, hAny⟩⟩
    · simp only [Option.bind_some, if_neg hnamed]

lemma answerCount_writeHeader (query : Text) (questionCount answerCount responseCode : Nat) (rest : Text) :
    ((writeHeader query questionCount answerCount responseCode ++ rest).drop 6).take 2 = u16 answerCount := rfl

lemma length_writeHeader (query : Text) (questionCount answerCount responseCode : Nat) :
    (writeHeader query questionCount answerCount responseCode).length = 12 := rfl

lemma addressAnswer_injective {a b : Address} (h : addressAnswer a = addressAnswer b) : a = b := by
  obtain ⟨a1, a2, a3, a4⟩ := a
  obtain ⟨b1, b2, b3, b4⟩ := b
  simp only [addressAnswer, List.cons.injEq, true_and, and_true] at h
  obtain ⟨rfl, rfl, rfl, rfl⟩ := h
  rfl

/-- A reply with one answer, the address at its end. -/
def PutsAnswer (response : Option Text) (address : Address) : Prop :=
  ∃ front, response = some (front ++ addressAnswer address) ∧ 12 ≤ front.length ∧ (front.drop 6).take 2 = Dns.u16 1

lemma not_putsAnswer {rest : Text} {questionCount responseCode : Nat} :
    ¬ PutsAnswer (some (writeHeader query questionCount 0 responseCode ++ rest)) address := by
  rintro ⟨front, hresponse, hlong, hcount⟩
  have hdrop : ((front ++ addressAnswer address).drop 6).take 2 = (front.drop 6).take 2 := by
    rw [drop_append_of_le_length (by omega), take_append_of_le_length (by rw [length_drop]; omega)]
  rw [← hdrop, ← Option.some.inj hresponse, answerCount_writeHeader] at hcount
  cases hcount

lemma putsAnswer_answer_iff {found : Option Address} :
    PutsAnswer (some (answer query question found)) address ↔ Asked question ∧ found = some address := by
  cases found with
  | none => exact ⟨fun h => absurd h not_putsAnswer, fun h => nomatch h.2⟩
  | some a =>
    rw [answer]
    by_cases hasked : Asked question
    · rw [if_pos hasked]
      constructor
      · rintro ⟨front, hresponse, -, -⟩
        have hend := append_inj_right' (Option.some.inj hresponse) rfl
        exact ⟨hasked, congrArg some (addressAnswer_injective hend)⟩
      · rintro ⟨-, hsame⟩
        cases hsame
        exact ⟨_, rfl, by rw [length_append, length_writeHeader]; omega, rfl⟩
    · rw [if_neg hasked]
      exact ⟨fun h => absurd h not_putsAnswer, fun h => absurd h.1 hasked⟩

/-! ## Labels -/

def DnsRecord.labels : List Text := record.hostname.splitOn 46

/-- The address of the earliest record with some labels, in any case. -/
def ServedRecords.earliest (served : ServedRecords) (labels : List Text) : Option Address :=
  (served.items.find? fun record => lowered record.labels = lowered labels).map DnsRecord.address

def PlainLabels (labels : List Text) : Prop := ∀ label ∈ labels, 46 ∉ label ∧ 0 ∉ label

lemma tolower_eq_iff {c : UInt8} : (tolower c = 46 ↔ c = 46) ∧ (tolower c = 0 ↔ c = 0) := by
  have hall : ∀ n : Fin 256, (tolower (.ofNat n.val) = 46 ↔ UInt8.ofNat n.val = 46) ∧
      (tolower (.ofNat n.val) = 0 ↔ UInt8.ofNat n.val = 0) := by decide +kernel
  have h := hall ⟨c.toNat, c.toNat_lt⟩
  rwa [UInt8.ofNat_toNat] at h

variable {labels : List Text}

lemma plainLabels_lowered_iff : PlainLabels (lowered labels) ↔ PlainLabels labels := by
  have hlabel : ∀ (label : Text) (c : UInt8), (∀ b, tolower b = c ↔ b = c) → (c ∈ label.map tolower ↔ c ∈ label) := by
    intro label c hc
    rw [mem_map]
    constructor
    · rintro ⟨b, hb, heq⟩
      exact (hc b).mp heq ▸ hb
    · intro hmem
      exact ⟨c, hmem, (hc c).mpr rfl⟩
  simp only [PlainLabels, lowered, forall_mem_map, hlabel _ 46 fun _ => tolower_eq_iff.1,
    hlabel _ 0 fun _ => tolower_eq_iff.2]

lemma isLabelByte_of_mem_labels {record : DnsRecord} {label : Text} (hlabel : label ∈ record.labels)
    (hb : b ∈ label) : isLabelByte b := by
  rcases (normalizeHostname_spec record.normalized).1 b (mem_of_mem_splitOn hlabel hb) with rfl | hbyte
  · exact absurd hb (not_mem_of_mem_splitOn hlabel)
  · exact hbyte

lemma DnsRecord.lowered_labels : lowered record.labels = record.labels := by
  have hlabel : ∀ label ∈ record.labels, label.map tolower = label := by
    intro label hlabel
    exact map_congr_left (fun b hb => tolower_of_isLabelByte (isLabelByte_of_mem_labels hlabel hb)) |>.trans
      (map_id' _)
  exact (map_congr_left hlabel).trans (map_id' _)

lemma DnsRecord.plainLabels : PlainLabels record.labels := by
  intro label hlabel
  refine ⟨not_mem_of_mem_splitOn hlabel, fun hzero => ?_⟩
  exact absurd (isLabelByte_of_mem_labels hlabel hzero) (by decide)

lemma mem_dottedRest (hb : b ∈ dottedRest labels) : b = 46 ∨ ∃ label ∈ lowered labels, b ∈ label := by
  obtain ⟨label, hlabel, hb⟩ := mem_flatMap.mp hb
  rcases mem_cons.mp hb with rfl | hb
  · exact .inl rfl
  · exact .inr ⟨_, mem_map_of_mem hlabel, hb⟩

lemma cut_dottedName (hplain : PlainLabels labels) : (dottedName labels).takeWhile (· != 0) = dottedName labels := by
  have hlowered := plainLabels_lowered_iff.mpr hplain
  refine takeWhile_eq_self_iff.mpr fun b hb => bne_iff_ne.mpr ?_
  rintro rfl
  cases labels with
  | nil => cases hb
  | cons label labels =>
    rw [dottedName_cons] at hb
    rcases mem_append.mp hb with hb | hb
    · exact (hlowered _ mem_cons_self).2 hb
    rcases mem_dottedRest hb with hdot | ⟨other, hother, hb⟩
    · cases hdot
    · exact (hlowered other (mem_cons_of_mem _ hother)).2 hb

lemma hostname_eq_iff (hplain : PlainLabels labels) (record : DnsRecord) :
    record.hostname = (dottedName labels).takeWhile (· != 0) ↔ lowered record.labels = lowered labels := by
  rw [cut_dottedName hplain, record.lowered_labels]
  by_cases hlabels : labels = []
  · subst hlabels
    exact ⟨fun h => absurd h (normalizeHostname_spec record.normalized).2.1, fun h => absurd h (splitOn_ne_nil _ _)⟩
  have hpieces : ∀ piece ∈ lowered labels, 46 ∉ piece := fun piece hpiece =>
    (plainLabels_lowered_iff.mpr hplain piece hpiece).1
  exact (splitOn_eq_iff hpieces (map_eq_nil_iff.not.mpr hlabels)).symm

lemma ServedRecords.lookupQuestion_eq_earliest (served : ServedRecords) (hplain : PlainLabels question.labels) :
    served.lookupQuestion question = served.earliest question.labels := by
  rw [lookupQuestion, lookup_eq, earliest]
  congr 2
  funext record
  exact decide_eq_decide.mpr (hostname_eq_iff hplain record)

lemma plain_and_named_of_earliest (h : served.earliest question.labels = some address) :
    PlainLabels question.labels ∧ Named question := by
  obtain ⟨record, hfind, -⟩ := Option.map_eq_some_iff.mp h
  have hfound := find?_some hfind
  have hlabels : lowered record.labels = lowered question.labels := of_decide_eq_true hfound
  have hplain : PlainLabels question.labels := by
    rw [← plainLabels_lowered_iff, ← hlabels, record.lowered_labels]
    exact record.plainLabels
  have hname := (hostname_eq_iff hplain record).mpr hlabels
  rw [cut_dottedName hplain] at hname
  obtain ⟨-, hne, hlength⟩ := normalizeHostname_spec record.normalized
  rw [hname] at hne hlength
  refine ⟨hplain, fun hnil => hne (dottedName_eq_nil_iff.mpr hnil), ?_⟩
  rw [DNS_NAME_SIZE]
  omega

/-! ## Answers by labels -/

/-- The question section of a packet has some questions, and then this one. -/
structure Asks (packet : QueryPacket) (before : List Dns.Question) (question : Dns.Question) : Prop where
  written : ∃ rest, packet.bytes.drop 12 = (before ++ [question]).flatMap Dns.Question.bytes ++ rest
  counted : before.length < questionCount packet.bytes

/-- What the responder takes a question for: its labels as one C string. -/
def ServedRecords.takenFor (served : ServedRecords) (question : Dns.Question) : Option Address :=
  if Named question then served.lookupQuestion question else none

lemma ServedRecords.takenFor_of_earliest (h : served.earliest question.labels = some address) :
    served.takenFor question = some address := by
  obtain ⟨hplain, hnamed⟩ := plain_and_named_of_earliest h
  rw [takenFor, if_pos hnamed, served.lookupQuestion_eq_earliest hplain, h]

lemma ServedRecords.earliest_of_takenFor (hplain : PlainLabels question.labels)
    (h : served.takenFor question = some address) : served.earliest question.labels = some address := by
  rw [takenFor] at h
  split_ifs at h
  rwa [served.lookupQuestion_eq_earliest hplain] at h

lemma asks_nil_iff :
    Asks packet [] question ↔ (∃ rest, readQuestion (packet.bytes.drop 12) = some (question, rest)) ∧
      ¬ questionCount packet.bytes < 1 := by
  have hbytes : [question].flatMap Dns.Question.bytes = question.bytes := flatMap_singleton ..
  constructor
  · rintro ⟨⟨rest, hwritten⟩, hcounted⟩
    rw [nil_append, hbytes] at hwritten
    exact ⟨⟨rest, readQuestion_eq_some_iff.mpr hwritten⟩, not_lt.mpr hcounted⟩
  · rintro ⟨⟨rest, hread⟩, hcounted⟩
    refine ⟨⟨rest, ?_⟩, not_lt.mp hcounted⟩
    rw [nil_append, hbytes]
    exact readQuestion_eq_some_iff.mp hread

lemma Asks.first {first question : Dns.Question} {before : List Dns.Question}
    (h : Asks packet (first :: before) question) : Asks packet [] first := by
  obtain ⟨⟨rest, hwritten⟩, hcounted⟩ := h
  refine ⟨⟨(before ++ [question]).flatMap Dns.Question.bytes ++ rest, ?_⟩, Nat.zero_lt_of_lt hcounted⟩
  rw [hwritten, cons_append, flatMap_cons, append_assoc, nil_append, flatMap_singleton]

lemma Asks.first_unique {first other : Dns.Question} (h : Asks packet [] first)
    (h' : Asks packet [] other) : first = other := by
  obtain ⟨rest, hread⟩ := (asks_nil_iff.mp h).1
  obtain ⟨rest', hread'⟩ := (asks_nil_iff.mp h').1
  exact (Prod.mk.inj (Option.mem_unique hread hread')).1

lemma putsAnswer_reply_iff :
    PutsAnswer (reply served packet) address ↔
      ∃ first, Asks packet [] first ∧ Asked first ∧ served.takenFor first = some address := by
  simp only [asks_nil_iff]
  by_cases hlong : 12 ≤ packet.bytes.length
  · have hroom : packet.bytes.length + 28 ≤ PM_DNS_MAX_RESPONSE := by
      have := packet.received
      rw [PM_DNS_MAX_RESPONSE]
      omega
    rw [reply, buildResponse_eq served hlong hroom]
    by_cases hcount : questionCount packet.bytes < 1
    · rw [if_pos hcount, ← append_nil (writeHeader ..)]
      exact ⟨fun h => absurd h not_putsAnswer, fun ⟨_, h, _⟩ => absurd hcount h.2⟩
    rw [if_neg hcount]
    cases hread : readQuestion (packet.bytes.drop 12) with
    | none =>
      rw [← append_nil (writeHeader packet.bytes 0 0 1)]
      exact ⟨fun h => absurd h not_putsAnswer, fun ⟨_, h, _⟩ => by obtain ⟨_, h⟩ := h.1; cases h⟩
    | some read =>
      obtain ⟨question, rest⟩ := read
      have hfirst : ∀ first, (∃ rest', some (question, rest) = some (first, rest')) ↔ question = first := by
        intro first
        constructor
        · rintro ⟨rest', heq⟩
          exact (Prod.mk.inj (Option.some.inj heq)).1
        · rintro rfl
          exact ⟨rest, rfl⟩
      simp only [hfirst, hcount, not_false_eq_true, and_true, exists_eq_left', ServedRecords.takenFor]
      by_cases hnamed : Named question
      · rw [if_pos hnamed, if_pos hnamed]
        exact putsAnswer_answer_iff
      · rw [if_neg hnamed, if_neg hnamed, ← append_nil (writeHeader packet.bytes 0 0 1)]
        exact ⟨fun h => absurd h not_putsAnswer, fun h => nomatch h.2⟩
  · have hnone : reply served packet = none := if_pos (.inl (Nat.lt_of_not_le hlong))
    rw [hnone]
    constructor
    · rintro ⟨front, hresponse, -⟩
      cases hresponse
    rintro ⟨first, ⟨⟨rest, hread⟩, -⟩, -⟩
    have hempty : packet.bytes.drop 12 = [] := drop_eq_nil_of_le (by omega)
    rw [hempty] at hread
    cases hread

/-- The reply has an A answer with an address exactly when a question of class IN and type A or ANY has the labels of a
record, in any case, and the earliest such record has that address: if and only if dots and NUL bytes in its labels do not
make the first question one for a record (or a later question asks for the same address), and no later question asks for
what the first one is not answered with. -/
theorem answers_by_labels_iff (served : ServedRecords) (packet : QueryPacket) :
    (∀ address, PutsAnswer (reply served packet) address ↔
      ∃ before question, Asks packet before question ∧ Asked question ∧
        served.earliest question.labels = some address) ↔
    ∀ first, Asks packet [] first →
      (Asked first → ∀ address, served.takenFor first = some address → PlainLabels first.labels ∨
        ∃ before question, Asks packet (first :: before) question ∧ Asked question ∧
          served.earliest question.labels = some address) ∧
      (∀ before question address, Asks packet (first :: before) question → Asked question →
        served.earliest question.labels = some address → Asked first ∧ served.takenFor first = some address) := by
  constructor
  · intro h first hfirst
    refine ⟨fun hasked address htaken => ?_, fun before question address hasks hasked hearliest => ?_⟩
    · obtain ⟨before, question, hasks, hasked', hearliest⟩ :=
        (h address).mp (putsAnswer_reply_iff.mpr ⟨first, hfirst, hasked, htaken⟩)
      cases before with
      | nil =>
        obtain rfl := hasks.first_unique hfirst
        exact .inl (plain_and_named_of_earliest hearliest).1
      | cons other before =>
        obtain rfl := hasks.first.first_unique hfirst
        exact .inr ⟨before, question, hasks, hasked', hearliest⟩
    · obtain ⟨other, hother, hasked', htaken⟩ :=
        putsAnswer_reply_iff.mp ((h address).mpr ⟨_, question, hasks, hasked, hearliest⟩)
      obtain rfl := hother.first_unique hfirst
      exact ⟨hasked', htaken⟩
  · intro h address
    constructor
    · intro hputs
      obtain ⟨first, hfirst, hasked, htaken⟩ := putsAnswer_reply_iff.mp hputs
      rcases (h first hfirst).1 hasked address htaken with hplain | ⟨before, question, hlater⟩
      · exact ⟨[], first, hfirst, hasked, ServedRecords.earliest_of_takenFor hplain htaken⟩
      · exact ⟨first :: before, question, hlater⟩
    rintro ⟨before, question, hasks, hasked, hearliest⟩
    rw [putsAnswer_reply_iff]
    cases before with
    | nil => exact ⟨question, hasks, hasked, ServedRecords.takenFor_of_earliest hearliest⟩
    | cons first before =>
      obtain ⟨hasked', htaken⟩ := (h first hasks.first).2 before question address hasks hasked hearliest
      exact ⟨first, hasks.first, hasked', htaken⟩

def sampleRecord : DnsRecord := ⟨ascii "a.b", ⟨10, 0, 0, 1⟩, by decide +kernel⟩

def dottedQuestion : Dns.Question where
  labels := [ascii "a.b"]
  type := PM_DNS_TYPE_A
  klass := PM_DNS_CLASS_IN
  labelled := by
    intro label hlabel
    rw [List.mem_singleton.mp hlabel]
    exact ⟨by decide, by decide⟩
  type_lt := by decide
  klass_lt := by decide

def dottedPacket : QueryPacket where
  bytes := [0, 7, 1, 0, 0, 1, 0, 0, 0, 0, 0, 0] ++ dottedQuestion.bytes
  received := by decide

/-- The label `a.b` is answered with the address of the labels `a` and `b`. -/
theorem dotted_label_answered :
    PutsAnswer (reply (buildIndex [sampleRecord]) dottedPacket) sampleRecord.address ∧
      ¬ ∃ before question, Asks dottedPacket before question ∧ Asked question ∧
        (buildIndex [sampleRecord]).earliest question.labels = some sampleRecord.address := by
  have hfirst : Asks dottedPacket [] dottedQuestion := ⟨⟨[], rfl⟩, by decide⟩
  refine ⟨putsAnswer_reply_iff.mpr ⟨dottedQuestion, hfirst, ⟨rfl, .inl rfl⟩, by decide +kernel⟩, ?_⟩
  rintro ⟨before, question, hasks, -, hearliest⟩
  have hone : questionCount dottedPacket.bytes = 1 := rfl
  have hcounted := hasks.counted
  obtain rfl : before = [] := eq_nil_of_length_eq_zero (by omega)
  obtain rfl := hasks.first_unique hfirst
  exact absurd hearliest (by decide +kernel)

end PortManager.Native
