import PortManager.Base.JsonPrinting
import PortManager.Base.Method
import PortManager.Node.RoutePaths
import PortManager.Node.SharedState

/-!
# The message buffer

Embeds the framing of the agent protocol (`src/agent/protocol.ts`): `encodeAgentMessage`, `decodeAgentMessage` and
`NdjsonMessageBuffer`. A message is one JSON text on a line of its own. The buffer keeps the incomplete last line as
text, so every chunk is decoded when it arrives: a character that two chunks share does not survive
(`messages_received_iff`).
-/

namespace PortManager.Node
open JsonText Utf8 List Json Method

/-! ## Messages -/

/-- A value that `JSON.stringify` prints and `JSON.parse` builds: its numbers are printed as JSON numbers, its strings
have code units, and no object has a name twice. -/
structure Message where
  json : Json
  printable : json.Printable
  distinct : json.settled = json

def encodeAgentMessage (json : Json) : List Nat := json.stringify ++ [10]

inductive ProtocolError where
  | emptyFrame
  | syntaxError
deriving DecidableEq

/-- `JSON.parse`; `none` when it throws. -/
def jsonParse (text : List Nat) : Option Json :=
  (document none (text.length + 2) text).map fun json => (json.mapStrings stringValue).settled

/-! ## The buffer -/

structure NdjsonMessageBuffer where
  pendingText : List Nat

/-- A method: what it throws or returns, and the buffer it leaves. -/
abbrev BufferM : Type → Type := ExceptT ProtocolError (StateM NdjsonMessageBuffer)

def decodeAgentMessage (line : List Nat) : BufferM Json :=
  if trim line = [] then throw .emptyFrame
  else
    match jsonParse (trim line) with
    | none => throw .syntaxError
    | some json => return json

/-- A line without the carriage return that belongs to its separator. -/
def dropReturn (line : List Nat) : List Nat := if line.getLast? = some 13 then line.dropLast else line

/-- `text.split(/\r?\n/)`: the lines, and what is behind the last separator. -/
def splitLines (text : List Nat) : List (List Nat) × List Nat :=
  let parts := text.splitOn 10
  (parts.dropLast.map dropReturn, parts.getLastD [])

namespace NdjsonMessageBuffer

/-- `push` of a `Buffer`. -/
def push (chunk : List Nat) : BufferM (List Json) := do
  let buffer ← get
  let (lines, last) := splitLines (buffer.pendingText ++ decode chunk)
  set (NdjsonMessageBuffer.mk last)
  (lines.filter fun line => trim line ≠ []).mapM decodeAgentMessage

def pushAll : List (List Nat) → BufferM (List Json)
  | [] => return []
  | chunk :: chunks => do
    let first ← push chunk
    let rest ← pushAll chunks
    return first ++ rest

end NdjsonMessageBuffer

/-! ## Strings -/

lemma hexValue_hexDigit {n : Nat} (hn : n < 16) : hexValue (hexDigit n) = n := by
  have hall : ∀ n < 16, hexValue (hexDigit n) = n := by decide
  exact hall n hn

variable {unit : Nat} {json : Json} {text : List Nat} {messages : List Json}

lemma unescape_unicodeEscape (hunit : unit < 0x10000) (raw : List Nat) :
    unescape .plain 0 (unicodeEscape unit ++ raw) = unit :: unescape .plain 0 raw := by
  have hdigit : ∀ n, hexValue (hexDigit (n % 16)) = n % 16 := fun n => hexValue_hexDigit (Nat.mod_lt n (by decide))
  simp only [unicodeEscape, cons_append, nil_append, unescape, if_true, hdigit]
  congr 1
  omega

lemma unescape_quoteUnit (hunit : unit < 0x10000) (raw : List Nat) :
    unescape .plain 0 (quoteUnit unit ++ raw) = unit :: unescape .plain 0 raw := by
  unfold quoteUnit
  split_ifs with h1 h2 h3 h4 h5 h6 h7
  · subst h1; rfl
  · subst h2; rfl
  · subst h3; rfl
  · subst h4; rfl
  · subst h5; rfl
  · rcases h6 with rfl | rfl
    · rfl
    · rfl
  · exact unescape_unicodeEscape hunit raw
  · rw [singleton_append, unescape, if_neg (not_or.mp h6).2]

lemma stringValue_quote {units : List Nat} (hunits : ∀ unit ∈ units, unit < 0x10000) :
    stringValue (quote units) = units := by
  unfold stringValue
  induction units using quote.induct with
  | case1 => rfl
  | case2 unit =>
    rw [quote, ← append_nil (quoteUnit unit), unescape_quoteUnit (hunits unit mem_cons_self)]
    rfl
  | case3 unit next units hpair ih =>
    rw [quote, if_pos hpair, unescape, if_neg (by omega), unescape, if_neg (by omega),
      ih fun c hc => hunits c (mem_cons_of_mem _ (mem_cons_of_mem _ hc))]
  | case4 unit next units hpair ih =>
    rw [quote, if_neg hpair, unescape_quoteUnit (hunits unit mem_cons_self),
      ih fun c hc => hunits c (mem_cons_of_mem _ hc)]

mutual

lemma mapStrings_quote : ∀ json : Json, json.Printable → (json.mapStrings quote).mapStrings stringValue = json
  | .null, _ => rfl
  | .bool _, _ => rfl
  | .number _, _ => rfl
  | .string _, h => congrArg string (stringValue_quote h)
  | .array items, h => congrArg array (mapStringsItems_quote items h)
  | .object members, h => congrArg object (mapStringsMembers_quote members h)
termination_by structural json => json

lemma mapStringsItems_quote : ∀ items : List Json, Json.PrintableItems items →
    mapStringsItems stringValue (mapStringsItems quote items) = items
  | [], _ => rfl
  | json :: items, h => congrArg₂ cons (mapStrings_quote json h.1) (mapStringsItems_quote items h.2)
termination_by structural items => items

lemma mapStringsMembers_quote : ∀ members : List (List Nat × Json), Json.PrintableMembers members →
    mapStringsMembers stringValue (mapStringsMembers quote members) = members
  | [], _ => rfl
  | member :: members, h => congrArg₂ cons (mapStringsMember_quote member h.1) (mapStringsMembers_quote members h.2)
termination_by structural members => members

lemma mapStringsMember_quote : ∀ member : List Nat × Json, Json.PrintableMember member →
    mapStringsMember stringValue (mapStringsMember quote member) = member
  | (_, json), h => congrArg₂ Prod.mk (stringValue_quote h.1) (mapStrings_quote json h.2)
termination_by structural member => member

end

lemma jsonParse_stringify (h : json.Printable) : jsonParse json.stringify = some json.settled := by
  rw [jsonParse, document_stringify h (Nat.le_add_right _ 2), Option.map_some, mapStrings_quote json h]

/-! ## Lines -/

lemma exists_last_stringify (h : json.Printable) : ∃ t c, json.stringify = t ++ [c] ∧ 33 ≤ c ∧ c < 0x80 := by
  cases json with
  | null => exact ⟨codes "nul", 108, rfl, by decide, by decide⟩
  | bool value =>
    cases value with
    | true => exact ⟨codes "tru", 101, rfl, by decide, by decide⟩
    | false => exact ⟨codes "fals", 101, rfl, by decide, by decide⟩
  | number literal =>
    obtain ⟨c, t, hliteral, -⟩ := exists_number_head h
    have hne : literal ≠ [] := by rw [hliteral]; exact cons_ne_nil c t
    have hlast := (numeric_number _ _ _ h).1 _ (getLast_mem hne)
    have hbounds := isNumberChar_bounds hlast
    exact ⟨_, _, (dropLast_append_getLast hne).symm, by omega, by omega⟩
  | string units => exact ⟨34 :: quote units, 34, rfl, by decide, by decide⟩
  | array items => exact ⟨91 :: (stringifyItems items).tail, 93, rfl, by decide, by decide⟩
  | object members => exact ⟨123 :: (stringifyMembers members).tail, 125, rfl, by decide, by decide⟩

lemma not_isSpaceUnit {c : Nat} (hlow : 33 ≤ c) (hhigh : c < 0x80) : isSpaceUnit c = false := by
  simp only [isSpaceUnit, Bool.or_eq_false_iff, Bool.and_eq_false_iff, decide_eq_false_iff_not, beq_eq_false_iff_ne]
  omega

lemma trim_stringify (h : json.Printable) : trim json.stringify = json.stringify := by
  have hfirst : json.stringify.dropWhile isSpaceUnit = json.stringify := by
    obtain ⟨c, t, htext, hc, -⟩ := startsValue_stringify h
    rw [htext]
    exact dropWhile_cons_of_neg (by rw [not_isSpaceUnit hc.1 hc.2]; exact Bool.false_ne_true)
  have hlast : json.stringify.rdropWhile isSpaceUnit = json.stringify := by
    obtain ⟨t, c, htext, hlow, hhigh⟩ := exists_last_stringify h
    rw [htext]
    exact rdropWhile_concat_neg _ _ _ (by rw [not_isSpaceUnit hlow hhigh]; exact Bool.false_ne_true)
  rw [trim, hfirst, hlast]

lemma splitLines_of_no_newline (h : ∀ c ∈ text, c ≠ 10) : splitLines text = ([], text) := by
  have hparts : text.splitOn 10 = [text] := splitOnP_eq_singleton fun c hc => beq_false_of_ne (h c hc)
  rw [splitLines, hparts]
  rfl

lemma splitLines_line {line : List Nat} (hline : ∀ c ∈ line, 32 ≤ c) (text : List Nat) :
    splitLines (line ++ 10 :: text) = (line :: (splitLines text).1, (splitLines text).2) := by
  have hparts : (line ++ 10 :: text).splitOn 10 = line :: text.splitOn 10 :=
    splitOnP_append_cons_of_forall_mem (fun c hc => beq_false_of_ne (by have := hline c hc; omega)) 10 rfl text
  have hreturn : dropReturn line = line := by
    refine if_neg fun hlast => ?_
    have := hline 13 (mem_of_getLast? hlast)
    omega
  have hne : text.splitOn 10 ≠ [] := splitOnP_ne_nil _ _
  obtain ⟨first, parts, htext⟩ := exists_cons_of_ne_nil hne
  rw [splitLines, splitLines, hparts, htext]
  simp only [dropLast_cons_cons, map_cons, hreturn]
  rfl

/-! ## Frames -/

def frames (messages : List Json) : List Nat := messages.flatMap encodeAgentMessage

lemma frames_cons (json : Json) (messages : List Json) :
    frames (json :: messages) = json.stringify ++ 10 :: frames messages := by
  rw [frames, flatMap_cons, encodeAgentMessage, append_assoc]
  rfl

def AllPrintable (messages : List Json) : Prop := ∀ json ∈ messages, json.Printable

lemma splitLines_frames (h : AllPrintable messages) {last : List Nat} (hlast : ∀ c ∈ last, c ≠ 10) :
    splitLines (frames messages ++ last) = (messages.map stringify, last) := by
  induction messages with
  | nil => exact splitLines_of_no_newline hlast
  | cons json messages ih =>
    obtain ⟨hjson, hrest⟩ := forall_mem_cons.mp h
    rw [frames_cons, append_assoc, cons_append, splitLines_line (plain_stringify json hjson).visible, ih hrest]
    rfl

/-- A text that frames begin with: complete frames, and a part of the next one. -/
lemma exists_frames_of_append (h : AllPrintable messages) {rest : List Nat} (hsplit : text ++ rest = frames messages) :
    ∃ done todo last, messages = done ++ todo ∧ text = frames done ++ last ∧ (∀ c ∈ last, c ≠ 10) ∧
      last ++ rest = frames todo := by
  induction messages generalizing text with
  | nil =>
    obtain ⟨rfl, rfl⟩ := append_eq_nil_iff.mp hsplit
    exact ⟨[], [], [], rfl, rfl, fun c hc => absurd hc not_mem_nil, rfl⟩
  | cons json messages ih =>
    obtain ⟨hjson, hrest⟩ := forall_mem_cons.mp h
    have hvisible := (plain_stringify json hjson).visible
    rw [frames_cons] at hsplit
    rcases append_eq_append_iff.mp hsplit with ⟨t, hfirst, hrest'⟩ | ⟨t, htext, hrest'⟩
    · -- the text ends in the first message
      refine ⟨[], json :: messages, text, rfl, rfl, fun c hc heq => ?_, ?_⟩
      · have := hvisible c (hfirst ▸ mem_append_left t hc)
        omega
      · rw [frames_cons, hsplit]
    cases t with
    | nil =>
      refine ⟨[], json :: messages, text, rfl, rfl, fun c hc heq => ?_, ?_⟩
      · rw [htext, append_nil] at hc
        have := hvisible c hc
        omega
      · rw [frames_cons, hsplit]
    | cons c t =>
      obtain ⟨rfl, hrest''⟩ := cons.inj hrest'
      obtain ⟨done, todo, last, rfl, rfl, hlast, htodo⟩ := ih hrest hrest''.symm
      refine ⟨json :: done, todo, last, rfl, ?_, hlast, htodo⟩
      rw [htext, frames_cons, append_assoc]
      rfl

/-! ## Pushes -/

lemma call_decodeAgentMessage (h : json.Printable) (buffer : NdjsonMessageBuffer) :
    call (decodeAgentMessage json.stringify) buffer = (.ok json.settled, buffer) := by
  obtain ⟨c, t, htext, -⟩ := startsValue_stringify h
  have hne : json.stringify ≠ [] := by rw [htext]; exact cons_ne_nil c t
  rw [decodeAgentMessage, trim_stringify h, if_neg hne, jsonParse_stringify h]
  rfl

lemma call_mapM_decodeAgentMessage (h : AllPrintable messages) (buffer : NdjsonMessageBuffer) :
    call ((messages.map stringify).mapM decodeAgentMessage) buffer =
      (.ok (messages.map settled), buffer) := by
  induction messages with
  | nil => rfl
  | cons json messages ih =>
    obtain ⟨hjson, hrest⟩ := forall_mem_cons.mp h
    rw [map_cons, mapM_cons, call_bind_ok (call_decodeAgentMessage hjson buffer),
      call_bind_ok (ih hrest)]
    rfl

namespace NdjsonMessageBuffer

variable {buffer : NdjsonMessageBuffer}

lemma call_push {done : List Json} (h : AllPrintable done) {chunk last : List Nat}
    (htext : buffer.pendingText ++ decode chunk = frames done ++ last) (hlast : ∀ c ∈ last, c ≠ 10) :
    call (push chunk) buffer = (.ok (done.map settled), ⟨last⟩) := by
  have hlines : (done.map stringify).filter (fun line => trim line ≠ []) = done.map stringify := by
    refine filter_eq_self.mpr fun line hline => ?_
    obtain ⟨json, hjson, rfl⟩ := mem_map.mp hline
    obtain ⟨c, t, hstart, -⟩ := startsValue_stringify (h json hjson)
    rw [trim_stringify (h json hjson), hstart]
    rfl
  rw [push, call_get_bind, htext, splitLines_frames h hlast]
  dsimp only
  rw [call_set_bind, hlines, call_mapM_decodeAgentMessage h]

lemma call_pushAll {messages : List Json} (h : AllPrintable messages) {chunks : List (List Nat)}
    (hpending : ∀ c ∈ buffer.pendingText, c ≠ 10)
    (htext : buffer.pendingText ++ chunks.flatMap decode = frames messages) :
    (call (pushAll chunks) buffer).1 = .ok (messages.map settled) := by
  induction chunks generalizing messages buffer with
  | nil =>
    cases messages with
    | nil => rfl
    | cons json messages =>
      rw [flatMap_nil, append_nil, frames_cons] at htext
      have hnewline : 10 ∈ buffer.pendingText := htext ▸ mem_append_right _ mem_cons_self
      exact absurd rfl (hpending 10 hnewline)
  | cons chunk chunks ih =>
    rw [flatMap_cons, ← append_assoc] at htext
    obtain ⟨done, todo, last, rfl, hdone, hlast, htodo⟩ := exists_frames_of_append h htext
    obtain ⟨hdonePrintable, htodoPrintable⟩ := forall_mem_append.mp h
    have hrest : (call (pushAll chunks) ⟨last⟩).1 = .ok (todo.map settled) :=
      ih htodoPrintable hlast htodo
    rw [pushAll, call_bind_ok (call_push hdonePrintable hdone hlast)]
    generalize hresult : call (pushAll chunks) ⟨last⟩ = result at hrest
    obtain ⟨answer, after⟩ := result
    obtain rfl : answer = _ := hrest
    rw [call_bind_ok hresult, map_append]
    rfl

end NdjsonMessageBuffer

/-! ## Chunks -/

lemma plain_frames (h : AllPrintable messages) : Whole (frames messages) := by
  induction messages with
  | nil => exact .nil
  | cons json messages ih =>
    obtain ⟨hjson, hrest⟩ := forall_mem_cons.mp h
    rw [frames_cons]
    exact (plain_stringify json hjson).whole.append (.cons (character_ascii (by decide)) (ih hrest))

lemma cut_frames (h : AllPrintable messages) (hcut : Cut (frames messages) text) :
    ∃ received, AllPrintable received ∧ text = frames received ∧
      received.map memberCount = messages.map memberCount := by
  induction messages generalizing text with
  | nil =>
    obtain rfl := hcut.eq_of_ascii fun x hx => absurd hx not_mem_nil
    exact ⟨[], h, rfl, rfl⟩
  | cons json messages ih =>
    obtain ⟨hjson, hrest⟩ := forall_mem_cons.mp h
    rw [frames_cons] at hcut
    obtain ⟨first, t, rfl, hfirst, hnewline⟩ := hcut.split (plain_stringify json hjson).whole
    obtain ⟨t', rfl, hcut'⟩ := hnewline.ascii_cons (by decide)
    obtain ⟨json', hjson', rfl, hcount⟩ := cut_stringify json hjson first hfirst
    obtain ⟨received, hreceived, rfl, hcounts⟩ := ih hrest hcut'
    exact ⟨json' :: received, forall_mem_cons.mpr ⟨hjson', hreceived⟩, (frames_cons _ _).symm,
      congrArg₂ cons hcount hcounts⟩

lemma eq_of_settled {received : List Json} (hcounts : received.map memberCount = messages.map memberCount)
    (hsettled : received.map settled = messages) : received = messages := by
  induction received generalizing messages with
  | nil => exact hsettled
  | cons json received ih =>
    subst hsettled
    obtain ⟨hcount, hcounts⟩ := cons.inj hcounts
    exact congrArg₂ cons ((settled_count json).2 hcount.symm).symm (ih hcounts rfl)

/-- Messages that arrive in chunks are returned, all of them and in order, exactly when every chunk is well-formed
UTF-8: when no character is shared by two chunks. -/
theorem messages_received_iff (messages : List Message) (chunks : List (List Nat))
    (hchunks : chunks.flatten = encode (frames (messages.map Message.json))) :
    (call (NdjsonMessageBuffer.pushAll chunks) ⟨[]⟩).1 = .ok (messages.map Message.json) ↔
      ∀ chunk ∈ chunks, Valid chunk := by
  have hprintable : AllPrintable (messages.map Message.json) := by
    intro json hjson
    obtain ⟨message, -, rfl⟩ := mem_map.mp hjson
    exact message.printable
  have hnone : ∀ c ∈ (NdjsonMessageBuffer.mk []).pendingText, c ≠ 10 := fun c hc => absurd hc not_mem_nil
  obtain ⟨hcut, hreceived⟩ := chunks_received (plain_frames hprintable) hchunks
  rw [← hreceived]
  constructor
  · intro hreturned
    obtain ⟨received, hprintable', htext, hcounts⟩ := cut_frames hprintable hcut
    rw [NdjsonMessageBuffer.call_pushAll hprintable' hnone htext] at hreturned
    rw [htext, eq_of_settled hcounts (Except.ok.inj hreturned)]
  · intro htext
    rw [NdjsonMessageBuffer.call_pushAll hprintable hnone htext, map_map]
    exact congrArg Except.ok (map_congr_left fun message _ => message.distinct)

def accentMessage : Message where
  json := .object [([97], .string [0xE9])]
  printable := by simp [Json.Printable, Json.PrintableMembers, Json.PrintableMember]
  distinct := rfl

theorem accent_received_whole :
    (call (NdjsonMessageBuffer.pushAll [encode (frames [accentMessage.json])]) ⟨[]⟩).1 =
      .ok [accentMessage.json] :=
  (messages_received_iff [accentMessage] [encode (frames [accentMessage.json])] (append_nil _)).mpr
    (forall_mem_singleton.mpr (valid_encode (plain_frames (forall_mem_singleton.mpr accentMessage.printable))))

def accentChunks : List (List Nat) :=
  [codes "\x7b\"a\":\"" ++ [0xC3], 0xA9 :: codes "\"\x7d\n"]

/-- The character is received as two replacement characters. -/
theorem accent_cut_in_two :
    accentChunks.flatten = encode (frames [accentMessage.json]) ∧
      (call (NdjsonMessageBuffer.pushAll accentChunks) ⟨[]⟩).1 =
        .ok [.object [([97], .string [0xFFFD, 0xFFFD])]] := by
  exact ⟨rfl, rfl⟩

end PortManager.Node
