import PortManager.Base.JsonPrinting
import PortManager.Base.SplitText
import PortManager.Native.DnsPublication

/-!
# The records of a sync request

What `pm_dns_sync` reads from a payload that `JSON.stringify` has printed. The string comes back in UTF-8 with `?` for every
unit that is spelled by its number (`jsonGetString_payloadText`), and the replacement table has the records of
all its pairs that are accepted, in their order (`syncPublication_payloadText`).
-/

namespace PortManager.Native
open CText JsonText Utf8 UInt8
open List hiding next

def textOf (octets : List Nat) : Text := octets.map UInt8.ofNat

def payloadText (records : List Nat) : Text :=
  textOf (encode (Json.object [(codes "records", .string records)]).stringify)

/-- The units that `JSON.stringify` spells as `\u` and four digits, when they are not half of a pair. -/
def isSpelledByNumber (unit : Nat) : Bool :=
  (unit < 32 && unit != 8 && unit != 9 && unit != 10 && unit != 12 && unit != 13) || (0xD800 ≤ unit && unit < 0xE000)

/-- What C `pm_read_json_string` makes of a unit that is not half of a pair. -/
def readUnit (unit : Nat) : Text := if isSpelledByNumber unit then [63] else textOf (encode [unit])

def readText : List Nat → Text
  | [] => []
  | [unit] => readUnit unit
  | unit :: next :: units =>
    if 0xD800 ≤ unit ∧ unit < 0xDC00 ∧ 0xDC00 ≤ next ∧ next < 0xE000 then textOf (encode [unit, next]) ++ readText units
    else readUnit unit ++ readText (next :: units)

/-! ## The string -/

variable {unit size : Nat} {out : Text} {u units records : List Nat}

lemma isSpelledByNumber_iff : isSpelledByNumber unit = true ↔
    (unit < 32 ∧ unit ≠ 8 ∧ unit ≠ 9 ∧ unit ≠ 10 ∧ unit ≠ 12 ∧ unit ≠ 13) ∨ (0xD800 ≤ unit ∧ unit < 0xE000) := by
  simp only [isSpelledByNumber, Bool.or_eq_true, Bool.and_eq_true, decide_eq_true_eq, bne_iff_ne, and_assoc]

lemma textOf_append (s t : List Nat) : textOf (s ++ t) = textOf s ++ textOf t := map_append

lemma readJsonStringLoop_bytes {bytes : Text} (hbytes : ∀ b ∈ bytes, b ≠ 34 ∧ b ≠ 92) (tail : Text)
    (hroom : out.length + bytes.length < size) :
    readJsonStringLoop size 0 (bytes ++ tail) out = readJsonStringLoop size 0 tail (out ++ bytes) := by
  induction bytes generalizing out with
  | nil => rw [nil_append, append_nil]
  | cons b bytes ih =>
    obtain ⟨⟨hquote, hslash⟩, hbytes⟩ := forall_mem_cons.mp hbytes
    rw [length_cons] at hroom
    rw [cons_append, readJsonStringLoop_plain (not_hex b) hquote hslash, if_neg (by omega),
      ih hbytes (by rw [length_append, length_singleton]; omega), append_assoc]
    rfl

lemma isxdigit_hexDigit (n : Nat) : isxdigit (.ofNat (hexDigit (n % 16))) = true := by
  have hall : ∀ n < 16, isxdigit (.ofNat (hexDigit n)) = true := by decide
  exact hall _ (Nat.mod_lt n (by decide))

lemma readJsonStringLoop_unicodeEscape (unit : Nat) (tail : Text) (hroom : out.length + 1 < size) :
    readJsonStringLoop size 0 (textOf (unicodeEscape unit) ++ tail) out = readJsonStringLoop size 0 tail (out ++ [63]) := by
  obtain ⟨digits, hdigits, hcount, htext⟩ : ∃ digits : Text, (∀ d ∈ digits, isxdigit d = true) ∧ 4 = digits.length ∧
      textOf (unicodeEscape unit) ++ tail = 92 :: 117 :: (digits ++ tail) :=
    ⟨[.ofNat (hexDigit (unit / 4096 % 16)), .ofNat (hexDigit (unit / 256 % 16)), .ofNat (hexDigit (unit / 16 % 16)),
      .ofNat (hexDigit (unit % 16))], by simp [isxdigit_hexDigit], rfl, rfl⟩
  have hmark : unescape 117 = 63 := rfl
  rw [htext, readJsonStringLoop_escape (not_hex 92), if_neg (by omega), if_pos rfl, hmark]
  exact readJsonStringLoop_digits hdigits hcount tail _

lemma bytes_ne_of_character (hu : Character u) (hne : u ≠ [34] ∧ u ≠ [92]) :
    ∀ b ∈ textOf (encode u), b ≠ 34 ∧ b ≠ 92 := by
  intro b hb
  obtain ⟨x, hx, rfl⟩ := mem_map.mp hb
  have hbyte : ∀ c : UInt8, ofNat x = c → x < 0x100 → x = c.toNat := by
    intro c hc hlt
    rw [← hc, toNat_ofNat']
    omega
  rcases (sequence_encode hu).cases_ascii with ⟨a, ha, hencode, rfl⟩ | hhigh
  · rw [hencode, mem_singleton] at hx
    subst hx
    refine ⟨fun h => hne.1 ?_, fun h => hne.2 ?_⟩
    · rw [hbyte 34 h (by omega)]
      rfl
    · rw [hbyte 92 h (by omega)]
      rfl
  · obtain ⟨hlow, hlt⟩ := hhigh x hx
    refine ⟨fun h => ?_, fun h => ?_⟩
    · have := hbyte 34 h hlt
      exact absurd hlow (by rw [this]; decide)
    · have := hbyte 92 h hlt
      exact absurd hlow (by rw [this]; decide)

lemma readJsonStringLoop_quoteUnit (hunit : unit < 0x10000) (tail : Text)
    (hroom : out.length + (readUnit unit).length < size) :
    readJsonStringLoop size 0 (textOf (encode (quoteUnit unit)) ++ tail) out =
      readJsonStringLoop size 0 tail (out ++ readUnit unit) := by
  have hescape : ∀ e < 0x80, ofNat e ≠ 117 → readUnit unit = [unescape (.ofNat e)] →
      readJsonStringLoop size 0 (textOf (encode [92, e]) ++ tail) out =
        readJsonStringLoop size 0 tail (out ++ readUnit unit) := by
    intro e he hu hread
    have hencode : encode [92, e] = [92, e] := encode_ascii (by simp; omega)
    have htext : textOf [92, e] ++ tail = 92 :: ofNat e :: tail := rfl
    rw [hread, length_singleton] at hroom
    rw [hencode, htext, readJsonStringLoop_escape (not_hex 92), if_neg (by omega), if_neg hu, hread]
  unfold quoteUnit
  split_ifs with h1 h2 h3 h4 h5 h6 h7
  · subst h1
    exact hescape 98 (by decide) (by decide) rfl
  · subst h2
    exact hescape 116 (by decide) (by decide) rfl
  · subst h3
    exact hescape 110 (by decide) (by decide) rfl
  · subst h4
    exact hescape 102 (by decide) (by decide) rfl
  · subst h5
    exact hescape 114 (by decide) (by decide) rfl
  · rcases h6 with rfl | rfl
    · exact hescape 34 (by decide) (by decide) rfl
    · exact hescape 92 (by decide) (by decide) rfl
  · have hspelled : isSpelledByNumber unit = true := isSpelledByNumber_iff.mpr (by omega)
    have hencode : encode (unicodeEscape unit) = unicodeEscape unit := by
      refine encode_ascii fun x hx => ?_
      have hhex : ∀ n, hexDigit (n % 16) < 0x80 := by
        intro n
        unfold hexDigit
        split_ifs <;> omega
      simp only [unicodeEscape, mem_cons, not_mem_nil, or_false] at hx
      rcases hx with rfl | rfl | rfl | rfl | rfl | rfl
      · decide
      · decide
      · exact hhex _
      · exact hhex _
      · exact hhex _
      · exact hhex _
    rw [readUnit, if_pos hspelled] at hroom ⊢
    rw [hencode]
    exact readJsonStringLoop_unicodeEscape unit tail hroom
  · have hspelled : ¬ isSpelledByNumber unit = true := by
      rw [isSpelledByNumber_iff]
      omega
    have hne : [unit] ≠ [34] ∧ [unit] ≠ [92] := by
      simp only [ne_eq, singleton_inj]
      omega
    rw [readUnit, if_neg hspelled] at hroom ⊢
    exact readJsonStringLoop_bytes (bytes_ne_of_character (.unit hunit (by omega)) hne) tail hroom

lemma readJsonStringLoop_quote (hunits : ∀ unit ∈ units, unit < 0x10000) (tail : Text)
    (hroom : out.length + (readText units).length < size) :
    readJsonStringLoop size 0 (textOf (encode (quote units)) ++ tail) out =
      readJsonStringLoop size 0 tail (out ++ readText units) := by
  induction units using quote.induct generalizing out with
  | case1 => rw [quote, encode, readText, textOf, map_nil, nil_append, append_nil]
  | case2 unit => exact readJsonStringLoop_quoteUnit (hunits unit mem_cons_self) tail hroom
  | case3 unit next units hpair ih =>
    have hcharacter : Character [unit, next] := .pair hpair.1 hpair.2.1 hpair.2.2.1 hpair.2.2.2
    have hne : [unit, next] ≠ [34] ∧ [unit, next] ≠ [92] := ⟨by simp, by simp⟩
    rw [readText, if_pos hpair, length_append] at hroom
    have hencode : encode (unit :: next :: quote units) = encode [unit, next] ++ encode (quote units) :=
      encode_character hcharacter _
    rw [quote, if_pos hpair, hencode, textOf_append, append_assoc,
      readJsonStringLoop_bytes (bytes_ne_of_character hcharacter hne) _ (by omega),
      ih (fun c hc => hunits c (mem_cons_of_mem _ (mem_cons_of_mem _ hc)))
        (by rw [length_append]; omega), readText, if_pos hpair, append_assoc]
  | case4 unit next units hpair ih =>
    have hunit := hunits unit mem_cons_self
    rw [readText, if_neg hpair, length_append] at hroom
    rw [quote, if_neg hpair, encode_whole (plain_quoteUnit hunit).whole, textOf_append, append_assoc,
      readJsonStringLoop_quoteUnit hunit _ (by omega), ih (fun c hc => hunits c (mem_cons_of_mem _ hc))
        (by rw [length_append]; omega), readText, if_neg hpair, append_assoc]

lemma length_readUnit_le (unit : Nat) : (readUnit unit).length ≤ (encode (quoteUnit unit)).length := by
  unfold quoteUnit
  split_ifs with h1 h2 h3 h4 h5 h6 h7
  · subst h1
    decide
  · subst h2
    decide
  · subst h3
    decide
  · subst h4
    decide
  · subst h5
    decide
  · rcases h6 with rfl | rfl
    · decide
    · decide
  · have hspelled : isSpelledByNumber unit = true := isSpelledByNumber_iff.mpr (by omega)
    rw [readUnit, if_pos hspelled]
    exact Nat.one_le_iff_ne_zero.mpr (by simp [unicodeEscape, encode, encodeUnit, encodePoint])
  · have hspelled : ¬ isSpelledByNumber unit = true := by
      rw [isSpelledByNumber_iff]
      omega
    rw [readUnit, if_neg hspelled]
    exact (length_map _).le

lemma length_readText_le (hunits : ∀ unit ∈ units, unit < 0x10000) :
    (readText units).length ≤ (encode (quote units)).length := by
  induction units using quote.induct with
  | case1 => exact le_refl 0
  | case2 unit => exact length_readUnit_le unit
  | case3 unit next units hpair ih =>
    have hencode : encode (unit :: next :: quote units) = encode [unit, next] ++ encode (quote units) :=
      encode_character (.pair hpair.1 hpair.2.1 hpair.2.2.1 hpair.2.2.2) _
    rw [readText, if_pos hpair, quote, if_pos hpair, hencode, length_append, length_append]
    exact add_le_add (length_map _).le
      (ih fun c hc => hunits c (mem_cons_of_mem _ (mem_cons_of_mem _ hc)))
  | case4 unit next units hpair ih =>
    rw [readText, if_neg hpair, quote, if_neg hpair, encode_whole (plain_quoteUnit (hunits unit mem_cons_self)).whole,
      length_append, length_append]
    exact add_le_add (length_readUnit_le unit) (ih fun c hc => hunits c (mem_cons_of_mem _ hc))

lemma payloadText_eq (hrecords : ∀ unit ∈ records, unit < 0x10000) :
    payloadText records = ascii "\x7b\"records\":\"" ++ (textOf (encode (quote records)) ++ ascii "\"\x7d") := by
  have hprinted : (Json.object [(codes "records", .string records)]).stringify =
      codes "\x7b\"records\":\"" ++ (quote records ++ codes "\"\x7d") := by
    have hname : quote (codes "records") = codes "records" := by decide
    have hstart : codes "\x7b\"records\":\"" = 123 :: 34 :: codes "records" ++ [34, 58, 34] := by decide
    have hend : codes "\"\x7d" = [34, 125] := by decide
    rw [hstart, hend]
    simp [Json.stringify, Json.stringifyMembers, Json.stringifyMember, hname]
  have hfirst : ∀ c ∈ codes "\x7b\"records\":\"", c < 0x80 := by decide
  have hlast : ∀ c ∈ codes "\"\x7d", c < 0x80 := by decide
  rw [payloadText, hprinted, encode_whole (whole_ascii hfirst), encode_whole (plain_quote hrecords).whole,
    encode_ascii hfirst, encode_ascii hlast, textOf_append, textOf_append]
  congr 1

lemma findJsonKey_payload (t : Text) :
    findJsonKey (ascii "\x7b\"records\":\"" ++ t) (ascii "records") = some (34 :: t) := by
  have hkey : ascii "records" = [114, 101, 99, 111, 114, 100, 115] := by decide
  have htext : ascii "\x7b\"records\":\"" = [123, 34, 114, 101, 99, 111, 114, 100, 115, 34, 58, 34] := by decide
  rw [htext, hkey]
  simp [findJsonKey, findJsonKeyLoop, skipSpace, isspace, List.dropWhile]

lemma jsonGetString_payloadText (hrecords : ∀ unit ∈ records, unit < 0x10000) :
    jsonGetString (payloadText records) (ascii "records") ((payloadText records).length + 2) = (true, readText records) := by
  have hroom : ([] : Text).length + (readText records).length < (payloadText records).length + 2 := by
    have hle := length_readText_le hrecords
    rw [payloadText_eq hrecords, length_append, length_append, textOf, length_map, length_nil]
    omega
  rw [jsonGetString]
  generalize (payloadText records).length + 2 = size at hroom ⊢
  have hend : ascii "\"\x7d" = [34, 125] := by decide
  rw [payloadText_eq hrecords, findJsonKey_payload, readJsonString, readJsonStringLoop_quote hrecords _ hroom, hend,
    nil_append, readJsonStringLoop, if_neg (not_hex 34), if_pos rfl]

/-! ## The pairs -/

/-- The record of a pair, unless C `pm_dns_add_pair` skips it. -/
def readPair (pair : Text) : Option DnsRecord :=
  if 61 ∈ pair then DnsRecord.read (pair.takeWhile (· != 61)) (pair.dropWhile (· != 61)).tail else none

def acceptedRecords (text : Text) : List DnsRecord := (text.splitOn 44).filterMap readPair

lemma addPair_eq (table : DnsTable) (pair : Text) :
    table.addPair pair = match readPair pair with
      | some record => table.appendRecord record
      | none => table := by
  unfold DnsTable.addPair readPair
  split_ifs
  · rfl
  · rfl

lemma foldl_addPair (pairs : List Text) (table : DnsTable) (hroom : table.records.length + pairs.length ≤ PM_DNS_MAX_RECORDS) :
    (pairs.foldl .addPair table).records = table.records ++ pairs.filterMap readPair := by
  induction pairs generalizing table with
  | nil => exact (append_nil _).symm
  | cons pair pairs ih =>
    rw [length_cons] at hroom
    rw [foldl_cons, addPair_eq]
    cases hpair : readPair pair with
    | none =>
      rw [filterMap_cons_none hpair]
      exact ih table (by omega)
    | some record =>
      have happend : (table.appendRecord record).records = table.records ++ [record] := by
        rw [DnsTable.appendRecord, dif_pos (by omega)]
      have hrest := ih (table.appendRecord record) (by
        rw [happend, length_append, length_singleton]
        omega)
      rw [happend, append_assoc] at hrest
      rw [filterMap_cons_some hpair]
      exact hrest

lemma records_syncTable {text : Text} (hpairs : (text.splitOn 44).length ≤ PM_DNS_MAX_RECORDS) (revision : Text) :
    (syncTable text revision).records = acceptedRecords text := by
  have hempty : readPair [] = none := rfl
  have hfilter : ((text.splitOn 44).filter (· ≠ [])).filterMap readPair = acceptedRecords text := by
    rw [filterMap_filter, acceptedRecords]
    refine filterMap_congr fun pair _ => ?_
    by_cases hpair : pair = []
    · rw [hpair]
      rfl
    · rw [if_pos (decide_eq_true hpair)]
  have hle := length_filter_le (fun pair : Text => decide (pair ≠ [])) (text.splitOn 44)
  rw [syncTable, foldl_addPair _ _ (by exact (zero_add _).le.trans (hle.trans hpairs)), hfilter]
  rfl

/-! ## The number of pairs -/

lemma count_textOf_encode (hu : Character u) : (textOf (encode u)).count 44 = u.count 44 := by
  rcases (sequence_encode hu).cases_ascii with ⟨a, ha, hencode, rfl⟩ | hhigh
  · have hcomma : UInt8.ofNat a = 44 ↔ a = 44 := by
      rw [← UInt8.toNat_inj, UInt8.toNat_ofNat']
      constructor
      · intro h
        change a % 256 = 44 at h
        omega
      · rintro rfl
        rfl
    rw [hencode, textOf, map_singleton, count_singleton, count_singleton]
    simp only [beq_iff_eq, hcomma]
  · have hno : 44 ∉ u := by
      intro hmem
      cases hu with
      | @unit x hx hnot =>
        obtain rfl := mem_singleton.mp hmem
        have hlow := (hhigh 44 (by decide)).1
        omega
      | @pair x y hx hx' hy hy' =>
        simp only [mem_cons, not_mem_nil, or_false] at hmem
        omega
    have hno' : (44 : UInt8) ∉ textOf (encode u) := by
      intro hmem
      obtain ⟨x, hx, heq⟩ := mem_map.mp hmem
      have hbounds := hhigh x hx
      have hvalue := congrArg UInt8.toNat heq
      rw [UInt8.toNat_ofNat'] at hvalue
      change x % 256 = 44 at hvalue
      omega
    rw [count_eq_zero.mpr hno, count_eq_zero.mpr hno']

lemma count_readUnit (hunit : unit < 0x10000) : (readUnit unit).count 44 = [unit].count 44 := by
  rw [readUnit]
  split_ifs with hspelled
  · rw [isSpelledByNumber_iff] at hspelled
    have hne : 44 ∉ [unit] := by
      rw [mem_singleton]
      omega
    rw [count_eq_zero.mpr hne]
    rfl
  · rw [isSpelledByNumber_iff] at hspelled
    exact count_textOf_encode (.unit hunit (by omega))

lemma count_readText (hunits : ∀ unit ∈ units, unit < 0x10000) : (readText units).count 44 = units.count 44 := by
  induction units using quote.induct with
  | case1 => rfl
  | case2 unit => exact count_readUnit (hunits unit mem_cons_self)
  | case3 unit next units hpair ih =>
    rw [readText, if_pos hpair, count_append,
      count_textOf_encode (.pair hpair.1 hpair.2.1 hpair.2.2.1 hpair.2.2.2),
      ih fun c hc => hunits c (mem_cons_of_mem _ (mem_cons_of_mem _ hc)), ← count_append]
    rfl
  | case4 unit next units hpair ih =>
    rw [readText, if_neg hpair, count_append, count_readUnit (hunits unit mem_cons_self),
      ih fun c hc => hunits c (mem_cons_of_mem _ hc), ← count_append]
    rfl

lemma syncPublication_payloadText (hunits : ∀ unit ∈ records, unit < 0x10000)
    (hpairs : (records.splitOn 44).length ≤ PM_DNS_MAX_RECORDS) :
    ∃ publication, syncPublication (payloadText records) = some publication ∧
      publication.replacement.records = acceptedRecords (readText records) := by
  have hpairs' : ((readText records).splitOn 44).length ≤ PM_DNS_MAX_RECORDS := by
    rw [SplitText.length_splitOn] at hpairs ⊢
    rwa [count_readText hunits]
  have haccepted := jsonGetString_payloadText hunits
  rw [syncPublication, haccepted, if_pos rfl]
  exact ⟨_, rfl, records_syncTable hpairs' _⟩

end PortManager.Native
