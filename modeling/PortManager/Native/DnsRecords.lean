import PortManager.Native.Json

/-!
# Browser DNS records and their sidecar file

Embeds the record table of `native/agent/portmanager_agent_dns.c`: the names and addresses the daemon
accepts (`pm_dns_normalize_hostname`, `inet_pton`, `pm_dns_add_pair`), the text it persists
(`pm_dns_persist_records`) and the table a starting daemon reads back from it
(`pm_dns_load_persisted_records`).

The main result is that loading undoes persisting (`loadPersistedRecords_persistText`), for every table
whose revision has no control bytes. A record carries the fact that its name is normalized and a table
the bounds of its buffers, so the result has no other hypothesis.
-/

namespace PortManager.Native
open CText List Option

def PM_DNS_MAX_RECORDS : Nat := 4096

/-! ## Names -/

/-- C `islower` in the C locale. -/
def islower (c : UInt8) : Bool := 97 ≤ c && c ≤ 122

def isLabelByte (c : UInt8) : Bool := c == 45 || islower c || isdigit c

/-- `label_length == 0 || label_length > 63 || hostname[index - 1] == '-'` -/
def labelEndRefused (label : Nat) (previous : UInt8) : Bool :=
  label == 0 || 63 < label || previous == 45

/-- The loop of C `pm_dns_normalize_hostname`: the rest of the name in lower case. `previous` is
`hostname[index - 1]`. -/
def normalizeHostnameLoop : Text → Nat → UInt8 → Option Text
  | [], label, previous => if labelEndRefused label previous then none else some []
  | ch :: rest, label, previous =>
    if ch = 46 then
      if labelEndRefused label previous then none
      else (normalizeHostnameLoop rest 0 ch).map (ch :: ·)
    else if ¬ isLabelByte (tolower ch) then none
    else if label = 0 ∧ tolower ch = 45 then none
    else (normalizeHostnameLoop rest (label + 1) (tolower ch)).map (tolower ch :: ·)

/-- `if (length > 0 && hostname[length - 1] == '.') hostname[--length] = 0;` -/
def dropTrailingDot (hostname : Text) : Text :=
  if hostname.getLast? = some 46 then hostname.dropLast else hostname

/-- C `pm_dns_normalize_hostname`. -/
def normalizeHostname (hostname : Text) : Option Text :=
  if (dropTrailingDot hostname).length = 0 ∨ 253 < (dropTrailingDot hostname).length then none
  else normalizeHostnameLoop (dropTrailingDot hostname) 0 0

variable {c previous : UInt8} {rest out t name : Text} {label : Nat}

lemma isLabelByte_bounds (h : isLabelByte c) : c = 45 ∨ (48 ≤ c ∧ c ≤ 57) ∨ (97 ≤ c ∧ c ≤ 122) := by
  simp only [isLabelByte, islower, isdigit, Bool.or_eq_true, beq_iff_eq, Bool.and_eq_true,
    decide_eq_true_eq] at h
  rcases h with (h | h) | h
  · exact .inl h
  · exact .inr (.inr h)
  · exact .inr (.inl h)

lemma ne_dot_of_isLabelByte (h : isLabelByte c) : c ≠ 46 := by
  rintro rfl
  cases h

lemma tolower_of_isLabelByte (h : isLabelByte c) : tolower c = c := by
  have hb := isLabelByte_bounds h
  have hupper : ¬ ((65 ≤ c && c ≤ 90) = true) := by
    simp only [Bool.and_eq_true, decide_eq_true_eq, ← UInt8.toNat_inj, UInt8.le_iff_toNat_le,
      UInt8.reduceToNat] at *
    omega
  exact if_neg hupper

lemma normalizeHostnameLoop_cons {ch : UInt8} (h : normalizeHostnameLoop (ch :: rest) label previous = some out) :
    (ch = 46 ∧ labelEndRefused label previous = false ∧
      ∃ tail, out = 46 :: tail ∧ normalizeHostnameLoop rest 0 46 = some tail) ∨
    (isLabelByte (tolower ch) ∧ ¬ (label = 0 ∧ tolower ch = 45) ∧
      ∃ tail, out = tolower ch :: tail ∧
        normalizeHostnameLoop rest (label + 1) (tolower ch) = some tail) := by
  simp only [normalizeHostnameLoop] at h
  split at h
  next hdot =>
    split at h
    · cases h
    next hlabel =>
      obtain ⟨tail, htail, rfl⟩ := map_eq_some_iff.mp h
      subst hdot
      exact .inl ⟨rfl, by simpa using hlabel, tail, rfl, htail⟩
  next =>
    split at h
    · cases h
    next hbyte =>
      split at h
      · cases h
      next hdash =>
        obtain ⟨tail, htail, rfl⟩ := map_eq_some_iff.mp h
        exact .inr ⟨by simpa using hbyte, hdash, tail, rfl, htail⟩

variable (h : normalizeHostnameLoop t label previous = some out)
include h

lemma normalizeHostnameLoop_idem : normalizeHostnameLoop out label previous = some out := by
  induction t generalizing out label previous with
  | nil =>
    simp only [normalizeHostnameLoop] at h
    split at h
    · cases h
    next hlabel =>
      cases h
      simp only [normalizeHostnameLoop, if_neg hlabel]
  | cons ch rest ih =>
    rcases normalizeHostnameLoop_cons h with ⟨-, hlabel, tail, rfl, htail⟩ | ⟨hbyte, hdash, tail, rfl, htail⟩
    · simp only [normalizeHostnameLoop, if_true, hlabel, ih htail, map_some]
      simp
    have hlower := tolower_of_isLabelByte hbyte
    simp only [normalizeHostnameLoop, if_neg (ne_dot_of_isLabelByte hbyte), hlower, hbyte, not_true,
      if_false, if_neg hdash, ih htail, map_some]

lemma length_normalizeHostnameLoop : out.length = t.length := by
  induction t generalizing out label previous with
  | nil =>
    simp only [normalizeHostnameLoop] at h
    split at h <;> cases h
    rfl
  | cons ch rest ih =>
    rcases normalizeHostnameLoop_cons h with ⟨-, -, tail, rfl, htail⟩ | ⟨-, -, tail, rfl, htail⟩ <;>
      simp only [length_cons, ih htail]

lemma normalizeHostnameLoop_bytes : (∀ b ∈ out, b = 46 ∨ isLabelByte b) ∧ out.getLast? ≠ some 46 := by
  induction t generalizing out label previous with
  | nil =>
    simp only [normalizeHostnameLoop] at h
    split at h <;> cases h
    simp
  | cons ch rest ih =>
    rcases normalizeHostnameLoop_cons h with ⟨-, -, tail, rfl, htail⟩ | ⟨hbyte, -, tail, rfl, htail⟩
    · refine ⟨fun b hb => ?_, ?_⟩
      · rcases mem_cons.mp hb with rfl | hb
        · exact .inl rfl
        · exact (ih htail).1 b hb
      cases tail with
      | nil =>
        -- the name would end in an empty label
        have hrest := length_normalizeHostnameLoop htail
        obtain rfl := eq_nil_of_length_eq_zero hrest.symm
        cases htail
      | cons b tail => simpa [getLast?_cons_cons] using (ih htail).2
    · refine ⟨fun b hb => ?_, ?_⟩
      · rcases mem_cons.mp hb with rfl | hb
        · exact .inr hbyte
        · exact (ih htail).1 b hb
      · cases tail with
        | nil => simpa using ne_dot_of_isLabelByte hbyte
        | cons b tail => simpa [getLast?_cons_cons] using (ih htail).2

omit h

lemma normalizeHostname_idem (h : normalizeHostname t = some name) : normalizeHostname name = some name := by
  unfold normalizeHostname at h
  split at h
  · cases h
  next hlength =>
    have hdot : dropTrailingDot name = name := if_neg (normalizeHostnameLoop_bytes h).2
    rw [normalizeHostname, hdot, length_normalizeHostnameLoop h, if_neg hlength]
    exact normalizeHostnameLoop_idem h

lemma normalizeHostname_spec (h : normalizeHostname t = some name) :
    (∀ b ∈ name, b = 46 ∨ isLabelByte b) ∧ name ≠ [] ∧ name.length ≤ 253 := by
  unfold normalizeHostname at h
  split at h
  · cases h
  next hlength =>
    have hname := length_normalizeHostnameLoop h
    refine ⟨(normalizeHostnameLoop_bytes h).1, ?_, by omega⟩
    rintro rfl
    exact hlength (.inl hname.symm)

/-! ## Addresses -/

structure Address where
  first : UInt8
  second : UInt8
  third : UInt8
  fourth : UInt8
deriving DecidableEq, Repr

/-- The loop of `inet_pton` for `AF_INET`, which takes no leading zeros: the octets that are complete and
the value of the one being read. -/
def inetPtonLoop : Text → List Nat → Option Nat → Option (List Nat)
  | [], _, none => none
  | [], octets, some value => if octets.length = 3 then some (octets ++ [value]) else none
  | c :: rest, octets, none =>
    if isdigit c then inetPtonLoop rest octets (some (c.toNat - 48)) else none
  | c :: rest, octets, some value =>
    if isdigit c then
      if value = 0 ∨ 255 < value * 10 + (c.toNat - 48) then none
      else inetPtonLoop rest octets (some (value * 10 + (c.toNat - 48)))
    else if c = 46 ∧ octets.length < 3 then inetPtonLoop rest (octets ++ [value]) none
    else none

/-- `inet_pton(AF_INET, text, &parsed) == 1` with the address it writes. -/
def inetPton (t : Text) : Option Address :=
  match inetPtonLoop t [] none with
  | some [a, b, c, d] => some ⟨.ofNat a, .ofNat b, .ofNat c, .ofNat d⟩
  | _ => none

variable (address : Address)

/-- `"%u.%u.%u.%u"` -/
def Address.dotted : Text :=
  decimal address.first.toNat ++ 46 :: (decimal address.second.toNat ++
    46 :: (decimal address.third.toNat ++ 46 :: decimal address.fourth.toNat))

lemma decimal_of_lt_256 : ∀ n : Fin 256, decimal (n.val : Int) =
    if n.val < 10 then [.ofNat (48 + n.val)]
    else if n.val < 100 then [.ofNat (48 + n.val / 10), .ofNat (48 + n.val % 10)]
    else [.ofNat (48 + n.val / 100), .ofNat (48 + n.val / 10 % 10), .ofNat (48 + n.val % 10)] := by
  decide +kernel

lemma inetPtonLoop_decimal (byte : UInt8) (rest : Text) (octets : List Nat) :
    inetPtonLoop (decimal byte.toNat ++ rest) octets none = inetPtonLoop rest octets (some byte.toNat) := by
  have hlt : byte.toNat < 256 := byte.toNat_lt
  have hdigits := decimal_of_lt_256 ⟨byte.toNat, hlt⟩
  have hdigit : ∀ d : Nat, d < 10 → isdigit (.ofNat (48 + d)) = true ∧ (UInt8.ofNat (48 + d)).toNat - 48 = d := by
    decide
  generalize byte.toNat = n at *
  simp only at hdigits
  rw [hdigits]
  split
  next h1 =>
    have hd := hdigit n h1
    simp only [cons_append, nil_append, inetPtonLoop, hd.1, hd.2, if_true]
  next h1 =>
    split
    next h2 =>
      have hd := hdigit (n / 10) (by omega)
      have hd' := hdigit (n % 10) (by omega)
      simp only [cons_append, nil_append, inetPtonLoop, hd.1, hd.2, hd'.1, hd'.2, if_true]
      rw [if_neg (by omega)]
      congr 2
      omega
    next h2 =>
      have hd := hdigit (n / 100) (by omega)
      have hd' := hdigit (n / 10 % 10) (by omega)
      have hd'' := hdigit (n % 10) (by omega)
      simp only [cons_append, nil_append, inetPtonLoop, hd.1, hd.2, hd'.1, hd'.2, hd''.1, hd''.2,
        if_true]
      rw [if_neg (by omega), if_neg (by omega)]
      congr 2
      omega

lemma inetPton_dotted : inetPton address.dotted = some address := by
  have hdot : isdigit 46 = false := by decide
  have hlast : ∀ octets, inetPtonLoop (decimal address.fourth.toNat) octets none =
      inetPtonLoop [] octets (some address.fourth.toNat) := by
    intro octets
    rw [← inetPtonLoop_decimal, append_nil]
  have hloop : inetPtonLoop address.dotted [] none = some [address.first.toNat, address.second.toNat,
      address.third.toNat, address.fourth.toNat] := by
    rw [Address.dotted, inetPtonLoop_decimal]
    simp only [inetPtonLoop, hdot, inetPtonLoop_decimal, hlast]
    rfl
  simp only [inetPton, hloop, UInt8.ofNat_toNat]

lemma dotted_bytes : ∀ b ∈ address.dotted, b = 46 ∨ isdigit b := by
  intro b hb
  simp only [Address.dotted, mem_append, mem_cons] at hb
  rcases hb with hb | rfl | hb | rfl | hb | rfl | hb
  all_goals first | exact .inl rfl | exact .inr (isdigit_of_mem_decimal hb)

lemma length_dotted_le : address.dotted.length ≤ 19 := by
  have hbyte : ∀ byte : UInt8, (decimal (byte.toNat : Int)).length ≤ 4 := by
    intro byte
    have hlt : byte.toNat < 256 := byte.toNat_lt
    exact length_decimal_le (by omega) (by rw [Int.natAbs_natCast]; omega)
  have h1 := hbyte address.first
  have h2 := hbyte address.second
  have h3 := hbyte address.third
  have h4 := hbyte address.fourth
  simp only [Address.dotted, length_append, length_cons]
  omega

/-! ## The table -/

/-- C `pm_browser_dns_record`. Its name is normalized. -/
structure DnsRecord where
  hostname : Text
  address : Address
  normalized : normalizeHostname hostname = some hostname
deriving DecidableEq

def DnsRecord.read (hostname address : Text) : Option DnsRecord :=
  match h : normalizeHostname hostname with
  | none => none
  | some name => (inetPton address).map fun parsed => ⟨name, parsed, normalizeHostname_idem h⟩

/-- The record table and its revision: `browser_dns_items` and `browser_dns_revision`. -/
@[ext]
structure DnsTable where
  records : List DnsRecord
  revision : Text
  records_le : records.length ≤ PM_DNS_MAX_RECORDS
  revision_lt : revision.length < PM_SMALL
deriving DecidableEq

namespace DnsTable

def empty : DnsTable := ⟨[], [], Nat.zero_le _, by decide⟩

/-- C `pm_dns_append_record`. -/
def appendRecord (table : DnsTable) (record : DnsRecord) : DnsTable :=
  if h : table.records.length < PM_DNS_MAX_RECORDS then
    { table with records := table.records ++ [record], records_le := by simpa using h }
  else table

/-- C `pm_dns_add_pair`: the text before the first `=` is the name. -/
def addPair (table : DnsTable) (pair : Text) : DnsTable :=
  if 61 ∈ pair then
    match DnsRecord.read (pair.takeWhile (· != 61)) (pair.dropWhile (· != 61)).tail with
    | some record => table.appendRecord record
    | none => table
  else table

/-- `snprintf(state->browser_dns_revision, sizeof(...), "%s", text)` -/
def setRevision (table : DnsTable) (text : Text) : DnsTable :=
  { table with
    revision := truncate PM_SMALL text
    revision_lt := Nat.lt_of_le_of_lt (length_truncate_le ..) (by decide) }

end DnsTable

/-! ## The sidecar file -/

def recordLine (record : DnsRecord) : Text := record.hostname ++ 9 :: (record.address.dotted ++ [10])

variable (table : DnsTable)

/-- The text that C `pm_dns_persist_records` writes. -/
def persistText : Text :=
  (if table.revision = [] then [] else ascii "#revision\t" ++ (table.revision ++ [10])) ++
    table.records.flatMap recordLine

/-- The lines that `fgets(line, 512, file)` gives one after another; `line` is what the buffer holds. -/
def fgetsLines : Text → Text → List Text
  | [], line => if line = [] then [] else [line]
  | c :: rest, line =>
    if c = 10 ∨ line.length + 1 = 511 then (line ++ [c]) :: fgetsLines rest []
    else fgetsLines rest (line ++ [c])

/-- `strpbrk(text, "\r\n")` and the cut at what it found. -/
def cutLineEnd (t : Text) : Text := t.takeWhile fun c => c != 13 && c != 10

/-- `*tab = '=';` -/
def tabToEquals (line : Text) : Text :=
  line.takeWhile (· != 9) ++ 61 :: (line.dropWhile (· != 9)).tail

/-- The body of the loop of C `pm_dns_load_persisted_records`, on the C string of a line. -/
def loadLineText (line : Text) : DnsTable :=
  if (ascii "#revision\t").isPrefixOf line then table.setRevision (cutLineEnd (line.drop 10))
  else if 9 ∈ line then table.addPair (cutLineEnd (tabToEquals line))
  else table

/-- One line of the file; a NUL in it ends the C string. -/
def loadLine (line : Text) : DnsTable := loadLineText table (line.takeWhile (· != 0))

/-- C `pm_dns_load_persisted_records` on a fresh state; `none` is a file that cannot be opened. -/
def loadPersistedRecords : Option Text → DnsTable
  | none => .empty
  | some file => (fgetsLines file []).foldl loadLine .empty

/-! ## Loading undoes persisting -/

lemma fgetsLines_line {line held : Text} (hline : (10 : UInt8) ∉ line) (hroom : held.length + line.length < 510) :
    fgetsLines (line ++ 10 :: rest) held = (held ++ (line ++ [10])) :: fgetsLines rest [] := by
  induction line generalizing held with
  | nil => simp [fgetsLines]
  | cons c line ih =>
    obtain ⟨hc, hline⟩ := not_or.mp (fun h => hline (mem_cons.mpr h))
    simp only [length_cons] at hroom
    have hmore : ¬ (c = 10 ∨ held.length + 1 = 511) := by
      rintro (rfl | h)
      · exact hc rfl
      · omega
    rw [cons_append, fgetsLines, if_neg hmore, ih hline (by simp; omega)]
    simp

variable (record : DnsRecord)

lemma hostname_bytes : ∀ b ∈ record.hostname, b ≠ 0 ∧ b ≠ 9 ∧ b ≠ 10 ∧ b ≠ 13 ∧ b ≠ 35 ∧ b ≠ 61 := by
  intro b hb
  rcases (normalizeHostname_spec record.normalized).1 b hb with rfl | hbyte
  · decide
  refine ⟨?_, ?_, ?_, ?_, ?_, ?_⟩
  all_goals
    rintro rfl
    cases hbyte

lemma dotted_ne : ∀ b ∈ address.dotted, b ≠ 0 ∧ b ≠ 10 ∧ b ≠ 13 := by
  intro b hb
  rcases dotted_bytes address b hb with rfl | hbyte
  · decide
  refine ⟨?_, ?_, ?_⟩
  all_goals
    rintro rfl
    cases hbyte

lemma DnsRecord.read_hostname_dotted : DnsRecord.read record.hostname record.address.dotted = some record := by
  unfold DnsRecord.read
  split
  next h => exact absurd (record.normalized.symm.trans h) (by simp)
  next name h =>
    obtain rfl := mem_unique record.normalized h
    simp [inetPton_dotted]

lemma addPair_record : table.addPair (record.hostname ++ 61 :: record.address.dotted) = table.appendRecord record := by
  have hname : ∀ b ∈ record.hostname, (b != 61) = true := by
    intro b hb
    simpa using (hostname_bytes record b hb).2.2.2.2.2
  have hmem : (61 : UInt8) ∈ record.hostname ++ 61 :: record.address.dotted := by simp
  rw [DnsTable.addPair, if_pos hmem, takeWhile_append_of_pos hname, dropWhile_append_of_pos hname]
  simp [DnsRecord.read_hostname_dotted]

lemma loadLine_recordLine : loadLine table (recordLine record) = table.appendRecord record := by
  have hname := hostname_bytes record
  have hno0 : ∀ b ∈ recordLine record, (b != 0) = true := by
    intro b hb
    simp only [recordLine, mem_append, mem_cons, not_mem_nil, or_false] at hb
    rcases hb with hb | rfl | hb | rfl
    · simpa using (hname b hb).1
    · rfl
    · simpa using (dotted_ne _ b hb).1
    · rfl
  have htext : (recordLine record).takeWhile (· != 0) = recordLine record :=
    takeWhile_eq_self_iff.mpr hno0
  have hrevision : (ascii "#revision\t").isPrefixOf (recordLine record) = false := by
    cases hhost : record.hostname with
    | nil => exact absurd hhost (normalizeHostname_spec record.normalized).2.1
    | cons c rest =>
      have hc := (hname c (by simp [hhost])).2.2.2.2.1
      simp [recordLine, hhost, ascii, List.isPrefixOf, Ne.symm hc]
  have htab : (9 : UInt8) ∈ recordLine record := by simp [recordLine]
  have hbefore : ∀ b ∈ record.hostname, (b != 9) = true := by
    intro b hb
    simpa using (hname b hb).2.1
  have hequals : tabToEquals (recordLine record) =
      (record.hostname ++ 61 :: record.address.dotted) ++ [10] := by
    rw [tabToEquals, recordLine, takeWhile_append_of_pos hbefore, dropWhile_append_of_pos hbefore]
    simp
  have hend : ∀ b ∈ record.hostname ++ 61 :: record.address.dotted, (b != 13 && b != 10) = true := by
    intro b hb
    simp only [mem_append, mem_cons] at hb
    rcases hb with hb | rfl | hb
    · simp [(hname b hb).2.2.1, (hname b hb).2.2.2.1]
    · rfl
    · simp [(dotted_ne _ b hb).2.1, (dotted_ne _ b hb).2.2]
  have hcut : cutLineEnd ((record.hostname ++ 61 :: record.address.dotted) ++ [10]) =
      record.hostname ++ 61 :: record.address.dotted := by
    rw [cutLineEnd, takeWhile_append_of_pos hend]
    simp
  rw [loadLine, htext, loadLineText, hrevision, if_neg Bool.false_ne_true, if_pos htab, hequals, hcut]
  exact addPair_record table record

lemma load_recordLines (records : List DnsRecord) (table : DnsTable)
    (hroom : table.records.length + records.length ≤ PM_DNS_MAX_RECORDS) :
    ((fgetsLines (records.flatMap recordLine) []).foldl loadLine table).records = table.records ++ records ∧
    ((fgetsLines (records.flatMap recordLine) []).foldl loadLine table).revision = table.revision := by
  induction records generalizing table with
  | nil => simp [fgetsLines]
  | cons record records ih =>
    simp only [length_cons] at hroom
    have hno10 : (10 : UInt8) ∉ record.hostname ++ 9 :: record.address.dotted := by
      simp only [mem_append, mem_cons, not_or]
      exact ⟨fun h => (hostname_bytes record _ h).2.2.1 rfl, by decide,
        fun h => (dotted_ne _ _ h).2.1 rfl⟩
    have hshort : (record.hostname ++ 9 :: record.address.dotted).length < 510 := by
      have hhost := (normalizeHostname_spec record.normalized).2.2
      have haddress := length_dotted_le record.address
      simp only [length_append, length_cons]
      omega
    have hsplit : (record :: records).flatMap recordLine =
        (record.hostname ++ 9 :: record.address.dotted) ++ 10 :: records.flatMap recordLine := by
      simp [recordLine]
    have hline : [] ++ ((record.hostname ++ 9 :: record.address.dotted) ++ [10]) = recordLine record := by
      simp [recordLine]
    have hless : table.records.length < PM_DNS_MAX_RECORDS := by omega
    have happend : (table.appendRecord record).records = table.records ++ [record] ∧
        (table.appendRecord record).revision = table.revision := by
      simp [DnsTable.appendRecord, hless]
    rw [hsplit, fgetsLines_line hno10 (by simpa using hshort), hline, foldl_cons, loadLine_recordLine]
    obtain ⟨hrecords, hrevision⟩ := ih (table.appendRecord record) (by
      rw [happend.1, length_append, length_singleton]
      omega)
    exact ⟨by rw [hrecords, happend.1, append_assoc]; rfl, by rw [hrevision, happend.2]⟩

def printable (revision : Text) : Prop := ∀ b ∈ revision, 0x20 ≤ b

variable {table : DnsTable}

lemma loadLine_revision {revision : Text} (hprint : printable revision) :
    loadLine table (ascii "#revision\t" ++ (revision ++ [10])) = table.setRevision revision := by
  have hbytes : ∀ b ∈ revision, b ≠ 0 ∧ b ≠ 10 ∧ b ≠ 13 := by
    intro b hb
    have h := hprint b hb
    refine ⟨?_, ?_, ?_⟩
    all_goals
      rintro rfl
      exact absurd h (by decide)
  have hno0 : ∀ b ∈ ascii "#revision\t" ++ (revision ++ [10]), (b != 0) = true := by
    intro b hb
    simp only [mem_append, mem_singleton] at hb
    rcases hb with hb | hb | rfl
    · exact (by decide +kernel : ∀ b ∈ ascii "#revision\t", (b != 0) = true) b hb
    · simpa using (hbytes b hb).1
    · rfl
  have htext := takeWhile_eq_self_iff.mpr hno0
  have hstart : (ascii "#revision\t").isPrefixOf (ascii "#revision\t" ++ (revision ++ [10])) = true :=
    isPrefixOf_iff_prefix.mpr (prefix_append ..)
  have hdrop : (ascii "#revision\t" ++ (revision ++ [10])).drop 10 = revision ++ [10] :=
    drop_left' (by decide)
  have hend : ∀ b ∈ revision, (b != 13 && b != 10) = true := by
    intro b hb
    simp [(hbytes b hb).2.1, (hbytes b hb).2.2]
  have hcut : cutLineEnd (revision ++ [10]) = revision := by
    rw [cutLineEnd, takeWhile_append_of_pos hend]
    simp
  rw [loadLine, htext, loadLineText, if_pos hstart, hdrop, hcut]

/-- A daemon that starts on a persisted table loads that table. -/
theorem loadPersistedRecords_persistText (hprint : printable table.revision) :
    loadPersistedRecords (some (persistText table)) = table := by
  simp only [loadPersistedRecords, persistText]
  by_cases hempty : table.revision = []
  · rw [if_pos hempty, nil_append]
    obtain ⟨hrecords, hrevision⟩ := load_recordLines table.records .empty (by
      simpa [DnsTable.empty] using table.records_le)
    exact DnsTable.ext (by simpa [DnsTable.empty] using hrecords)
      (by simpa [DnsTable.empty, hempty] using hrevision)
  rw [if_neg hempty]
  have hno10 : (10 : UInt8) ∉ ascii "#revision\t" ++ table.revision := by
    simp only [mem_append, not_or]
    exact ⟨by decide, fun h => absurd (hprint _ h) (by decide)⟩
  have hshort : (ascii "#revision\t" ++ table.revision).length < 510 := by
    have hlt := table.revision_lt
    have hlength : (ascii "#revision\t").length = 10 := by decide
    simp only [length_append, hlength, PM_SMALL] at *
    omega
  have hsplit : ascii "#revision\t" ++ (table.revision ++ [10]) ++ table.records.flatMap recordLine =
      (ascii "#revision\t" ++ table.revision) ++ 10 :: table.records.flatMap recordLine := by simp
  have hline : [] ++ ((ascii "#revision\t" ++ table.revision) ++ [10]) =
      ascii "#revision\t" ++ (table.revision ++ [10]) := by simp
  rw [hsplit, fgetsLines_line hno10 (by simpa using hshort), hline, foldl_cons,
    loadLine_revision hprint]
  obtain ⟨hrecords, hrevision⟩ := load_recordLines table.records
    (DnsTable.empty.setRevision table.revision) (by
      simpa [DnsTable.empty, DnsTable.setRevision] using table.records_le)
  refine DnsTable.ext (by simpa [DnsTable.empty, DnsTable.setRevision] using hrecords) ?_
  rw [hrevision]
  exact truncate_of_length_lt table.revision_lt

end PortManager.Native
