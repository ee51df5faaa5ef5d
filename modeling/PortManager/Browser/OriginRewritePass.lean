import PortManager.Browser.OriginPattern

/-!
# Rewriting origins as they arrive

Embeds `OriginRewritePass` of `platform/ports/browser-network-proxy-http.ts`: one global regular expression, applied
to a text that arrives in pieces. A write keeps the suffix that may become an origin back, and runs the expression over the rest
with the character before it in front and a sentinel behind it.

The suffix is looked for in lower case, and `toLowerCase` writes U+0130 as two units: behind such a
character the place found is off by one. Where no U+0130 stands before the unfinished origin, a write keeps
exactly that origin back (`findUnfinishedOrigin_eq`) and puts out what the expression gives on the whole text (`write_advance`).
-/

namespace PortManager.Browser
open JsonText Node Rewriting Rules
open List hiding next

/-! ## Lower case -/

/-- What `toLowerCase` does to units outside of ASCII, in the text they stand in; U+0130 and U+212A apart, these stay outside
of ASCII and keep their number. -/
structure LowerCase where
  other : Units → Nat → Units → Nat
  other_high : ∀ before c after, 128 ≤ other before c after

def LowerCase.unit (table : LowerCase) (before : Units) (c : Nat) (after : Units) : Units :=
  if c < 128 then [lowerAscii c]
  else if c = 0x130 then [0x69, 0x307]
  else if c = 0x212A then [0x6B]
  else [table.other before c after]

def LowerCase.from (table : LowerCase) (before : Units) : Units → Units
  | [] => []
  | c :: after => table.unit before c after ++ table.from (before ++ [c]) after

/-- `String.prototype.toLowerCase` -/
def LowerCase.text (table : LowerCase) (text : Units) : Units := table.from [] text

/-! ## The expression -/

variable (pattern : OriginPattern)

/-- A match at a place: the text of `(^|[^:])`, and the origin. -/
def matchAt (before : Option Nat) (text : Units) : Option (Units × Origin) :=
  if pattern.relative then
    (if before = none then (origin pattern text).map fun found => ([], found) else none) <|>
      match text with
      | [] => none
      | c :: rest => if c = 58 then none else (origin pattern rest).map fun found => ([c], found)
  else if before.any isWordUnit = text.head?.any isWordUnit then none
  else (origin pattern text).map fun found => ([], found)

variable (metadata : EndpointMetadata)

/-- How many units a match takes, and what is written for them. -/
def passRule (before : Option Nat) (text : Units) : Option (Nat × Units) :=
  (matchAt pattern before text).map fun (lead, found) =>
    (text.length - found.rest.length, lead ++ publicOrigin pattern metadata found.lead found.port)

/-- The loop over `pattern.exec(input)`, from a place where `skip` units of the last match are still to come: what is appended to
the result, and the end of the last match. -/
def execLoop (rule : Option Nat → Units → Option (Nat × Units)) :
    Option Nat → Nat → Nat → Option Nat → Units → Units × Option Nat
  | _, _, _, lastMatchEnd, [] => ([], lastMatchEnd)
  | _, skip + 1, index, lastMatchEnd, c :: text => execLoop rule (some c) skip (index + 1) lastMatchEnd text
  | before, 0, index, lastMatchEnd, c :: text =>
    match rule before (c :: text) with
    | some (length, written) =>
      let next := execLoop rule (some c) (length - 1) (index + 1) (some (index + length)) text
      (written ++ next.1, next.2)
    | none =>
      let next := execLoop rule (some c) 0 (index + 1) lastMatchEnd text
      (c :: next.1, next.2)

/-! ## A pass -/

def prefixes : List Units :=
  pattern.hosts.flatMap fun host =>
    (if pattern.relative then [codes "//"] else [codes "http://", codes "https://", codes "ws://", codes "wss://"]).map (· ++ host)

def maxOriginLength : Nat := ((prefixes pattern).map List.length).foldr max 0 + 6

/-- The expression `/^:\d{0,5}$/`. -/
def isPortPart : Units → Bool
  | 58 :: digits => digits.length ≤ 5 && digits.all isDigit
  | _ => false

def isCandidate (candidate : Units) : Bool :=
  (prefixes pattern).any fun text =>
    candidate.isPrefixOf text || (text.isPrefixOf candidate && isPortPart (candidate.drop text.length))

def candidateAt (suffix : Units) (index : Nat) : Bool :=
  (suffix[index]?.any fun c => (codes "hw/").contains c) && isCandidate pattern (suffix.drop index)

def findUnfinishedOrigin (table : LowerCase) (pattern : OriginPattern) (pending : Units) : Nat :=
  let start := pending.length - maxOriginLength pattern
  let suffix := table.text (pending.drop start)
  match (List.range suffix.length).find? (candidateAt pattern suffix) with
  | some index => start + index
  | none => pending.length

/-- The state of a TypeScript `OriginRewritePass`. -/
structure PassState where
  pending : Units
  previousCharacter : Units
  previousConsumed : Bool
deriving DecidableEq

def PassState.new : PassState := ⟨[], [], false⟩

/-- `/[/?#"'...]/.test(next) ? next : "X"` -/
def sentinelOf : Option Nat → Units
  | some next => if isBoundary next then [next] else codes "X"
  | none => codes "X"

/-- The last character of a text, with the unit before it where it is a low surrogate. -/
def lastCharacter (text : Units) : Units :=
  let last := text.getLast?.getD 0
  text.drop (text.length - if 0xDC00 ≤ last ∧ last ≤ 0xDFFF then 2 else 1)

/-- The loop of `write`: the result, and the end of the last match. Protocol-relative expressions do not use a character again
that the last match of the write before consumed. -/
def PassState.matches (state : PassState) (complete sentinel : Units) : Units × Option Nat :=
  let input := state.previousCharacter ++ complete ++ sentinel
  let lastIndex := if pattern.relative && state.previousConsumed then state.previousCharacter.length else 0
  let loop := execLoop (passRule pattern metadata) (input.take lastIndex).getLast? 0 lastIndex none (input.drop lastIndex)
  (input.take lastIndex ++ loop.1, loop.2)

/-- The part of `write` behind the cut. -/
def PassState.rewrite (state : PassState) (complete rest sentinel : Units) : Units × PassState :=
  let found := state.matches pattern metadata complete sentinel
  let output := found.1.drop state.previousCharacter.length
  (if sentinel = [] then output else output.dropLast,
    if complete = [] then { state with pending := rest }
    else
      { pending := rest
        previousConsumed := found.2 = some (state.previousCharacter.length + complete.length)
        previousCharacter := lastCharacter complete })

def PassState.write (table : LowerCase) (pattern : OriginPattern) (metadata : EndpointMetadata) (state : PassState)
    (text : Units) (final : Bool) : Units × PassState :=
  let pending := state.pending ++ text
  let cut := if final then pending.length else findUnfinishedOrigin table pattern pending
  if cut = 0 ∧ ¬final then ([], { state with pending := pending })
  else
    state.rewrite pattern metadata (pending.take cut) (pending.drop cut) (if final then [] else sentinelOf pending[cut]?)

/-! ## Unfinished origins -/

variable {text : Units}

lemma mem_prefixes {pattern : OriginPattern} :
    text ∈ prefixes pattern ↔ ∃ lead ∈ leads pattern.relative, ∃ host ∈ pattern.hosts, text = lead ++ host := by
  -- the expression lists the longer schemes first
  have hleads : ∀ lead, lead ∈ (if pattern.relative then [codes "//"]
      else [codes "http://", codes "https://", codes "ws://", codes "wss://"]) ↔ lead ∈ leads pattern.relative := by
    intro lead
    cases pattern.relative with
    | true => exact Iff.rfl
    | false =>
      simp only [leads, Bool.false_eq_true, if_false, mem_cons, not_mem_nil, or_false]
      tauto
  simp only [prefixes, mem_flatMap, mem_map, hleads]
  constructor
  · rintro ⟨host, hhost, lead, hlead, rfl⟩
    exact ⟨lead, hlead, host, hhost, rfl⟩
  · rintro ⟨lead, hlead, host, hhost, rfl⟩
    exact ⟨host, hhost, lead, hlead, rfl⟩

lemma isPortPart_iff : isPortPart text = true ↔ ∃ digits, text = 58 :: digits ∧ digits.length ≤ 5 ∧
    ∀ c ∈ digits, isDigit c = true := by
  constructor
  · intro h
    unfold isPortPart at h
    split at h
    next digits =>
      rw [Bool.and_eq_true, decide_eq_true_eq, all_eq_true] at h
      exact ⟨digits, rfl, h⟩
    next => cases h
  · rintro ⟨digits, rfl, hlength, hdigits⟩
    rw [isPortPart, Bool.and_eq_true, decide_eq_true_eq, all_eq_true]
    exact ⟨hlength, hdigits⟩

variable {candidate lead host before : Units} {port : Option Units} {c i : Nat} {pattern}

lemma isCandidate_iff :
    isCandidate pattern candidate = true ↔ ∃ lead ∈ leads pattern.relative, ∃ host ∈ pattern.hosts, ∃ port, PortOk port ∧
      candidate <+: lead ++ host ++ portText port := by
  simp only [isCandidate, any_eq_true, Bool.or_eq_true, Bool.and_eq_true, isPrefixOf_iff_prefix]
  constructor
  · rintro ⟨text, htext, h⟩
    obtain ⟨lead, hlead, host, hhost, rfl⟩ := mem_prefixes.mp htext
    refine ⟨lead, hlead, host, hhost, ?_⟩
    rcases h with hpre | ⟨⟨rest, rfl⟩, hpart⟩
    · exact ⟨none, trivial, by rwa [portText, append_nil]⟩
    rw [drop_left' rfl] at hpart
    obtain ⟨digits, rfl, hlength, hdigits⟩ := isPortPart_iff.mp hpart
    cases digits with
    | nil => exact ⟨some [48], ⟨by decide, by decide, by decide⟩, prefix_append_right_inj _ |>.mpr ⟨[48], rfl⟩⟩
    | cons digit digits => exact ⟨some (digit :: digits), ⟨by simp, hlength, hdigits⟩, prefix_refl _⟩
  · rintro ⟨lead, hlead, host, hhost, port, hok, hpre⟩
    refine ⟨lead ++ host, mem_prefixes.mpr ⟨lead, hlead, host, hhost, rfl⟩, ?_⟩
    rcases le_total candidate.length (lead ++ host).length with hle | hle
    · exact .inl (prefix_of_prefix_length_le hpre (prefix_append _ _) hle)
    obtain ⟨rest, rfl⟩ := prefix_of_prefix_length_le (prefix_append _ _) hpre hle
    rw [prefix_append_right_inj] at hpre
    cases rest with
    | nil => exact .inl ⟨[], by simp⟩
    | cons c rest =>
      refine .inr ⟨⟨_, rfl⟩, ?_⟩
      rw [drop_left' rfl]
      cases port with
      | none =>
        obtain ⟨more, hmore⟩ := hpre
        cases hmore
      | some digits =>
        obtain ⟨more, hmore⟩ := hpre
        cases hmore
        refine isPortPart_iff.mpr ⟨rest, rfl, ?_, fun d hd => hok.2.2 d (mem_append_left _ hd)⟩
        have := hok.2.1
        simp only [append_eq, length_append] at this
        omega

lemma mem_origin_units (hlead : lead ∈ leads pattern.relative)
    (hhost : host ∈ pattern.hosts) (hok : PortOk port) (hc : c ∈ lead ++ host ++ portText port) :
    c < 128 ∧ c ≠ 105 ∧ c ≠ 107 ∧ ¬(65 ≤ c ∧ c ≤ 90) := by
  have hleads : ∀ relative, ∀ lead ∈ leads relative, ∀ c ∈ lead, c < 128 ∧ c ≠ 105 ∧ c ≠ 107 ∧ ¬(65 ≤ c ∧ c ≤ 90) := by
    decide
  rcases mem_append.mp hc with hc | hc
  · rcases mem_append.mp hc with hc | hc
    · exact hleads _ lead hlead c hc
    have hmem := isHostUnit_iff.mp (pattern.plain host hhost c hc)
    simp only [mem_cons, not_mem_nil, or_false] at hmem
    omega
  · have := mem_portText hok hc
    omega

lemma lower_of_origin (hlead : lead ∈ leads pattern.relative) (hhost : host ∈ pattern.hosts) (hok : PortOk port)
    (htext : ∀ c ∈ text, c ∈ lead ++ host ++ portText port) : text.map lowerAscii = text :=
  (map_congr_left fun c hc =>
    lowerAscii_of_not_upper (mem_origin_units hlead hhost hok (htext c hc)).2.2.2).trans (map_id _)

lemma unfinished_iff {metadata : EndpointMetadata} :
    (originRules pattern metadata).Unfinished text ↔ isCandidate pattern (text.map lowerAscii) = true := by
  rw [isCandidate_iff]
  constructor
  · rintro ⟨after, _, lead, port, ⟨hlead, hok, host, hhost, hlower⟩, -⟩
    exact ⟨lead, hlead, host, hhost, port, hok, after.map lowerAscii, by rw [← hlower, map_append]⟩
  rintro ⟨lead, hlead, host, hhost, port, hok, after, hafter⟩
  refine ⟨after, _, lead, port, ⟨hlead, hok, host, hhost, ?_⟩, rfl⟩
  have hlower : after.map lowerAscii = after :=
    lower_of_origin hlead hhost hok fun c hc => hafter ▸ mem_append_right _ hc
  rw [map_append, ← hafter, hlower]

lemma isCandidate_length (h : isCandidate pattern candidate = true) : candidate.length ≤ maxOriginLength pattern := by
  obtain ⟨lead, hlead, host, hhost, port, hok, hpre⟩ := isCandidate_iff.mp h
  have hmax : ∀ (lengths : List Nat), ∀ n ∈ lengths, n ≤ lengths.foldr max 0 := by
    intro lengths
    induction lengths with
    | nil => exact fun n hn => absurd hn not_mem_nil
    | cons m lengths ih =>
      intro n hn
      rcases mem_cons.mp hn with rfl | hn
      · exact le_max_left _ _
      · exact le_trans (ih n hn) (le_max_right _ _)
  have htext := hmax ((prefixes pattern).map length) (lead ++ host).length
    (mem_map_of_mem (mem_prefixes.mpr ⟨lead, hlead, host, hhost, rfl⟩))
  have hport : (portText port).length ≤ 6 := by
    cases port with
    | none => exact Nat.zero_le _
    | some digits => exact Nat.succ_le_succ hok.2.1
  have hlength := hpre.length_le
  rw [length_append] at hlength
  unfold maxOriginLength
  omega

lemma isCandidate_head {rest : Units}
    (h : isCandidate pattern (c :: rest) = true) : (codes "hw/").contains c = true := by
  obtain ⟨lead, hlead, host, hhost, port, hok, more, hmore⟩ := isCandidate_iff.mp h
  have hleads : ∀ relative, ∀ lead ∈ leads relative, lead.head?.any (fun c => (codes "hw/").contains c) = true := by decide
  have hhead := hleads _ lead hlead
  cases lead with
  | nil => cases hhead
  | cons d lead =>
    obtain ⟨rfl, -⟩ := cons.inj hmore
    exact hhead

variable (pattern)

/-- Where the first suffix starts that may become an origin. -/
def unfinishedOrigin (pending : Units) : Nat :=
  ((List.range pending.length).find? fun index => isCandidate pattern ((pending.drop index).map lowerAscii)).getD
    pending.length

variable (pending : Units)

lemma unfinishedOrigin_le : unfinishedOrigin pattern pending ≤ pending.length := by
  unfold unfinishedOrigin
  cases hfind : (range pending.length).find? _ with
  | none => exact le_refl _
  | some index => exact le_of_lt (mem_range.mp (mem_of_find?_eq_some hfind))

lemma keepsBack_unfinishedOrigin :
    (originRules pattern metadata).KeepsBack (pending.take (unfinishedOrigin pattern pending))
      (pending.drop (unfinishedOrigin pattern pending)) := by
  have hle := unfinishedOrigin_le pattern pending
  have hnone : ∀ index < unfinishedOrigin pattern pending,
      isCandidate pattern ((pending.drop index).map lowerAscii) = false := by
    intro index hindex
    have hlt : index < pending.length := lt_of_lt_of_le hindex hle
    unfold unfinishedOrigin at hindex
    cases hfind : (range pending.length).find? fun index => isCandidate pattern ((pending.drop index).map lowerAscii) with
    | none => simpa using find?_range_eq_none.mp hfind index hlt
    | some found =>
      rw [hfind] at hindex
      simpa using (find?_range_eq_some.mp hfind).2.2 index hindex
  refine ⟨fun first last hpart hlast hunfinished => ?_, ?_⟩
  · have hlength : first.length < unfinishedOrigin pattern pending := by
      have := congrArg length hpart
      rw [length_take_of_le hle, length_append] at this
      have := length_pos_of_ne_nil hlast
      omega
    have hdrop : last ++ pending.drop (unfinishedOrigin pattern pending) = pending.drop first.length := by
      have hpending := take_append_drop (unfinishedOrigin pattern pending) pending
      rw [hpart, append_assoc] at hpending
      rw [← hpending, drop_left' rfl, hpending]
    rw [hdrop, unfinished_iff, hnone _ hlength] at hunfinished
    cases hunfinished
  · cases hfind : (range pending.length).find? fun index => isCandidate pattern ((pending.drop index).map lowerAscii) with
    | none =>
      left
      rw [unfinishedOrigin, hfind]
      exact drop_length
    | some found =>
      right
      rw [unfinishedOrigin, hfind]
      exact unfinished_iff.mpr (find?_range_eq_some.mp hfind).1

/-! ### The place in lower case -/

variable (table : LowerCase)

lemma LowerCase.length_unit (before : Units) (c : Nat) (after : Units) :
    (table.unit before c after).length = 1 + [c].count 0x130 := by
  unfold LowerCase.unit
  split_ifs with hascii hdotted hkelvin
  · rw [count_singleton, if_neg (by simpa using fun h : c = 0x130 => by omega)]
    rfl
  · subst hdotted
    rfl
  · subst hkelvin
    rfl
  · rw [count_singleton, if_neg (by simpa using hdotted)]
    rfl

/-- Units that are ASCII, and neither an i nor a k, come from the same letters. -/
lemma LowerCase.from_eq_map (h : ∀ c ∈ table.from before text, c < 128 ∧ c ≠ 105 ∧ c ≠ 107) :
    table.from before text = text.map lowerAscii := by
  induction text generalizing before with
  | nil => rfl
  | cons c text ih =>
    rw [LowerCase.from] at h ⊢
    rw [map_cons, ih fun d hd => h d (mem_append_right _ hd)]
    have hunit : ∀ d ∈ table.unit before c text, d < 128 ∧ d ≠ 105 ∧ d ≠ 107 := fun d hd => h d (mem_append_left _ hd)
    unfold LowerCase.unit at hunit ⊢
    split_ifs at hunit ⊢ with hascii hdotted hkelvin
    · rfl
    · exact absurd rfl (hunit 0x69 (by simp)).2.1
    · exact absurd rfl (hunit 0x6B (by simp)).2.2
    have := table.other_high before c text
    have := (hunit _ mem_cons_self).1
    omega

lemma LowerCase.from_ascii (h : ∀ c ∈ text, c < 128) : table.from before text = text.map lowerAscii := by
  induction text generalizing before with
  | nil => rfl
  | cons c text ih =>
    rw [LowerCase.from, ih fun d hd => h d (mem_cons_of_mem _ hd), LowerCase.unit, if_pos (h c mem_cons_self)]
    rfl

/-- Where a unit of the text is found in lower case. -/
def shifted (text : Units) (index : Nat) : Nat := index + (text.take index).count 0x130

lemma shifted_lt {j : Nat} (h : i < j) : shifted text i < shifted text j := by
  have hcount : (text.take i).count 0x130 ≤ (text.take j).count 0x130 :=
    (take_sublist_take_left (le_of_lt h)).count_le _
  unfold shifted
  omega

lemma isCandidate_units {pattern : OriginPattern} (h : isCandidate pattern candidate = true) :
    ∀ c ∈ candidate, c < 128 ∧ c ≠ 105 ∧ c ≠ 107 := by
  obtain ⟨lead, hlead, host, hhost, port, hok, hpre⟩ := isCandidate_iff.mp h
  intro c hc
  have hunits := mem_origin_units hlead hhost hok (hpre.subset hc)
  exact ⟨hunits.1, hunits.2.1, hunits.2.2.1⟩

/-- A candidate in lower case starts where a unit of the text does. -/
lemma exists_of_candidate {pattern : OriginPattern} {index : Nat} (hindex : index < (table.from before text).length)
    (h : isCandidate pattern ((table.from before text).drop index) = true) :
    ∃ i < text.length, index = shifted text i ∧ isCandidate pattern ((text.drop i).map lowerAscii) = true := by
  induction text generalizing before index with
  | nil => cases hindex
  | cons c text ih =>
    by_cases hzero : index = 0
    · subst hzero
      refine ⟨0, by simp, rfl, ?_⟩
      rwa [drop_zero, table.from_eq_map (isCandidate_units h)] at h
    rw [LowerCase.from] at hindex h
    have hlength := table.length_unit before c text
    rw [length_append] at hindex
    rcases lt_or_ge index (table.unit before c text).length with hinside | hbehind
    · -- inside the two units of U+0130
      have hdotted : c = 0x130 := by
        by_contra hne
        rw [count_singleton, if_neg (by simpa using hne)] at hlength
        omega
      subst hdotted
      have hone : index = 1 := by
        have : (table.unit before 0x130 text).length = 2 := rfl
        omega
      subst hone
      exact absurd (isCandidate_units h 0x307 (by simp [LowerCase.unit])).1 (by decide)
    · rw [drop_append, drop_eq_nil_of_le hbehind, nil_append] at h
      obtain ⟨i, hi, hplace, hcandidate⟩ := ih (by omega) h
      refine ⟨i + 1, Nat.succ_lt_succ hi, ?_, hcandidate⟩
      unfold shifted at hplace ⊢
      rw [take_succ_cons, ← singleton_append, count_append]
      omega

lemma drop_shifted (h : ∀ c ∈ text.drop i, c < 128) :
    (table.from before text).drop (shifted text i) = (text.drop i).map lowerAscii := by
  induction text generalizing before i with
  | nil => simp [LowerCase.from]
  | cons c text ih =>
    cases i with
    | zero =>
      rw [drop_zero] at h ⊢
      exact table.from_ascii h
    | succ i =>
      have hplace : shifted (c :: text) (i + 1) = (table.unit before c text).length + shifted text i := by
        rw [table.length_unit, shifted, shifted, take_succ_cons, ← singleton_append, count_append]
        omega
      rw [hplace, LowerCase.from, drop_length_add_append, ih h]
      rfl

lemma length_from (before text : Units) : (table.from before text).length = shifted text text.length := by
  induction text generalizing before with
  | nil => rfl
  | cons c text ih =>
    have hcount : (c :: text).count 0x130 = [c].count 0x130 + text.count 0x130 := by
      rw [← singleton_append, count_append]
    rw [LowerCase.from, length_append, ih, table.length_unit, shifted, shifted, take_length, take_length,
      length_cons, hcount]
    omega

lemma candidateAt_shifted {pattern : OriginPattern}
    (h : isCandidate pattern ((text.drop i).map lowerAscii) = true) (hi : i < text.length) :
    candidateAt pattern (table.text text) (shifted text i) = true ∧ shifted text i < (table.text text).length := by
  have hascii : ∀ c ∈ text.drop i, c < 128 := by
    intro c hc
    have hunit := (isCandidate_units h _ (mem_map_of_mem hc)).1
    unfold lowerAscii at hunit
    split at hunit <;> omega
  have hlt : shifted text i < (table.text text).length := by
    rw [LowerCase.text, length_from]
    exact shifted_lt hi
  refine ⟨?_, hlt⟩
  have hdrop : (table.text text).drop (shifted text i) = (text.drop i).map lowerAscii := drop_shifted table hascii
  rw [candidateAt, Bool.and_eq_true, hdrop]
  refine ⟨?_, h⟩
  rw [drop_eq_getElem_cons hlt] at hdrop
  rw [← hdrop] at h
  rw [getElem?_eq_getElem hlt]
  exact isCandidate_head h

/-- The search finds the first unfinished origin, moved by the characters U+0130 in front of it in the part it looks at. -/
lemma findUnfinishedOrigin_eq :
    findUnfinishedOrigin table pattern pending =
      if unfinishedOrigin pattern pending < pending.length then
        unfinishedOrigin pattern pending +
          ((pending.take (unfinishedOrigin pattern pending)).drop (pending.length - maxOriginLength pattern)).count 0x130
      else pending.length := by
  obtain ⟨start, hstart⟩ : ∃ start, start = pending.length - maxOriginLength pattern := ⟨_, rfl⟩
  -- no candidate is longer than the part that is looked at
  have hwindow : ∀ i < pending.length, isCandidate pattern ((pending.drop i).map lowerAscii) = true → start ≤ i := by
    intro i hi hcandidate
    have hlength := isCandidate_length hcandidate
    rw [length_map, length_drop] at hlength
    omega
  have hfound : ∀ i < pending.length, isCandidate pattern ((pending.drop i).map lowerAscii) = true →
      candidateAt pattern (table.text (pending.drop start)) (shifted (pending.drop start) (i - start)) = true ∧
        shifted (pending.drop start) (i - start) < (table.text (pending.drop start)).length := by
    intro i hi hcandidate
    have hle := hwindow i hi hcandidate
    have hdrop : (pending.drop start).drop (i - start) = pending.drop i := by
      rw [drop_drop, Nat.add_sub_cancel' hle]
    refine candidateAt_shifted table (by rw [hdrop]; exact hcandidate) ?_
    rw [length_drop]
    omega
  unfold findUnfinishedOrigin
  rw [← hstart]
  simp only
  split
  next index hfind =>
    obtain ⟨hat, hmem, hfirst⟩ := find?_range_eq_some.mp hfind
    obtain ⟨i, hi, rfl, hcandidate⟩ := exists_of_candidate table (mem_range.mp hmem) (Bool.and_eq_true_iff.mp hat).2
    rw [length_drop] at hi
    rw [drop_drop] at hcandidate
    have hplace : unfinishedOrigin pattern pending = start + i := by
      have hrange : (range pending.length).find? (fun index => isCandidate pattern ((pending.drop index).map lowerAscii)) =
          some (start + i) := by
        refine find?_range_eq_some.mpr ⟨hcandidate, mem_range.mpr (by omega), fun j hj => ?_⟩
        by_contra hnot
        rw [Bool.not_eq_true, Bool.not_eq_false'] at hnot
        have hle := hwindow j (by omega) hnot
        have hplaces : shifted (pending.drop start) (j - start) < shifted (pending.drop start) i := shifted_lt (by omega)
        have hearlier := hfirst _ hplaces
        rw [(hfound j (by omega) hnot).1] at hearlier
        cases hearlier
      rw [unfinishedOrigin, hrange]
      rfl
    rw [hplace, if_pos (by omega), shifted, drop_take, Nat.add_sub_cancel_left, Nat.add_assoc]
  next hfind =>
    have hnone : unfinishedOrigin pattern pending = pending.length := by
      have hrange : (range pending.length).find? (fun index => isCandidate pattern ((pending.drop index).map lowerAscii)) =
          none := by
        refine find?_range_eq_none.mpr fun i hi => ?_
        by_contra hnot
        rw [Bool.not_eq_true, Bool.not_eq_false'] at hnot
        obtain ⟨hat, hlt⟩ := hfound i hi hnot
        have hmissing := find?_range_eq_none.mp hfind _ hlt
        rw [hat] at hmissing
        cases hmissing
      rw [unfinishedOrigin, hrange]
      rfl
    rw [hnone, if_neg (lt_irrefl _)]

/-! ## The loop over the matches -/

section Loop

variable {pattern : OriginPattern} {metadata : EndpointMetadata} {text : Units}

lemma find_originRules :
    (originRules pattern metadata).find text = (origin pattern text).map fun found =>
      (text.take (text.length - found.rest.length), publicOrigin pattern metadata found.lead found.port) := rfl

lemma allows_absolute (hrelative : pattern.relative = false) (before : Option Nat) (used : Bool) :
    (originRules pattern metadata).allows before used = !before.any isWordUnit := by
  show allowsOrigin pattern before used = _
  unfold allowsOrigin
  rw [hrelative]
  rfl

lemma allows_relative (hrelative : pattern.relative = true) (c : Nat) (used : Bool) :
    (originRules pattern metadata).allows (some c) used = (!used && c != 58) := by
  show allowsOrigin pattern (some c) used = _
  unfold allowsOrigin
  rw [hrelative]
  rfl

lemma findAt_used (hrelative : pattern.relative = true) (c skip : Nat) (text : Units) :
    (originRules pattern metadata).findAt ⟨some c, true, skip⟩ text = none := by
  unfold findAt
  rw [allows_relative hrelative]
  rfl

lemma matchAt_absolute (hrelative : pattern.relative = false) (before : Option Nat) (text : Units) :
    matchAt pattern before text = if before.any isWordUnit = text.head?.any isWordUnit then none
      else (origin pattern text).map fun found => ([], found) := by
  unfold matchAt
  rw [hrelative]
  rfl

variable {found : Origin} {before lastMatchEnd : Option Nat} {c index : Nat} {written ahead : Units}
    {rule : Option Nat → Units → Option (Nat × Units)}

lemma matchAt_start (hrelative : pattern.relative = true)
    (h : origin pattern text = some found) : matchAt pattern none text = some ([], found) := by
  unfold matchAt
  rw [hrelative, h]
  rfl

lemma matchAt_behind (hrelative : pattern.relative = true) (h : before ≠ none ∨ origin pattern (c :: text) = none) :
    matchAt pattern before (c :: text) = if c = 58 then none else (origin pattern text).map fun found => ([c], found) := by
  unfold matchAt
  rw [hrelative]
  simp only [if_true]
  split_ifs with hbefore
  all_goals first
    | rfl
    | rw [h.resolve_left (fun hne => hne hbefore)]
      rfl

lemma rest_length_le (h : origin pattern text = some found) : found.rest.length ≤ text.length := by
  obtain ⟨-, word, rfl, -⟩ := origin_eq_some_iff.mp h
  simp

lemma passRule_absolute (hrelative : pattern.relative = false) (before : Option Nat) (used : Bool) (text : Units) :
    passRule pattern metadata before text =
      ((originRules pattern metadata).findAt (.at before used) text).map fun (word, written) => (word.length, written) := by
  cases horigin : origin pattern text with
  | none =>
    have hfind : (originRules pattern metadata).findAt (.at before used) text = none := by
      unfold findAt
      rw [find_originRules, horigin]
      split <;> rfl
    rw [hfind, passRule, matchAt_absolute hrelative, horigin]
    split <;> rfl
  | some found =>
    have hlength : (text.take (text.length - found.rest.length)).length = text.length - found.rest.length :=
      length_take_of_le (Nat.sub_le _ _)
    -- an absolute origin starts with a letter
    have hhead : text.head?.any isWordUnit = true := by
      obtain ⟨-, word, rfl, hword⟩ := origin_eq_some_iff.mp horigin
      obtain ⟨x, y, rest, rfl, hstarts⟩ := originWord_starts hword
      rw [hrelative] at hstarts
      simp only [Starts, Bool.false_eq_true, if_false] at hstarts
      simp only [cons_append, head?_cons, Option.any_some, isWordUnit, isDigit, Bool.or_eq_true,
        Bool.and_eq_true, decide_eq_true_eq, beq_iff_eq]
      unfold lowerAscii at hstarts
      split at hstarts <;> omega
    unfold findAt
    rw [find_originRules, horigin, passRule, matchAt_absolute hrelative, horigin, hhead, Place.at]
    simp only [allows_absolute hrelative]
    cases before.any isWordUnit with
    | true => rfl
    | false => simp [hlength]

lemma passRule_start (hrelative : pattern.relative = true) {text word : Units}
    (h : (originRules pattern metadata).find text = some (word, written)) :
    passRule pattern metadata none text = some (word.length, written) := by
  rw [find_originRules] at h
  obtain ⟨found, horigin, hfound⟩ := Option.map_eq_some_iff.mp h
  cases hfound
  rw [passRule, matchAt_start hrelative horigin, length_take_of_le (Nat.sub_le _ _)]
  rfl

lemma passRule_behind (hrelative : pattern.relative = true)
    (hstart : before ≠ none ∨ (originRules pattern metadata).find (c :: text) = none) :
    passRule pattern metadata before (c :: text) =
      ((originRules pattern metadata).findAt (.at (some c) false) text).map fun (word, written) =>
        (word.length + 1, c :: written) := by
  have hmatch : matchAt pattern before (c :: text) =
      if c = 58 then none else (origin pattern text).map fun found => ([c], found) :=
    matchAt_behind hrelative (hstart.imp_right fun h => by rwa [find_originRules, Option.map_eq_none_iff] at h)
  unfold findAt
  rw [passRule, hmatch, find_originRules, Place.at]
  simp only [allows_relative hrelative, Bool.not_false, Bool.true_and, bne_iff_ne, ne_eq, ite_not]
  split_ifs with hcolon
  · rfl
  cases horigin : origin pattern text with
  | none => rfl
  | some found =>
    have hle := rest_length_le horigin
    simp only [Option.map_some, Option.some.injEq, Prod.mk.injEq, length_cons, singleton_append, and_true]
    rw [length_take_of_le (Nat.sub_le _ _)]
    omega

/-- The place from which the loop goes on finds no origin that it should have matched one character earlier. -/
def Settled (pattern : OriginPattern) (metadata : EndpointMetadata) (place : Place Nat) (text : Units) : Prop :=
  pattern.relative = true → place.skip = 0 → place.before = none ∨ (originRules pattern metadata).findAt place text = none

/-- The end of the last match tells whether the place is behind one. -/
def Marks (lastMatchEnd : Option Nat) (index : Nat) (place : Place Nat) : Prop :=
  (∀ stop ∈ lastMatchEnd, stop ≤ index + place.skip) ∧
    (lastMatchEnd = some (index + place.skip) ↔ place.used = true ∨ 0 < place.skip)

lemma marks_start : Marks none 0 (.at none false) := by
  refine ⟨fun stop hstop => ?_, iff_of_false (by simp) (by simp [Place.at])⟩
  cases hstop

lemma Marks.copied {used : Bool} (h : Marks lastMatchEnd index (.at before used)) (c : Nat) :
    Marks lastMatchEnd (index + 1) (.at (some c) false) := by
  refine ⟨fun stop hstop => Nat.le_succ_of_le (h.1 stop hstop), iff_of_false ?_ (by simp [Place.at])⟩
  intro hstop
  exact Nat.not_succ_le_self _ (h.1 _ hstop)

lemma Marks.matched (index length : Nat) (before : Option Nat) :
    Marks (some (index + 1 + length)) (index + 1) ⟨before, true, length⟩ :=
  ⟨fun _ hstop => le_of_eq (Option.some.inj hstop).symm, by simp⟩

lemma execLoop_copy (h : rule before (c :: text) = none) :
    execLoop rule before 0 index lastMatchEnd (c :: text) =
      (c :: (execLoop rule (some c) 0 (index + 1) lastMatchEnd text).1,
        (execLoop rule (some c) 0 (index + 1) lastMatchEnd text).2) := by
  rw [execLoop, h]

lemma execLoop_match {length : Nat} (h : rule before (c :: text) = some (length + 1, written)) :
    execLoop rule before 0 index lastMatchEnd (c :: text) =
      (written ++ (execLoop rule (some c) length (index + 1) (some (index + 1 + length)) text).1,
        (execLoop rule (some c) length (index + 1) (some (index + 1 + length)) text).2) := by
  rw [execLoop, h, add_right_comm index 1 length]
  rfl

/-- What the loop leaves to do behind a part of the input. -/
def Continues (pattern : OriginPattern) (metadata : EndpointMetadata) (loop : Units × Option Nat) (index : Nat)
    (scan : Units × Place Nat) (ahead : Units) : Prop :=
  ∃ lastMatchEnd, Marks lastMatchEnd index scan.2 ∧ Settled pattern metadata scan.2 ahead ∧
    loop = (scan.1 ++ (execLoop (passRule pattern metadata) scan.2.before scan.2.skip index lastMatchEnd ahead).1,
      (execLoop (passRule pattern metadata) scan.2.before scan.2.skip index lastMatchEnd ahead).2)

lemma Continues.write {loop : Units × Option Nat} {scan : Units × Place Nat}
    (h : Continues pattern metadata loop index scan ahead) (written : Units) :
    Continues pattern metadata (written ++ loop.1, loop.2) index (written ++ scan.1, scan.2) ahead := by
  obtain ⟨lastMatchEnd, hmarks, hsettled, rfl⟩ := h
  exact ⟨lastMatchEnd, hmarks, hsettled, by rw [append_assoc]⟩

/-- The loop over the matches scans for origins. -/
lemma execLoop_advance (hahead : (originRules pattern metadata).find ahead = none) (part : Units)
    {place : Place Nat} (hmarks : Marks lastMatchEnd index place)
    (hsettled : Settled pattern metadata place (part ++ ahead)) :
    Continues pattern metadata
      (execLoop (passRule pattern metadata) place.before place.skip index lastMatchEnd (part ++ ahead))
      (index + part.length) (advance (originRules pattern metadata) ahead place part) ahead := by
  induction part generalizing place index lastMatchEnd with
  | nil => exact ⟨lastMatchEnd, by simpa using hmarks, by simpa using hsettled, by simp⟩
  | cons c part ih =>
    obtain ⟨before, used, skip⟩ := place
    have hindex : index + (c :: part).length = index + 1 + part.length := by
      rw [length_cons]
      omega
    rw [hindex]
    -- behind a match that takes `length` more units
    have hmatched : ∀ length, Continues pattern metadata
        (execLoop (passRule pattern metadata) (some c) length (index + 1) (some (index + 1 + length)) (part ++ ahead))
        (index + 1 + part.length) (advance (originRules pattern metadata) ahead ⟨some c, true, length⟩ part) ahead := by
      intro length
      exact ih (Marks.matched index length (some c)) fun hrelative _ => .inr (findAt_used hrelative c length _)
    cases skip with
    | succ skip =>
      obtain rfl : lastMatchEnd = some (index + 1 + skip) := by
        rw [hmarks.2.mpr (.inr (Nat.succ_pos _))]
        congr 1
        show index + (skip + 1) = index + 1 + skip
        omega
      exact hmatched skip
    | zero =>
      rw [← Place.at] at hmarks hsettled ⊢
      have hcopied : passRule pattern metadata before (c :: (part ++ ahead)) = none →
          (originRules pattern metadata).findAt (.at before used) (c :: part ++ ahead) = none →
          (pattern.relative = true → (originRules pattern metadata).findAt (.at (some c) false) (part ++ ahead) = none) →
          Continues pattern metadata
            (execLoop (passRule pattern metadata) before 0 index lastMatchEnd (c :: part ++ ahead))
            (index + 1 + part.length)
            (advance (originRules pattern metadata) ahead (.at before used) (c :: part)) ahead := by
        intro hrule hfind hnext
        rw [cons_append, execLoop_copy hrule, advance_copy hfind]
        exact (ih (hmarks.copied c) fun hrelative _ => .inr (hnext hrelative)).write [c]
      have hreplaced : ∀ word written, passRule pattern metadata before (c :: (part ++ ahead)) = some (word.length, written) →
          (originRules pattern metadata).findAt (.at before used) (c :: part ++ ahead) = some (word, written) →
          word ≠ [] → Continues pattern metadata
            (execLoop (passRule pattern metadata) before 0 index lastMatchEnd (c :: part ++ ahead))
            (index + 1 + part.length)
            (advance (originRules pattern metadata) ahead (.at before used) (c :: part)) ahead := by
        intro word written hrule hfind hne
        obtain ⟨first, word, rfl⟩ := exists_cons_of_ne_nil hne
        rw [cons_append, execLoop_match hrule, advance_replace hfind]
        exact (hmatched word.length).write written
      cases hrelative : pattern.relative with
      | false =>
        have hrule : passRule pattern metadata before (c :: (part ++ ahead)) = _ :=
          passRule_absolute hrelative before used _
        cases hfind : (originRules pattern metadata).findAt (.at before used) (c :: (part ++ ahead)) with
        | none =>
          rw [hfind] at hrule
          refine hcopied hrule hfind fun h => ?_
          rw [hrelative] at h
          cases h
        | some found =>
          rw [hfind] at hrule
          exact hreplaced _ _ hrule hfind (word_ne_nil hfind)
      | true =>
        by_cases hstart : before = none ∧ ∃ found, (originRules pattern metadata).find (c :: (part ++ ahead)) = some found
        · obtain ⟨rfl, ⟨word, written⟩, hfind⟩ := hstart
          have hfindAt : (originRules pattern metadata).findAt (.at none used) (c :: (part ++ ahead)) = some (word, written) := by
            rw [findAt, if_pos (by show allowsOrigin pattern none used = true; unfold allowsOrigin; rw [hrelative]; rfl)]
            exact hfind
          exact hreplaced _ _ (passRule_start hrelative hfind) hfindAt (word_ne_nil hfindAt)
        have hstart' : before ≠ none ∨ (originRules pattern metadata).find (c :: (part ++ ahead)) = none := by
          by_cases hbefore : before = none
          · exact .inr (Option.eq_none_iff_forall_ne_some.mpr fun found hfound => hstart ⟨hbefore, found, hfound⟩)
          · exact .inl hbefore
        have hfind : (originRules pattern metadata).findAt (.at before used) (c :: part ++ ahead) = none := by
          rcases hsettled hrelative rfl with hbefore | hfind
          · rw [findAt, cons_append, hstart'.resolve_left (fun h => h hbefore), ite_self]
          · exact hfind
        have hrule : passRule pattern metadata before (c :: (part ++ ahead)) = _ := passRule_behind hrelative hstart'
        cases hnext : (originRules pattern metadata).findAt (.at (some c) false) (part ++ ahead) with
        | none =>
          rw [hnext] at hrule
          exact hcopied hrule hfind fun _ => hnext
        | some found =>
          obtain ⟨word, written⟩ := found
          rw [hnext] at hrule
          -- the origin starts in this part, not in what is ahead
          obtain ⟨d, part, rfl⟩ : ∃ d rest, part = d :: rest := by
            refine exists_cons_of_ne_nil ?_
            rintro rfl
            rw [nil_append, findAt, hahead, ite_self] at hnext
            cases hnext
          obtain ⟨first, word, rfl⟩ := exists_cons_of_ne_nil (word_ne_nil hnext)
          have hscan := (hmatched (word.length + 1)).write (c :: written)
          rw [advance_skip] at hscan
          show Continues _ _ (execLoop _ before 0 index lastMatchEnd (c :: (d :: part ++ ahead))) _ _ _
          rw [execLoop_match hrule, advance_copy hfind, advance_replace hnext]
          exact hscan

end Loop

/-! ## Writes -/

section Write

variable {pattern : OriginPattern} {metadata : EndpointMetadata} {text : Units}

lemma passRule_single (before : Option Nat) (c : Nat) : passRule pattern metadata before [c] = none := by
  cases hrelative : pattern.relative with
  | false =>
    rw [passRule_absolute hrelative before false, findAt, find_short (by simp), ite_self]
    rfl
  | true =>
    rw [passRule_behind hrelative (.inr (find_short (by simp))), findAt, find_short (by simp), ite_self]
    rfl

lemma execLoop_lastMatchEnd (rule : Option Nat → Units → Option (Nat × Units)) (before : Option Nat) (skip index : Nat)
    (lastMatchEnd : Option Nat) (text : Units) :
    execLoop rule before skip index lastMatchEnd text =
      ((execLoop rule before skip index none text).1, (execLoop rule before skip index none text).2.or lastMatchEnd) := by
  induction text generalizing before skip index lastMatchEnd with
  | nil => cases skip <;> rfl
  | cons c text ih =>
    cases skip with
    | succ skip => exact ih ..
    | zero =>
      rw [execLoop, execLoop]
      cases rule before (c :: text) with
      | none =>
        simp only
        rw [ih]
      | some found =>
        simp only
        rw [ih _ _ _ (some _)]
        simp

variable {ahead sentinel complete : Units} {state : PassState}

def PassState.place (state : PassState) : Place Nat := .at state.previousCharacter.getLast? state.previousConsumed

lemma advance_absolute (hrelative : pattern.relative = false) (before : Option Nat)
    (used used' : Bool) (hne : text ≠ []) :
    advance (originRules pattern metadata) ahead (.at before used) text =
      advance (originRules pattern metadata) ahead (.at before used') text := by
  obtain ⟨c, text, rfl⟩ := exists_cons_of_ne_nil hne
  have hsame : (originRules pattern metadata).findAt (.at before used) (c :: text ++ ahead) =
      (originRules pattern metadata).findAt (.at before used') (c :: text ++ ahead) := by
    rw [findAt, findAt, Place.at, Place.at]
    simp only [allows_absolute hrelative]
  cases hfind : (originRules pattern metadata).findAt (.at before used') (c :: text ++ ahead) with
  | none => rw [advance_copy (hsame.trans hfind), advance_copy hfind]
  | some found => rw [advance_replace (hsame.trans hfind), advance_replace hfind]

lemma execLoop_sentinel {place : Place Nat} {index : Nat} {lastMatchEnd : Option Nat}
    (hsentinel : sentinel.length ≤ 1) (hskip : sentinel ≠ [] → place.skip = 0) :
    execLoop (passRule pattern metadata) place.before place.skip index lastMatchEnd sentinel = (sentinel, lastMatchEnd) := by
  match sentinel, hsentinel with
  | [], _ => cases place.skip <;> rfl
  | [c], _ =>
    rw [hskip (cons_ne_nil _ _), execLoop_copy (passRule_single _ _)]
    rfl

lemma matches_eq (hbehind : ∀ first last, state.previousCharacter = first ++ last → last ≠ [] →
      (originRules pattern metadata).find (last ++ (complete ++ sentinel)) = none)
    (hnew : state.previousCharacter = [] → state.previousConsumed = false)
    (hsentinel : sentinel.length ≤ 1) (hne : complete ≠ [])
    (hskip : (advance (originRules pattern metadata) sentinel state.place complete).2.skip = 0) :
    (state.matches pattern metadata complete sentinel).1 = state.previousCharacter ++
        (advance (originRules pattern metadata) sentinel state.place complete).1 ++ sentinel ∧
      ((state.matches pattern metadata complete sentinel).2 = some (state.previousCharacter.length + complete.length) ↔
        (advance (originRules pattern metadata) sentinel state.place complete).2.used = true) := by
  have hahead : (originRules pattern metadata).find sentinel = none := find_short (by omega)
  obtain ⟨pending, previous, consumed⟩ := state
  unfold PassState.matches
  simp only [PassState.place] at hbehind hnew hskip ⊢
  cases hlast : pattern.relative && consumed with
  | true =>
    obtain ⟨hrelative, rfl⟩ := Bool.and_eq_true_iff.mp hlast
    obtain ⟨first, last, rfl⟩ : ∃ first last, previous = first ++ [last] := by
      rcases eq_nil_or_concat previous with rfl | ⟨first, last, rfl⟩
      · cases hnew rfl
      · exact ⟨first, last, concat_eq_append⟩
    have hsettled : Settled pattern metadata (.at (some last) true) (complete ++ sentinel) := by
      refine fun _ _ => .inr ?_
      exact findAt_used hrelative last 0 _
    have hmarks : Marks (some (first ++ [last]).length) (first ++ [last]).length (.at (some last) true) :=
      ⟨fun _ hstop => le_of_eq (Option.some.inj hstop).symm, iff_of_true rfl (.inl rfl)⟩
    obtain ⟨stop, hstop, -, hloop⟩ := execLoop_advance hahead complete hmarks hsettled
    rw [getLast?_concat] at hskip ⊢
    rw [execLoop_sentinel hsentinel fun _ => hskip, execLoop_lastMatchEnd] at hloop
    obtain ⟨hwritten, hend⟩ := Prod.mk.inj hloop
    simp only [if_true]
    rw [append_assoc _ complete, take_left' rfl, drop_left' rfl, getLast?_concat,
      append_assoc (first ++ [last])]
    refine ⟨congrArg (first ++ [last] ++ ·) hwritten, ?_⟩
    -- the loop starts without a match, which is no match behind the complete part either
    have hlength := length_pos_of_ne_nil hne
    have hiff := hstop.2
    have hend' : (execLoop (passRule pattern metadata) (some last) 0 (first ++ [last]).length none
        (complete ++ sentinel)).2.or (some (first ++ [last]).length) = stop := hend
    rw [hskip, ← hend'] at hiff
    simp only [add_zero, lt_irrefl, or_false] at hiff
    rw [← hiff]
    cases (execLoop (passRule pattern metadata) (some last) 0 (first ++ [last]).length none (complete ++ sentinel)).2 with
    | none =>
      refine iff_of_false (by simp) fun h => ?_
      have := Option.some.inj h
      omega
    | some found => rfl
  | false =>
    obtain ⟨stop, hstop, -, hloop⟩ := execLoop_advance hahead (previous ++ complete) marks_start fun _ _ => .inl rfl
    have hscan : advance (originRules pattern metadata) sentinel (.at none false) (previous ++ complete) =
        (previous ++ (advance (originRules pattern metadata) sentinel (.at previous.getLast? consumed) complete).1,
          (advance (originRules pattern metadata) sentinel (.at previous.getLast? consumed) complete).2) := by
      rw [advance_append, advance_copies hbehind, Option.or_none]
      cases hrelative : pattern.relative with
      | false => rw [advance_absolute hrelative _ consumed false hne]
      | true =>
        rw [hrelative, Bool.true_and] at hlast
        rw [hlast]
    rw [hscan] at hloop hstop
    rw [execLoop_sentinel hsentinel fun _ => hskip] at hloop
    simp only [Bool.false_eq_true, if_false, take_zero, drop_zero, getLast?_nil, nil_append]
    rw [show execLoop (passRule pattern metadata) none 0 0 none (previous ++ complete ++ sentinel) = _ from hloop]
    refine ⟨rfl, ?_⟩
    have hiff := hstop.2
    rw [hskip] at hiff
    simpa using hiff

lemma matches_nil (hbehind : ∀ first last, state.previousCharacter = first ++ last → last ≠ [] →
      (originRules pattern metadata).find (last ++ []) = none) :
    (state.matches pattern metadata [] []).1 = state.previousCharacter := by
  unfold PassState.matches
  simp only [append_nil]
  split
  · rw [take_length, drop_length]
    exact append_nil _
  have hahead : (originRules pattern metadata).find [] = none := find_short (by decide)
  obtain ⟨stop, -, -, hloop⟩ := execLoop_advance hahead state.previousCharacter marks_start fun _ _ => .inl rfl
  rw [advance_copies hbehind, append_nil, execLoop_sentinel (by decide) (fun h => absurd rfl h)] at hloop
  rw [take_zero, drop_zero, getLast?_nil, nil_append,
    show execLoop (passRule pattern metadata) none 0 0 none state.previousCharacter = _ from hloop]
  exact append_nil _

/-- Between writes: no origin starts in the character before and goes on into the pending text. -/
structure PassState.Ready (pattern : OriginPattern) (metadata : EndpointMetadata) (state : PassState) : Prop where
  decided : ∀ first last, state.previousCharacter = first ++ last → last ≠ [] →
    ¬(originRules pattern metadata).Unfinished (last ++ state.pending)
  behind : ∀ first last, state.previousCharacter = first ++ last → last ≠ [] → ∀ more,
    (originRules pattern metadata).find (last ++ (state.pending ++ more)) = none
  fresh : state.previousCharacter = [] → state.previousConsumed = false

lemma ready_new : PassState.new.Ready pattern metadata where
  decided := fun _ _ h hne => absurd (append_eq_nil_iff.mp h.symm).2 hne
  behind := fun _ _ h hne => absurd (append_eq_nil_iff.mp h.symm).2 hne
  fresh := fun _ => rfl

lemma PassState.Ready.append (h : state.Ready pattern metadata) (text : Units) :
    PassState.Ready pattern metadata { state with pending := state.pending ++ text }  where
  decided := fun first last hsplit hne hunfinished => by
    rw [← append_assoc] at hunfinished
    exact h.decided first last hsplit hne hunfinished.of_append
  behind := fun first last hsplit hne more => by
    rw [append_assoc]
    exact h.behind first last hsplit hne (text ++ more)
  fresh := h.fresh

lemma sentinelOf_getElem? (pending : Units) (cut : Nat) :
    sentinelOf pending[cut]? = (originRules pattern metadata).sentinel (pending.drop cut) := by
  rcases lt_or_ge cut pending.length with hlt | hge
  · rw [getElem?_eq_getElem hlt, drop_eq_getElem_cons hlt]
    rfl
  · rw [getElem?_eq_none hge, drop_eq_nil_of_le hge]
    rfl

lemma lastCharacter_suffix (text : Units) : lastCharacter text <:+ text := drop_suffix ..

lemma lastCharacter_length (text : Units) : (lastCharacter text).length ≤ 2 := by
  unfold lastCharacter
  rw [length_drop]
  split <;> omega

lemma getLast?_lastCharacter (hne : text ≠ []) : (lastCharacter text).getLast? = text.getLast? := by
  have hlength := length_pos_of_ne_nil hne
  unfold lastCharacter
  rw [getLast?_drop, if_neg]
  split <;> omega

variable (hready : state.Ready pattern metadata)
include hready

/-- The part in front of the unfinished origin is scanned, and the origin is kept. -/
lemma rewrite_advance {kept : Units} (hpending : state.pending = complete ++ kept) (hne : complete ≠ [])
    (hkeeps : (originRules pattern metadata).KeepsBack complete kept) :
    let written := state.rewrite pattern metadata complete kept ((originRules pattern metadata).sentinel kept)
    written.2.Ready pattern metadata ∧ written.2.pending = kept ∧ ∀ more,
      advance (originRules pattern metadata) [] state.place (state.pending ++ more) =
        (written.1 ++ (advance (originRules pattern metadata) [] written.2.place (kept ++ more)).1,
          (advance (originRules pattern metadata) [] written.2.place (kept ++ more)).2) := by
  intro written
  obtain ⟨unit, hunit, -⟩ := sentinel_cases (R := originRules pattern metadata) kept
  have hskip := skip_advance_of_decided hkeeps state.place (Nat.zero_le _)
  have hbehind : ∀ first last, state.previousCharacter = first ++ last → last ≠ [] →
      (originRules pattern metadata).find (last ++ (complete ++ (originRules pattern metadata).sentinel kept)) = none := by
    intro first last hsplit hlast
    have hboth : (originRules pattern metadata).KeepsBack (last ++ complete) kept := by
      refine ⟨fun before after hpart hafter => ?_, hkeeps.unfinished⟩
      rcases append_eq_append_iff.mp hpart with ⟨middle, -, hcomplete⟩ | ⟨middle, hlast', rfl⟩
      · exact hkeeps.decided middle after hcomplete hafter
      cases middle with
      | nil => exact hkeeps.decided [] complete rfl hne
      | cons c middle =>
        have := hready.decided (first ++ before) (c :: middle) (by rw [hsplit, hlast', append_assoc])
          (cons_ne_nil _ _)
        rwa [hpending, ← append_assoc] at this
    have hnone := hready.behind first last hsplit hlast []
    rw [append_nil, hpending, ← append_assoc] at hnone
    have hsame := hboth.find_sentinel (by simp [hlast]) []
    rw [append_nil, append_assoc] at hsame
    exact hsame.trans hnone
  obtain ⟨hresult, hend⟩ := matches_eq hbehind hready.fresh (by rw [hunit]; exact le_refl _) hne hskip
  have hout : written.1 =
      (advance (originRules pattern metadata) ((originRules pattern metadata).sentinel kept) state.place complete).1 := by
    show (if _ then _ else _) = _
    rw [if_neg (by rw [hunit]; exact cons_ne_nil _ _), hresult, append_assoc, drop_left' rfl, hunit,
      dropLast_concat]
  have hstate : written.2 = ⟨kept, lastCharacter complete,
      (state.matches pattern metadata complete ((originRules pattern metadata).sentinel kept)).2 =
        some (state.previousCharacter.length + complete.length)⟩ := if_neg hne
  have hplace : written.2.place =
      (advance (originRules pattern metadata) ((originRules pattern metadata).sentinel kept) state.place complete).2 := by
    obtain ⟨first, last, rfl⟩ : ∃ first last, complete = first ++ [last] := by
      rcases eq_nil_or_concat complete with rfl | ⟨first, last, rfl⟩
      · exact absurd rfl hne
      · exact ⟨first, last, concat_eq_append⟩
    have hbefore : (advance (originRules pattern metadata) ((originRules pattern metadata).sentinel kept) state.place
        (first ++ [last])).2.before = some last := before_advance state.place first last
    rw [hstate, PassState.place, getLast?_lastCharacter hne, getLast?_concat]
    generalize advance (originRules pattern metadata) _ state.place (first ++ [last]) = scan at hbefore hskip hend
    obtain ⟨_, before, used, skip⟩ := scan
    obtain rfl : before = some last := hbefore
    obtain rfl : skip = 0 := hskip
    have hused : decide ((state.matches pattern metadata (first ++ [last]) ((originRules pattern metadata).sentinel kept)).2 =
        some (state.previousCharacter.length + (first ++ [last]).length)) = used := by
      rw [Bool.eq_iff_iff, decide_eq_true_iff]
      exact hend
    rw [hused]
    rfl
  refine ⟨?_, by rw [hstate], fun more => ?_⟩
  · rw [hstate]
    refine ⟨fun first last hsplit hlast => ?_, fun first last hsplit hlast more => ?_, fun hnil => ?_⟩
    all_goals obtain ⟨before, hbefore⟩ := lastCharacter_suffix complete
    · refine hkeeps.decided (before ++ first) last ?_ hlast
      rw [← hbefore, show lastCharacter complete = first ++ last from hsplit, append_assoc]
    · refine Option.eq_none_iff_forall_ne_some.mpr fun found hfound => ?_
      have hlength := lastCharacter_length complete
      rw [show lastCharacter complete = first ++ last from hsplit] at hbefore hlength
      have hkeeps' : (originRules pattern metadata).KeepsBack (before ++ first ++ last) kept := by
        rw [append_assoc, hbefore]
        exact hkeeps
      rw [← append_assoc] at hfound
      obtain ⟨rest, hlast', -⟩ := (hkeeps'.of_suffix _).word_inside hlast hfound
      obtain ⟨-, -, hword, -⟩ := (originRules pattern metadata).find_iff.mp hfound
      have := (originRules pattern metadata).length_word hword
      have := congrArg length hlast'
      rw [length_append] at this hlength
      omega
    · have hsame := getLast?_lastCharacter hne
      rw [show lastCharacter complete = [] from hnil] at hsame
      rw [getLast?_nil, eq_comm, getLast?_eq_none_iff] at hsame
      exact absurd hsame hne
  · rw [hpending, append_assoc, advance_append, append_nil, ← advance_eq_of_decided hkeeps _ more, hout, hplace]

lemma write_advance {table : LowerCase}
    (hcut : findUnfinishedOrigin table pattern (state.pending ++ text) = unfinishedOrigin pattern (state.pending ++ text)) :
    let written := state.write table pattern metadata text false
    written.2.Ready pattern metadata ∧ ∀ more,
      (advance (originRules pattern metadata) [] state.place (state.pending ++ text ++ more)).1 =
        written.1 ++ (advance (originRules pattern metadata) [] written.2.place (written.2.pending ++ more)).1 := by
  intro written
  have hkeeps := keepsBack_unfinishedOrigin pattern metadata (state.pending ++ text)
  have hle := unfinishedOrigin_le pattern (state.pending ++ text)
  generalize unfinishedOrigin pattern (state.pending ++ text) = cut at hcut hkeeps hle
  by_cases hzero : cut = 0
  · have hwritten : written = ([], { state with pending := state.pending ++ text }) := by
      show PassState.write .. = _
      rw [PassState.write, if_neg Bool.false_ne_true, hcut]
      exact if_pos ⟨hzero, Bool.false_ne_true⟩
    rw [hwritten]
    exact ⟨hready.append text, fun more => rfl⟩
  · have hwritten : written = PassState.rewrite pattern metadata { state with pending := state.pending ++ text }
        ((state.pending ++ text).take cut) ((state.pending ++ text).drop cut)
        ((originRules pattern metadata).sentinel ((state.pending ++ text).drop cut)) := by
      show PassState.write .. = _
      rw [PassState.write, if_neg Bool.false_ne_true, hcut]
      have hsentinel : sentinelOf (state.pending ++ text)[cut]? =
          (originRules pattern metadata).sentinel ((state.pending ++ text).drop cut) := sentinelOf_getElem? _ _
      simp only [hzero, false_and, if_false, Bool.false_eq_true, hsentinel]
      rfl
    have hne : (state.pending ++ text).take cut ≠ [] := by
      rw [ne_eq, take_eq_nil_iff]
      rintro (h | h)
      · exact hzero h
      · rw [h] at hle
        exact hzero (Nat.le_zero.mp hle)
    obtain ⟨hready', hpending, hmore⟩ := rewrite_advance (hready.append text) (take_append_drop cut _).symm hne hkeeps
    rw [hwritten]
    refine ⟨hready', fun more => ?_⟩
    rw [hpending]
    exact congrArg Prod.fst (hmore more)

lemma write_final {table : LowerCase} (text : Units) :
    (state.write table pattern metadata text true).1 =
      (advance (originRules pattern metadata) [] state.place (state.pending ++ text)).1 := by
  have hready' := hready.append text
  have hwritten : state.write table pattern metadata text true =
      state.rewrite pattern metadata (state.pending ++ text) [] [] := by
    rw [PassState.write, if_pos rfl, if_pos rfl, if_neg (by simp), take_length, drop_length]
  have hout : (state.rewrite pattern metadata (state.pending ++ text) [] []).1 =
      (state.matches pattern metadata (state.pending ++ text) []).1.drop state.previousCharacter.length := by
    rw [PassState.rewrite, if_pos rfl]
  rw [hwritten, hout]
  rcases eq_or_ne (state.pending ++ text) [] with hnil | hne
  · have hbehind : ∀ first last, state.previousCharacter = first ++ last → last ≠ [] →
        (originRules pattern metadata).find (last ++ []) = none := by
      intro first last hsplit hlast
      have hnone := hready'.behind first last hsplit hlast []
      simp only [hnil, nil_append] at hnone
      exact hnone
    rw [hnil, matches_nil hbehind, drop_length]
    simp
  · have hskip : (advance (originRules pattern metadata) [] state.place (state.pending ++ text)).2.skip = 0 :=
      skip_advance_nil _ _ (Nat.zero_le _)
    have hbehind : ∀ first last, state.previousCharacter = first ++ last → last ≠ [] →
        (originRules pattern metadata).find (last ++ (state.pending ++ text ++ [])) = none :=
      fun first last hsplit hlast => hready'.behind first last hsplit hlast []
    rw [(matches_eq hbehind hready.fresh (Nat.zero_le _) hne hskip).1, append_nil, drop_left' rfl]

omit hready

end Write

end PortManager.Browser
