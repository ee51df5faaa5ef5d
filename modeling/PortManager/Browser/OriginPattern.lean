import PortManager.Base.Rewriting
import PortManager.Node.RoutePaths

/-!
# Localhost origins in response bodies

Embeds the regular expressions of `platform/ports/browser-network-proxy-http.ts` that find origins of the local host:
`\b(https?|wss?)://` or `//`, a host, `(?::(\d{1,5}))?` and `(?=/|[?#"'...\s<);]|$)`, with the flag `i`. A string is the list of its
UTF-16 code units. The ways in which an expression matches are listed in the order in which the engine
tries them. All pattern characters are ASCII, so the flag `i` compares ASCII letters only.

An origin without what surrounds it is a *word*. The words of one expression have what streaming needs (`originRules`):
at most one delimited word starts at a place, and no word starts inside another.
-/

namespace PortManager.Browser
open JsonText Node List

abbrev Units := List Nat

/-! ## Characters -/

variable (c : Nat)

def lowerAscii : Nat := if 65 ≤ c ∧ c ≤ 90 then c + 32 else c

/-- The class `\d`. -/
def isDigit : Bool := 48 ≤ c && c ≤ 57

/-- The class `\w`, whose edges are `\b`. -/
def isWordUnit : Bool := isDigit c || (65 ≤ c && c ≤ 90) || (97 ≤ c && c ≤ 122) || c == 95

/-- A slash or the class of characters that may follow an origin. -/
def isBoundary : Bool :=
  c == 47 || c == 63 || c == 35 || c == 34 || c == 39 || c == 96 || isSpaceUnit c || c == 60 || c == 41 || c == 59

/-- The units of the hosts: digits and the characters of `localhost`, `127.0.0.1` and `[::1]`. -/
def isHostUnit : Bool := isDigit c || (codes "localhost.:[]").contains c

/-! ## Patterns -/

variable (relative : Bool)

/-- What an origin starts with, in the order of the alternatives. -/
def leads : List Units :=
  if relative then [codes "//"] else [codes "https://", codes "http://", codes "wss://", codes "ws://"]

def Starts (x y : Nat) : Prop :=
  if relative then x = 47 ∧ y = 47 else (x = 104 ∧ y = 116) ∨ (x = 119 ∧ y = 115)

instance (relative : Bool) (x y : Nat) : Decidable (Starts relative x y) := by
  unfold Starts
  infer_instance

/-- The hosts of one expression. They are written in lower case, no origin starts inside one, and none is the beginning of
another. -/
structure OriginPattern where
  relative : Bool
  hosts : List Units
  nonempty : ∀ host ∈ hosts, host ≠ []
  plain : ∀ host ∈ hosts, ∀ c ∈ host, isHostUnit c = true
  calm : ∀ host ∈ hosts, host.IsChain fun x y => ¬Starts false x y
  free : ∀ host ∈ hosts, ∀ host' ∈ hosts, host <+: host' → host = host'

def localPattern : OriginPattern where
  relative := relative
  hosts := [codes "localhost", codes "127.0.0.1", codes "[::1]"]
  nonempty := by decide
  plain := by decide
  calm := by decide
  free := by decide

/-- A network's loopback address, as `loopbackAddressForNetwork` writes it. -/
structure LoopbackHost where
  text : Units
  nonempty : text ≠ []
  dotted : ∀ c ∈ text, isDigit c = true ∨ c = 46

def loopbackPattern (host : LoopbackHost) (relative : Bool) : OriginPattern where
  relative := relative
  hosts := [host.text]
  nonempty := by simpa using host.nonempty
  plain := by
    intro text htext c hc
    obtain rfl := List.mem_singleton.mp htext
    rcases host.dotted c hc with hdigit | rfl
    · rw [isHostUnit, hdigit, Bool.true_or]
    · decide
  calm := by
    intro text htext
    obtain rfl := List.mem_singleton.mp htext
    refine List.Pairwise.isChain (List.pairwise_of_forall_mem_list fun x hx y _ hstarts => ?_)
    have hplain : isDigit x = true ∨ x = 46 := host.dotted x hx
    simp only [isDigit, Bool.and_eq_true, decide_eq_true_eq] at hplain
    simp only [Starts, Bool.false_eq_true, if_false] at hstarts
    omega
  free := by
    intro text htext text' htext' _
    rw [List.mem_singleton.mp htext, List.mem_singleton.mp htext']

/-! ## Matching -/

/-- An origin at the start of a text: what it starts with, its port, and the text behind it. -/
structure Origin where
  lead : Units
  port : Option Units
  rest : Units
deriving DecidableEq

def portText : Option Units → Units
  | none => []
  | some digits => 58 :: digits

/-- `(?::(\d{1,5}))?`: up to five digits, the longest way first, and last no port at all. -/
def portWays (text : Units) : List (Option Units × Units) :=
  (match text with
    | 58 :: rest => [5, 4, 3, 2, 1].filterMap fun count =>
        if count ≤ rest.length ∧ (rest.take count).all isDigit then some (some (rest.take count), rest.drop count)
        else none
    | _ => []) ++ [(none, text)]

def atBoundary (text : Units) : Bool := text.head?.all isBoundary

def startsWith (pattern text : Units) : Bool := (text.take pattern.length).map lowerAscii == pattern

variable (pattern : OriginPattern)

def originWays (text : Units) : List Origin :=
  (leads pattern.relative).flatMap fun lead => pattern.hosts.flatMap fun host =>
    if startsWith (lead ++ host) text then
      ((portWays (text.drop (lead ++ host).length)).filter fun way => atBoundary way.2).map fun way => ⟨lead, way.1, way.2⟩
    else []

def origin (text : Units) : Option Origin := (originWays pattern text).head?

/-! ## Words -/

def PortOk : Option Units → Prop
  | none => True
  | some digits => 1 ≤ digits.length ∧ digits.length ≤ 5 ∧ ∀ c ∈ digits, isDigit c = true

/-- A text that is an origin, with what it starts with and its port. -/
def OriginWord (word lead : Units) (port : Option Units) : Prop :=
  lead ∈ leads pattern.relative ∧ PortOk port ∧
    ∃ host ∈ pattern.hosts, word.map lowerAscii = lead ++ host ++ portText port

variable {c x b : Nat} {text rest word lead lead' : Units} {port port' : Option Units}
    {pattern : OriginPattern} {found : Origin} {relative : Bool}

lemma lowerAscii_eq (hx : ¬(97 ≤ x ∧ x ≤ 122)) (h : lowerAscii c = x) : c = x := by
  unfold lowerAscii at h
  split at h <;> omega

lemma lowerAscii_of_not_upper (h : ¬(65 ≤ c ∧ c ≤ 90)) : lowerAscii c = c := if_neg h

lemma isDigit_iff : isDigit c = true ↔ 48 ≤ c ∧ c ≤ 57 := by simp [isDigit]

lemma isHostUnit_iff : isHostUnit c = true ↔
    (48 ≤ c ∧ c ≤ 57) ∨ c ∈ [108, 111, 99, 97, 108, 104, 111, 115, 116, 46, 58, 91, 93] := by
  rw [isHostUnit, Bool.or_eq_true, isDigit_iff, contains_iff_mem]
  rfl

lemma isBoundary_false (h : (48 ≤ c ∧ c ≤ 58) ∨ (65 ≤ c ∧ c ≤ 95) ∨ (97 ≤ c ∧ c ≤ 122) ∨ c = 46) :
    isBoundary c = false := by
  have hspace : isSpaceUnit c = false := by
    simp only [isSpaceUnit, Bool.or_eq_false_iff, Bool.and_eq_false_iff, decide_eq_false_iff_not, beq_eq_false_iff_ne]
    omega
  simp only [isBoundary, hspace, Bool.or_eq_false_iff, beq_eq_false_iff_ne, and_true]
  omega

lemma isHostUnit_not_boundary (h : isHostUnit c = true) : isBoundary c = false := by
  refine isBoundary_false ?_
  have hmem := isHostUnit_iff.mp h
  simp only [mem_cons, not_mem_nil, or_false] at hmem
  omega

lemma isBoundary_not_upper (h : isBoundary c = true) : ¬(65 ≤ c ∧ c ≤ 90) := by
  intro hupper
  rw [isBoundary_false (.inr (.inl (by omega)))] at h
  cases h

lemma mem_portWays : (port, rest) ∈ portWays text ↔ PortOk port ∧ text = portText port ++ rest := by
  have hlast : (port, rest) ∈ [((none : Option Units), text)] ↔ port = none ∧ text = rest := by
    simp [eq_comm]
  unfold portWays
  rw [mem_append, hlast]
  constructor
  · rintro (h | ⟨rfl, rfl⟩)
    · split at h
      next after =>
        obtain ⟨count, hcount, h⟩ := mem_filterMap.mp h
        split at h
        next hdigits =>
          cases h
          have hlength : (after.take count).length = count := length_take_of_le hdigits.1
          have hbounds : 1 ≤ count ∧ count ≤ 5 := by
            simp only [mem_cons, not_mem_nil, or_false] at hcount
            omega
          refine ⟨⟨by rw [hlength]; exact hbounds.1, by rw [hlength]; exact hbounds.2, all_eq_true.mp hdigits.2⟩, ?_⟩
          rw [portText, cons_append, take_append_drop]
        next => cases h
      next => cases h
    · exact ⟨trivial, rfl⟩
  · rintro ⟨hok, rfl⟩
    cases port with
    | none => exact .inr ⟨rfl, rfl⟩
    | some digits =>
      obtain ⟨hlow, hhigh, hdigits⟩ := hok
      refine .inl (mem_filterMap.mpr ⟨digits.length, ?_, ?_⟩)
      · simp only [mem_cons, not_mem_nil, or_false]
        omega
      · rw [append_eq, take_left' rfl, drop_left' rfl,
          if_pos ⟨by simp, all_eq_true.mpr hdigits⟩]

lemma portText_lower (hok : PortOk port) : (portText port).map lowerAscii = portText port := by
  cases port with
  | none => rfl
  | some digits =>
    refine (map_congr_left fun c hc => lowerAscii_of_not_upper ?_).trans (map_id _)
    rcases mem_cons.mp hc with rfl | hc
    · omega
    · have := isDigit_iff.mp (hok.2.2 c hc)
      omega

lemma eq_of_lower {target : Units} (htarget : ∀ c ∈ target, ¬(97 ≤ c ∧ c ≤ 122))
    (h : text.map lowerAscii = target) : text = target := by
  induction text generalizing target with
  | nil => exact h
  | cons c text ih =>
    subst h
    rw [map_cons] at htarget ⊢
    rw [← ih (fun x hx => htarget x (mem_cons_of_mem _ hx)) rfl, ← lowerAscii_eq (htarget _ mem_cons_self) rfl]

lemma eq_portText_of_lower (hok : PortOk port) (h : text.map lowerAscii = portText port) : text = portText port := by
  refine eq_of_lower ?_ h
  cases port with
  | none => exact fun c hc => absurd hc not_mem_nil
  | some digits =>
    intro c hc
    rcases mem_cons.mp hc with rfl | hc
    · omega
    · have := isDigit_iff.mp (hok.2.2 c hc)
      omega

lemma mem_originWays :
    found ∈ originWays pattern text ↔ atBoundary found.rest = true ∧
      ∃ word, text = word ++ found.rest ∧ OriginWord pattern word found.lead found.port := by
  obtain ⟨lead, port, rest⟩ := found
  simp only [originWays, mem_flatMap]
  constructor
  · rintro ⟨lead', hlead, host, hhost, h⟩
    split at h
    next hstarts =>
      obtain ⟨⟨port', rest'⟩, hway, hfound⟩ := mem_map.mp h
      cases hfound
      obtain ⟨hway, hboundary⟩ := mem_filter.mp hway
      obtain ⟨hok, hdrop⟩ := mem_portWays.mp hway
      refine ⟨hboundary, text.take (lead ++ host).length ++ portText port', ?_, hlead, hok, host, hhost, ?_⟩
      · rw [append_assoc, ← hdrop, take_append_drop]
      · rw [map_append, portText_lower hok, eq_of_beq hstarts]
    next => cases h
  · rintro ⟨hboundary, word, rfl, hlead, hok, host, hhost, hword⟩
    refine ⟨lead, hlead, host, hhost, ?_⟩
    obtain ⟨first, last, rfl, hfirst, hlast⟩ := map_eq_append_iff.mp hword
    obtain rfl := eq_portText_of_lower hok hlast
    have hlength : (lead ++ host).length = first.length := by rw [← hfirst, length_map]
    have hstarts : startsWith (lead ++ host) (first ++ portText port ++ rest) = true := by
      rw [startsWith, hlength, append_assoc, take_left' rfl, hfirst]
      exact beq_self_eq_true _
    rw [if_pos hstarts, hlength, append_assoc, drop_left' rfl]
    exact mem_map.mpr ⟨(port, rest), mem_filter.mpr ⟨mem_portWays.mpr ⟨hok, rfl⟩, hboundary⟩, rfl⟩

/-! ### One word at a place -/

lemma leads_free (relative : Bool) :
    ∀ lead ∈ leads relative, ∀ lead' ∈ leads relative, lead <+: lead' → lead = lead' := by
  cases relative <;> decide

lemma eq_of_append_eq {texts : List Units} (hfree : ∀ a ∈ texts, ∀ b ∈ texts, a <+: b → a = b) {a b s t : Units}
    (ha : a ∈ texts) (hb : b ∈ texts) (h : a ++ s = b ++ t) : a = b := by
  have hb' : b <+: a ++ s := ⟨t, h.symm⟩
  rcases prefix_or_prefix_of_prefix (prefix_append a s) hb' with hle | hle
  · exact hfree a ha b hb hle
  · exact (hfree b hb a ha hle).symm

lemma originWord_unique {word' rest' : Units} (hword : OriginWord pattern word lead port)
    (hword' : OriginWord pattern word' lead' port') (htext : word ++ rest = word' ++ rest')
    (hrest : atBoundary rest = true) (hle : word.length ≤ word'.length) :
    word = word' ∧ lead = lead' ∧ port = port' := by
  obtain ⟨hlead, hok, host, hhost, hlower⟩ := hword
  obtain ⟨hlead', hok', host', hhost', hlower'⟩ := hword'
  obtain ⟨more, rfl⟩ : word <+: word' := prefix_of_prefix_length_le ⟨rest, rfl⟩ (htext ▸ ⟨rest', rfl⟩) hle
  rw [map_append, hlower, append_assoc, append_assoc, append_assoc] at hlower'
  -- both leads begin the same text, and then both hosts
  obtain rfl : lead = lead' := eq_of_append_eq (leads_free _) hlead hlead' hlower'
  replace hlower' := append_cancel_left hlower'
  obtain rfl : host = host' := eq_of_append_eq pattern.free hhost hhost' hlower'
  replace hlower' := append_cancel_left hlower'
  rw [append_assoc] at htext
  have hnext : ∀ c ∈ more.head?, isBoundary c = true := by
    intro c hc
    obtain ⟨tail, rfl⟩ : ∃ tail, more = c :: tail := by
      cases more with
      | nil => cases hc
      | cons d tail => exact ⟨tail, by rw [Option.mem_some.mp hc]⟩
    rw [append_cancel_left htext] at hrest
    exact hrest
  suffices h : more = [] by
    subst h
    rw [map_nil, append_nil] at hlower'
    refine ⟨(append_nil _).symm, rfl, ?_⟩
    cases port <;> cases port' <;> simp_all [portText]
  -- a longer port would go on with a colon or a digit
  cases more with
  | nil => rfl
  | cons c tail =>
    have hc : isBoundary c = true := hnext c rfl
    have hmem : lowerAscii c = 58 ∨ isDigit (lowerAscii c) = true := by
      have hin : lowerAscii c ∈ portText port' := by rw [← hlower']; simp
      cases port' with
      | none => cases hin
      | some digits =>
        rcases mem_cons.mp hin with h | h
        · exact .inl h
        · exact .inr (hok'.2.2 _ h)
    rw [lowerAscii_of_not_upper (isBoundary_not_upper hc), isDigit_iff] at hmem
    rw [isBoundary_false (.inl (by omega))] at hc
    cases hc

lemma origin_eq_some_iff :
    origin pattern text = some found ↔ atBoundary found.rest = true ∧
      ∃ word, text = word ++ found.rest ∧ OriginWord pattern word found.lead found.port := by
  rw [← mem_originWays]
  refine ⟨mem_of_mem_head?, fun hfound => ?_⟩
  obtain ⟨first, hfirst⟩ : ∃ first, origin pattern text = some first := by
    rw [origin, ← Option.isSome_iff_exists, isSome_head?]
    cases hways : originWays pattern text with
    | nil => rw [hways] at hfound; cases hfound
    | cons => exact cons_ne_nil _ _
  obtain ⟨hrest, word, rfl, hword⟩ := mem_originWays.mp hfound
  obtain ⟨hrest', word', htext, hword'⟩ := mem_originWays.mp (mem_of_mem_head? hfirst)
  have hsame : word = word' ∧ found.lead = first.lead ∧ found.port = first.port := by
    rcases le_total word.length word'.length with hle | hle
    · exact originWord_unique hword hword' htext hrest hle
    · obtain ⟨h1, h2, h3⟩ := originWord_unique hword' hword htext.symm hrest' hle
      exact ⟨h1.symm, h2.symm, h3.symm⟩
  obtain ⟨rfl, hlead, hport⟩ := hsame
  have hrests : found.rest = first.rest := append_cancel_left htext
  rw [hfirst]
  obtain ⟨_, _, _⟩ := found
  obtain ⟨_, _, _⟩ := first
  simp only [Origin.mk.injEq, Option.some.injEq] at *
  exact ⟨hlead.symm, hport.symm, hrests.symm⟩

/-! ### No word inside a word -/

lemma not_starts_of_ne (h : x ≠ 47 ∧ x ≠ 104 ∧ x ≠ 119) (y : Nat) : ¬Starts relative x y := by
  cases relative <;> simp only [Starts, Bool.false_eq_true, if_false, if_true] <;> omega

lemma isHostUnit_ne (h : isHostUnit c = true) : c ≠ 47 ∧ c ≠ 88 ∧ c ≠ 120 := by
  have hmem := isHostUnit_iff.mp h
  simp only [mem_cons, not_mem_nil, or_false] at hmem
  omega

lemma mem_portText (hok : PortOk port) (hc : c ∈ portText port) : 48 ≤ c ∧ c ≤ 58 := by
  cases port with
  | none => cases hc
  | some digits =>
    rcases mem_cons.mp hc with rfl | hc
    · omega
    · have := isDigit_iff.mp (hok.2.2 c hc)
      omega

lemma not_starts_boundary (hx : x ≠ 47) (hb : isBoundary b = true ∨ (48 ≤ b ∧ b ≤ 58)) : ¬Starts relative x b := by
  have hletters : b ≠ 116 ∧ b ≠ 115 := by
    constructor
    all_goals
      rintro rfl
      rcases hb with hb | hb
      · rw [isBoundary_false (.inr (.inr (.inl (by omega))))] at hb
        cases hb
      · omega
  cases relative <;> simp only [Starts, Bool.false_eq_true, if_false, if_true] <;> omega

lemma lead_tail (relative : Bool) : ∀ lead ∈ leads relative,
    lead.tail.IsChain (fun x y => ¬Starts relative x y) ∧ lead.tail.getLast? = some 47 ∧ lead.tail ≠ [] := by
  cases relative <;> decide

lemma lead_starts (relative : Bool) : ∀ lead ∈ leads relative, ∃ x y rest, lead = x :: y :: rest ∧ Starts relative x y := by
  cases relative with
  | true => exact fun lead hlead => ⟨47, 47, [], mem_singleton.mp hlead, rfl, rfl⟩
  | false =>
    intro lead hlead
    rcases mem_cons.mp hlead with rfl | hlead
    · exact ⟨104, 116, _, rfl, .inl ⟨rfl, rfl⟩⟩
    rcases mem_cons.mp hlead with rfl | hlead
    · exact ⟨104, 116, _, rfl, .inl ⟨rfl, rfl⟩⟩
    rcases mem_cons.mp hlead with rfl | hlead
    · exact ⟨119, 115, _, rfl, .inr ⟨rfl, rfl⟩⟩
    · exact ⟨119, 115, _, mem_singleton.mp hlead, .inr ⟨rfl, rfl⟩⟩

lemma originWord_calm (hword : OriginWord pattern word lead port) (hb : isBoundary b = true) :
    ((word.map lowerAscii).tail ++ [b]).IsChain fun x y => ¬Starts pattern.relative x y := by
  obtain ⟨hlead, hok, host, hhost, hlower⟩ := hword
  obtain ⟨hchain, hlast, hne⟩ := lead_tail _ lead hlead
  have htail : (word.map lowerAscii).tail = lead.tail ++ (host ++ portText port) := by
    rw [hlower, append_assoc, tail_append_of_ne_nil]
    rintro rfl
    exact hne rfl
  have hplain := pattern.plain host hhost
  rw [htail, append_assoc, append_assoc]
  refine isChain_append.mpr ⟨hchain, isChain_append.mpr ⟨?_, ?_, ?_⟩, ?_⟩
  · cases hrelative : pattern.relative with
    | false => exact pattern.calm host hhost
    | true =>
      refine List.Pairwise.isChain (pairwise_of_forall_mem_list fun x hx y _ hstarts => ?_)
      exact (isHostUnit_ne (hplain x hx)).1 hstarts.1
  · -- the port has none of the first units, and the delimiter is last
    refine isChain_append.mpr ⟨List.Pairwise.isChain (pairwise_of_forall_mem_list fun x hx y _ => ?_),
      isChain_singleton _, fun x hx y _ => ?_⟩
    · have := mem_portText hok hx
      exact not_starts_of_ne (by omega) y
    · have := mem_portText hok (mem_of_getLast? hx)
      exact not_starts_of_ne (by omega) y
  · intro x hx y hy
    refine not_starts_boundary (isHostUnit_ne (hplain x (mem_of_getLast? hx))).1 ?_
    cases hport : portText port with
    | nil =>
      rw [hport] at hy
      obtain rfl : b = y := by simpa using hy
      exact .inl hb
    | cons c rest =>
      rw [hport] at hy
      obtain rfl : c = y := by simpa using hy
      exact .inr (mem_portText hok (by rw [hport]; exact mem_cons_self))
  · intro x hx y hy
    obtain rfl : 47 = x := by simpa [hlast] using hx
    have hy' : y ≠ 47 := by
      obtain ⟨c, rest, rfl⟩ := exists_cons_of_ne_nil (pattern.nonempty host hhost)
      obtain rfl : c = y := by simpa using hy
      exact (isHostUnit_ne (hplain c mem_cons_self)).1
    cases pattern.relative with
    | false => simp [Starts]
    | true => exact fun hstarts => hy' hstarts.2

lemma originWord_starts (hword : OriginWord pattern word lead port) :
    ∃ x y rest, word = x :: y :: rest ∧ Starts pattern.relative (lowerAscii x) (lowerAscii y) := by
  obtain ⟨hlead, hok, host, hhost, hlower⟩ := hword
  obtain ⟨x, y, rest, rfl, hstarts⟩ := lead_starts _ lead hlead
  rw [append_assoc, cons_append, cons_append] at hlower
  match word, hlower with
  | a :: b :: tail, hlower =>
    simp only [map_cons, List.cons.injEq] at hlower
    exact ⟨a, b, tail, rfl, hlower.1 ▸ hlower.2.1 ▸ hstarts⟩

lemma originWord_inner {before inner : Units}
    (hword : OriginWord pattern (before ++ inner) lead port) (hbefore : before ≠ [])
    (hinner : inner ≠ []) (hb : isBoundary b = true) (hword' : OriginWord pattern word lead' port')
    (hpre : inner ++ [b] <+: word ∨ word <+: inner) : False := by
  obtain ⟨x, y, rest, rfl, hstarts⟩ := originWord_starts hword'
  have hcalm := originWord_calm hword hb
  obtain ⟨first, before, rfl⟩ := exists_cons_of_ne_nil hbefore
  obtain ⟨c, inner, rfl⟩ := exists_cons_of_ne_nil hinner
  rw [cons_append, map_cons, tail_cons, map_append, map_cons, append_assoc] at hcalm
  replace hcalm := (isChain_append.mp hcalm).2.1
  rw [cons_append] at hcalm
  cases inner with
  | nil =>
    rcases hpre with hpre | hpre
    · obtain ⟨more, hmore⟩ := hpre
      simp only [cons_append, nil_append, List.cons.injEq] at hmore
      obtain ⟨rfl, rfl, -⟩ := hmore
      rw [lowerAscii_of_not_upper (isBoundary_not_upper hb)] at hstarts
      simp only [map_nil, nil_append, isChain_cons_cons] at hcalm
      exact hcalm.1 hstarts
    · have := hpre.length_le
      simp at this
  | cons d inner =>
    have hsame : c = x ∧ d = y := by
      rcases hpre with ⟨more, hmore⟩ | ⟨more, hmore⟩
      · simp only [cons_append, List.cons.injEq] at hmore
        exact ⟨hmore.1, hmore.2.1⟩
      · simp only [cons_append, List.cons.injEq] at hmore
        exact ⟨hmore.1.symm, hmore.2.1.symm⟩
    obtain ⟨rfl, rfl⟩ := hsame
    simp only [map_cons, cons_append, isChain_cons_cons] at hcalm
    exact hcalm.1 hstarts

/-! ## Replacements -/

inductive PublicProtocol where
  | http
  | https
deriving DecidableEq

/-- TypeScript `BrowserNetworkProxyEndpointMetadata`, as far as the rewriting reads it. A host has no slash. -/
structure EndpointMetadata where
  publicProtocol : PublicProtocol
  publicHost : Units
  publicPort : Nat
  logicalPort : Nat
  upstreamLoopbackHost : Option LoopbackHost
  host_plain : 47 ∉ publicHost

/-- TypeScript `publicProtocolForLocalhostRewrite`, for the scheme in lower case. -/
def publicProtocolForLocalhostRewrite (lead : Units) (metadata : EndpointMetadata) : Units :=
  if lead = codes "ws://" ∨ lead = codes "wss://" then
    match metadata.publicProtocol with
    | .https => codes "wss"
    | .http => codes "ws"
  else
    match metadata.publicProtocol with
    | .https => codes "https"
    | .http => codes "http"

/-- `Number(portText)` for digits. -/
def portNumber (digits : Units) : Nat := digits.foldl (fun n c => n * 10 + (c - 48)) 0

def publicPortForLocalhostRewrite (port : Option Units) (metadata : EndpointMetadata) : Nat :=
  match port with
  | none => metadata.publicPort
  | some digits => if portNumber digits = metadata.logicalPort then metadata.publicPort else portNumber digits

variable (pattern)

/-- What is written for an origin: `${scheme}//${publicHost}:${publicPort}`. -/
def publicOrigin (metadata : EndpointMetadata) (lead : Units) (port : Option Units) : Units :=
  (if pattern.relative then [] else publicProtocolForLocalhostRewrite lead metadata ++ codes ":") ++
    codes "//" ++ metadata.publicHost ++ codes ":" ++ decimal (publicPortForLocalhostRewrite port metadata)

/-- What may stand before an origin: no word character (`\b` in front of a letter); before a protocol-relative one
nothing, or a character other than a colon that no match has consumed (`(^|[^:])`). -/
def allowsOrigin (before : Option Nat) (used : Bool) : Bool :=
  if pattern.relative then
    match before with
    | none => true
    | some c => !used && c != 58
  else !before.any isWordUnit

/-- The origins of a pattern are words that can be rewritten as they arrive. -/
def originRules (metadata : EndpointMetadata) : Rewriting.Rules Nat where
  Word := fun word replacement =>
    ∃ lead port, OriginWord pattern word lead port ∧ replacement = publicOrigin pattern metadata lead port
  boundary := isBoundary
  allows := allowsOrigin pattern
  plain := 88
  find := fun text => (origin pattern text).map fun found =>
    (text.take (text.length - found.rest.length), publicOrigin pattern metadata found.lead found.port)
  find_iff := by
    intro text word replacement
    simp only [Option.map_eq_some_iff, origin_eq_some_iff, Prod.mk.injEq]
    constructor
    · rintro ⟨⟨lead, port, rest⟩, ⟨hboundary, word, rfl, hword⟩, rfl, rfl⟩
      have htake : (word ++ rest).take ((word ++ rest).length - rest.length) = word := by simp
      refine ⟨rest, ?_, ⟨lead, port, ?_, rfl⟩, ?_⟩
      · simp only [htake]
      · simpa only [htake] using hword
      · intro next hnext
        simpa [Option.mem_def.mp hnext, atBoundary] using hboundary
    · rintro ⟨rest, rfl, ⟨lead, port, hword, rfl⟩, hnext⟩
      refine ⟨⟨lead, port, rest⟩, ⟨?_, word, rfl, hword⟩, by simp, rfl⟩
      cases rest with
      | nil => rfl
      | cons c rest => exact hnext c rfl
  boundary_plain := by decide
  length_word := by
    rintro word replacement ⟨lead, port, ⟨hlead, hok, host, hhost, hlower⟩, -⟩
    obtain ⟨x, y, rest, rfl, -⟩ := lead_starts _ lead hlead
    have hlength := congrArg List.length hlower
    have hhost' := List.length_pos_of_ne_nil (pattern.nonempty host hhost)
    simp only [List.length_map, List.length_append, List.length_cons] at hlength
    omega
  last_word := by
    rintro word last replacement ⟨lead, port, ⟨hlead, hok, host, hhost, hlower⟩, -⟩
    -- the last unit is one of the host or of the port
    have hunit : isHostUnit (lowerAscii last) = true := by
      have hne : host ++ portText port ≠ [] := by simp [pattern.nonempty host hhost]
      have hlast : lowerAscii last ∈ host ++ portText port := by
        rw [List.map_append, List.append_assoc] at hlower
        have hget := congrArg List.getLast? hlower
        rw [List.getLast?_append_of_ne_nil _ hne, List.map_singleton, List.getLast?_concat] at hget
        exact List.mem_of_getLast? hget.symm
      rcases List.mem_append.mp hlast with h | h
      · exact pattern.plain host hhost _ h
      have := mem_portText hok h
      refine isHostUnit_iff.mpr ?_
      simp only [List.mem_cons, List.not_mem_nil, or_false]
      omega
    constructor
    · by_contra hboundary
      rw [Bool.not_eq_false] at hboundary
      rw [lowerAscii_of_not_upper (isBoundary_not_upper hboundary)] at hunit
      rw [isHostUnit_not_boundary hunit] at hboundary
      cases hboundary
    · rintro rfl
      cases hunit
  inner_word := by
    rintro before inner after replacement replacement' next ⟨lead, port, hword, -⟩ hbefore hinner hnext
      ⟨lead', port', hword', -⟩
    refine originWord_inner hword hbefore hinner hnext hword' (.inl ⟨after, ?_⟩)
    rw [List.append_assoc]
    rfl

variable {pattern}

end PortManager.Browser
