import PortManager.Base.JsonObjects
import PortManager.Base.Utf8Chunks

/-!
# Printing JSON

Embeds `JSON.stringify` of the language for values without further arguments: no white space, escapes only where the
grammar or a surrogate that stands alone needs them. Here the strings and names of a `Json` are JavaScript strings,
and the reader gives back their spellings (`document_stringify`).

Every printed text has whole characters. When some of them are cut (`Utf8.Cut`), the text is that of another value
(`cut_stringify`): only strings have characters of more than one octet.
-/

namespace JsonText
open Utf8 List Json Parsed

/-! ## Strings -/

def hexDigit (n : Nat) : Nat := if n < 10 then 48 + n else 87 + n

def unicodeEscape (unit : Nat) : List Nat :=
  [92, 117, hexDigit (unit / 4096 % 16), hexDigit (unit / 256 % 16), hexDigit (unit / 16 % 16), hexDigit (unit % 16)]

/-- A unit that is not half of a pair, in a string. -/
def quoteUnit (unit : Nat) : List Nat :=
  if unit = 8 then [92, 98]
  else if unit = 9 then [92, 116]
  else if unit = 10 then [92, 110]
  else if unit = 12 then [92, 102]
  else if unit = 13 then [92, 114]
  else if unit = 34 ∨ unit = 92 then [92, unit]
  else if unit < 32 ∨ (0xD800 ≤ unit ∧ unit < 0xE000) then unicodeEscape unit
  else [unit]

/-- The spelling of a string between its quotes. -/
def quote : List Nat → List Nat
  | [] => []
  | [unit] => quoteUnit unit
  | unit :: next :: units =>
    if 0xD800 ≤ unit ∧ unit < 0xDC00 ∧ 0xDC00 ≤ next ∧ next < 0xE000 then unit :: next :: quote units
    else quoteUnit unit ++ quote (next :: units)

/-! ## Values -/

mutual

def Json.stringify : Json → List Nat
  | .null => codes "null"
  | .bool true => codes "true"
  | .bool false => codes "false"
  | .number literal => literal
  | .string units => 34 :: quote units ++ [34]
  | .array items => 91 :: (stringifyItems items).tail ++ [93]
  | .object members => 123 :: (stringifyMembers members).tail ++ [125]
termination_by structural json => json

def Json.stringifyItems : List Json → List Nat
  | [] => []
  | json :: items => 44 :: json.stringify ++ stringifyItems items
termination_by structural items => items

def Json.stringifyMembers : List (List Nat × Json) → List Nat
  | [] => []
  | member :: members => 44 :: stringifyMember member ++ stringifyMembers members
termination_by structural members => members

def Json.stringifyMember : List Nat × Json → List Nat
  | (name, json) => 34 :: quote name ++ 34 :: 58 :: json.stringify
termination_by structural member => member

end

mutual

/-- The numbers of a value are spelled as JSON numbers, and its strings have code units. -/
def Json.Printable : Json → Prop
  | .null => True
  | .bool _ => True
  | .number literal => JsonText.number literal = .ok literal []
  | .string units => ∀ unit ∈ units, unit < 0x10000
  | .array items => PrintableItems items
  | .object members => PrintableMembers members
termination_by structural json => json

def Json.PrintableItems : List Json → Prop
  | [] => True
  | json :: items => json.Printable ∧ PrintableItems items
termination_by structural items => items

def Json.PrintableMembers : List (List Nat × Json) → Prop
  | [] => True
  | member :: members => PrintableMember member ∧ PrintableMembers members
termination_by structural members => members

def Json.PrintableMember : List Nat × Json → Prop
  | (name, json) => (∀ unit ∈ name, unit < 0x10000) ∧ json.Printable
termination_by structural member => member

end

/-! ## Numbers -/

def isNumberChar (c : Nat) : Bool := isDigit c || c == 43 || c == 45 || c == 46 || c == 69 || c == 101

/-- What may follow a number without becoming a part of it. -/
def Stops (rest : List Nat) : Prop := ∀ c ∈ rest.head?, isNumberChar c = false

variable {c n fuel unit : Nat} {rest s literal units : List Nat}
    {reader part : List Nat → Parsed (List Nat)} {α : Type} {json : Json}

lemma Stops.cons (hc : isNumberChar c = false) (rest : List Nat) : Stops (c :: rest) := by
  intro d hd
  cases hd
  exact hc

/-- A reader of a part of a number: it takes characters of numbers, and reads on in the same way when the text
continues with something else. -/
def Numeric (reader : List Nat → Parsed (List Nat)) : Prop :=
  ∀ s literal rest, reader s = .ok literal rest → (∀ c ∈ literal, isNumberChar c = true) ∧
    ∀ more, Stops more → reader (s ++ more) = .ok literal (rest ++ more)

lemma isNumberChar_of_isDigit (hc : isDigit c = true) : isNumberChar c = true := by
  simp [isNumberChar, hc]

lemma Stops.not_isDigit (h : Stops (c :: rest)) : isDigit c = false := by
  by_contra hdigit
  rw [Bool.not_eq_false] at hdigit
  have hstop := h c rfl
  rw [isNumberChar_of_isDigit hdigit] at hstop
  cases hstop

lemma digits_more {more : List Nat} (hmore : Stops more) (s : List Nat) :
    (s ++ more).takeWhile isDigit = s.takeWhile isDigit ∧
      (s ++ more).dropWhile isDigit = s.dropWhile isDigit ++ more := by
  induction s with
  | nil =>
    cases more with
    | nil => exact ⟨rfl, rfl⟩
    | cons c more =>
      have hc : ¬ isDigit c = true := by rw [hmore.not_isDigit]; exact Bool.false_ne_true
      exact ⟨takeWhile_cons_of_neg hc, dropWhile_cons_of_neg hc⟩
  | cons c s ih =>
    rw [cons_append, takeWhile_cons, takeWhile_cons, dropWhile_cons, dropWhile_cons]
    split
    · exact ⟨congrArg _ ih.1, ih.2⟩
    · exact ⟨rfl, rfl⟩

lemma numeric_digits : Numeric digits := by
  intro s literal rest h
  cases s with
  | nil => cases h
  | cons c s =>
    rw [digits] at h
    split at h
    next hc =>
      cases h
      refine ⟨?_, fun more hmore => ?_⟩
      · rw [forall_mem_cons]
        exact ⟨isNumberChar_of_isDigit hc, fun d hd => isNumberChar_of_isDigit (mem_takeWhile_imp hd)⟩
      · rw [cons_append, digits, if_pos hc, (digits_more hmore s).1, (digits_more hmore s).2]
    next => cases h

lemma Numeric.cons (hreader : Numeric reader) (hc : isNumberChar c = true)
    (h : (reader s).map (c :: ·) = .ok literal rest) :
    (∀ d ∈ literal, isNumberChar d = true) ∧
      ∀ more, Stops more → (reader (s ++ more)).map (c :: ·) = .ok literal (rest ++ more) := by
  cases hread : reader s with
  | fail => rw [hread] at h; cases h
  | ok literal' rest' =>
    rw [hread] at h
    obtain ⟨rfl, rfl⟩ := ok.inj h
    obtain ⟨hchars, hmore⟩ := hreader s literal' rest' hread
    refine ⟨forall_mem_cons.mpr ⟨hc, hchars⟩, fun more hstops => ?_⟩
    rw [hmore more hstops]
    rfl

lemma numeric_integer : Numeric integer := by
  intro s literal rest h
  cases s with
  | nil => cases h
  | cons c s =>
    by_cases hc : c = 48
    · simp only [integer, cons_append, if_pos hc] at h ⊢
      cases h
      refine ⟨?_, fun more _ => rfl⟩
      rw [forall_mem_singleton, hc]
      rfl
    · simp only [integer, cons_append, if_neg hc] at h ⊢
      exact numeric_digits (c :: s) literal rest h

lemma numeric_optional (starts : Nat → Bool) (hpart : Numeric part) (hnil : reader [] = .ok [] [])
    (hcons : ∀ c s, reader (c :: s) = if starts c then (part s).map (c :: ·) else .ok [] (c :: s))
    (hstarts : ∀ c, starts c = true → isNumberChar c = true) : Numeric reader := by
  have hnone : ∀ more, Stops more → reader more = .ok [] more := by
    intro more hmore
    cases more with
    | nil => exact hnil
    | cons c more =>
      have hc : ¬ starts c = true := fun hc => Bool.noConfusion ((hmore c rfl).symm.trans (hstarts c hc))
      rw [hcons, if_neg hc]
  intro s literal rest h
  cases s with
  | nil =>
    rw [hnil] at h
    cases h
    exact ⟨fun c hc => absurd hc not_mem_nil, hnone⟩
  | cons c s =>
    by_cases hc : starts c = true
    · simp only [hcons, cons_append, if_pos hc] at h ⊢
      exact hpart.cons (hstarts c hc) h
    simp only [hcons, cons_append, if_neg hc] at h ⊢
    cases h
    exact ⟨fun c hc => absurd hc not_mem_nil, fun more _ => rfl⟩

lemma numeric_fraction : Numeric fraction :=
  numeric_optional (fun c => c = 46) numeric_digits rfl (fun c s => by simp [fraction])
    fun c hc => by simp [of_decide_eq_true hc, isNumberChar]

lemma numeric_signed (sign : Nat → Bool) (hpart : Numeric part) (hnil : reader [] = .fail)
    (hcons : ∀ c s, reader (c :: s) = if sign c then (part s).map (c :: ·) else part (c :: s))
    (hsign : ∀ c, sign c = true → isNumberChar c = true) : Numeric reader := by
  intro s literal rest h
  cases s with
  | nil => rw [hnil] at h; cases h
  | cons c s =>
    by_cases hc : sign c = true
    · simp only [hcons, cons_append, if_pos hc] at h ⊢
      exact hpart.cons (hsign c hc) h
    · simp only [hcons, cons_append, if_neg hc] at h ⊢
      exact hpart (c :: s) literal rest h

lemma numeric_exponent : Numeric exponent := by
  have hsigned : Numeric signedDigits :=
    numeric_signed (fun c => c = 43 ∨ c = 45) numeric_digits rfl (fun c s => by simp [signedDigits])
      fun c hc => by
        rcases of_decide_eq_true hc with rfl | rfl
        · rfl
        · rfl
  exact numeric_optional (fun c => c = 101 ∨ c = 69) hsigned rfl (fun c s => by simp [exponent])
    fun c hc => by
      rcases of_decide_eq_true hc with rfl | rfl
      · rfl
      · rfl

lemma numeric_unsigned : Numeric unsigned := by
  intro s literal rest h
  unfold unsigned at h ⊢
  cases hint : integer s with
  | fail => rw [hint] at h; cases h
  | ok int s₁ =>
    rw [hint, bind_ok] at h
    cases hfrac : fraction s₁ with
    | fail => rw [hfrac] at h; cases h
    | ok frac s₂ =>
      rw [hfrac, bind_ok] at h
      cases hexp : exponent s₂ with
      | fail => rw [hexp] at h; cases h
      | ok exp s₃ =>
        rw [hexp] at h
        obtain ⟨rfl, rfl⟩ := ok.inj h
        obtain ⟨hintChars, hintMore⟩ := numeric_integer s int s₁ hint
        obtain ⟨hfracChars, hfracMore⟩ := numeric_fraction s₁ frac s₂ hfrac
        obtain ⟨hexpChars, hexpMore⟩ := numeric_exponent s₂ exp s₃ hexp
        refine ⟨?_, fun more hmore => ?_⟩
        · rw [forall_mem_append, forall_mem_append]
          exact ⟨⟨hintChars, hfracChars⟩, hexpChars⟩
        · rw [hintMore more hmore, bind_ok, hfracMore more hmore, bind_ok, hexpMore more hmore]
          rfl

lemma numeric_number : Numeric number :=
  numeric_signed (fun c => c = 45) numeric_unsigned rfl (fun c s => by simp [number])
    fun c hc => by
      obtain rfl := of_decide_eq_true hc
      rfl

/-! ## Reading strings -/

lemma isHexDigit_hexDigit (hn : n < 16) : isHexDigit (hexDigit n) = true := by
  have hall : ∀ n < 16, isHexDigit (hexDigit n) = true := by decide
  exact hall n hn

lemma Parsed.map_map {β γ : Type} (parsed : Parsed α) (f : α → β) (g : β → γ) :
    (parsed.map f).map g = parsed.map fun value => g (f value) := by
  cases parsed with
  | fail => rfl
  | ok value rest => rfl

lemma stringBody_unicodeEscape (unit : Nat) (s : List Nat) :
    stringBody .plain (unicodeEscape unit ++ s) = (stringBody .plain s).map (unicodeEscape unit ++ ·) := by
  have hdigit : ∀ n, isHexDigit (hexDigit (n % 16)) = true := fun n => isHexDigit_hexDigit (Nat.mod_lt n (by decide))
  have hu : isEscape 117 = false := rfl
  simp [unicodeEscape, stringBody, StringPlace.afterDigit, hdigit, hu, Parsed.map_map]

lemma stringBody_quoteUnit (unit : Nat) (s : List Nat) :
    stringBody .plain (quoteUnit unit ++ s) = (stringBody .plain s).map (quoteUnit unit ++ ·) := by
  have hescape : ∀ c, isEscape c = true →
      stringBody .plain ([92, c] ++ s) = (stringBody .plain s).map ([92, c] ++ ·) := by
    intro c hc
    simp only [cons_append, nil_append, stringBody, hc, if_true, Parsed.map_map]
    rfl
  unfold quoteUnit
  split_ifs with h1 h2 h3 h4 h5 h6 h7
  · exact hescape 98 rfl
  · exact hescape 116 rfl
  · exact hescape 110 rfl
  · exact hescape 102 rfl
  · exact hescape 114 rfl
  · rcases h6 with rfl | rfl
    · exact hescape 34 rfl
    · exact hescape 92 rfl
  · exact stringBody_unicodeEscape unit s
  · obtain ⟨hquote, hslash⟩ := not_or.mp h6
    rw [singleton_append, stringBody, if_neg hquote, if_neg (by omega), if_neg hslash]
    rfl

lemma stringBody_quote (units s : List Nat) :
    stringBody .plain (quote units ++ s) = (stringBody .plain s).map (quote units ++ ·) := by
  induction units using quote.induct with
  | case1 =>
    cases hs : stringBody .plain s with
    | fail | ok raw rest => rw [quote, nil_append, hs]; rfl
  | case2 unit => exact stringBody_quoteUnit unit s
  | case3 unit next units hpair ih =>
    have hraw : ∀ c, 0xD800 ≤ c → ∀ t, stringBody .plain (c :: t) = (stringBody .plain t).map (c :: ·) := by
      intro c hc t
      rw [stringBody, if_neg (by omega), if_neg (by omega), if_neg (by omega)]
    rw [quote, if_pos hpair, cons_append, cons_append, hraw unit hpair.1, hraw next (by omega), ih,
      Parsed.map_map, Parsed.map_map]
    rfl
  | case4 unit next units hpair ih =>
    rw [quote, if_neg hpair, append_assoc, stringBody_quoteUnit, ih, Parsed.map_map]
    simp only [append_assoc]

lemma stringBody_quoted (units s : List Nat) : stringBody .plain (quote units ++ 34 :: s) = .ok (quote units) s := by
  have hclose : stringBody .plain (34 :: s) = .ok [] s := by rw [stringBody, if_pos rfl]
  rw [stringBody_quote, hclose]
  exact congrArg (ok · s) (append_nil _)

/-! ## Reading values -/

/-- A text that starts with a value: with a visible character that does not end a list. -/
def StartsValue (s : List Nat) : Prop := ∃ c t, s = c :: t ∧ (33 ≤ c ∧ c < 0x80) ∧ c ≠ 93 ∧ c ≠ 125

lemma StartsValue.append (h : StartsValue s) (rest : List Nat) : StartsValue (s ++ rest) := by
  obtain ⟨c, t, rfl, hc⟩ := h
  exact ⟨c, t ++ rest, rfl, hc⟩

lemma StartsValue.skipSpace (h : StartsValue s) : skipSpace s = s := by
  obtain ⟨c, t, rfl, hc, -⟩ := h
  have hspace : isSpace c = false := by
    simp only [isSpace, Bool.or_eq_false_iff, beq_eq_false_iff_ne]
    omega
  exact dropWhile_cons_of_neg (by rw [hspace]; exact Bool.false_ne_true)

lemma StartsValue.inside (h : StartsValue s) {close : Nat} (hclose : close = 93 ∨ close = 125)
    (empty : α) (loop : List Nat → Parsed α) : JsonText.inside close empty loop s = loop s := by
  unfold JsonText.inside
  rw [h.skipSpace]
  obtain ⟨c, t, rfl, -, harray, hobject⟩ := h
  refine if_neg ?_
  rcases hclose with rfl | rfl
  · exact harray
  · exact hobject

lemma exists_number_head (h : number literal = .ok literal []) : ∃ c t, literal = c :: t ∧ isNumberChar c = true := by
  cases literal with
  | nil => cases h
  | cons c t => exact ⟨c, t, rfl, (numeric_number _ _ _ h).1 c mem_cons_self⟩

lemma isNumberChar_bounds (h : isNumberChar c = true) :
    (48 ≤ c ∧ c ≤ 57) ∨ c = 43 ∨ c = 45 ∨ c = 46 ∨ c = 69 ∨ c = 101 := by
  simpa [isNumberChar, isDigit, or_assoc] using h

lemma startsValue_stringify (h : json.Printable) : StartsValue json.stringify := by
  cases json with
  | null => exact ⟨_, _, rfl, by decide, by decide, by decide⟩
  | bool value =>
    cases value with
    | true | false => exact ⟨_, _, rfl, by decide, by decide, by decide⟩
  | number literal =>
    obtain ⟨c, t, rfl, hc⟩ := exists_number_head h
    have hbounds := isNumberChar_bounds hc
    exact ⟨c, t, rfl, by omega, by omega, by omega⟩
  | string units => exact ⟨34, _, rfl, by decide, by decide, by decide⟩
  | array items => exact ⟨91, _, rfl, by decide, by decide, by decide⟩
  | object members => exact ⟨123, _, rfl, by decide, by decide, by decide⟩

lemma startsValue_stringifyMember (member : List Nat × Json) : StartsValue (stringifyMember member) := by
  obtain ⟨name, json⟩ := member
  exact ⟨34, _, rfl, by decide, by decide, by decide⟩

/-- The items of an array are read back with this much fuel. -/
def ReadsElements (fuel : Nat) : Prop :=
  ∀ item items, item.Printable → Json.PrintableItems items →
    (item.stringify ++ Json.stringifyItems items).length < fuel → ∀ rest,
    elements none fuel (item.stringify ++ Json.stringifyItems items ++ 93 :: rest) =
      .ok (Json.mapStringsItems quote (item :: items)) rest

def ReadsMembers (fuel : Nat) : Prop :=
  ∀ member members, Json.PrintableMember member → Json.PrintableMembers members →
    (Json.stringifyMember member ++ Json.stringifyMembers members).length < fuel → ∀ rest,
    JsonText.members none fuel (Json.stringifyMember member ++ Json.stringifyMembers members ++ 125 :: rest) =
      .ok (Json.mapStringsMembers quote (member :: members)) rest

lemma not_isPrefixOf_of_head_ne {d : Nat} (hne : c ≠ d) (word s : List Nat) :
    ¬ (d :: word).isPrefixOf (c :: s) = true := by
  rw [isPrefixOf_cons_cons, Bool.and_eq_true, beq_iff_eq]
  exact fun h => hne h.1.symm

/-- A printed value is read back, if its items and members are. -/
lemma value_stringify_of_loops (helements : ReadsElements fuel) (hmembers : ReadsMembers fuel)
    (hprintable : json.Printable) (hfuel : json.stringify.length ≤ fuel + 1) (hrest : Stops rest) :
    value none fuel (json.stringify ++ rest) = .ok (json.mapStrings quote) rest := by
  cases json with
  | null => rfl
  | bool value =>
    cases value with
    | true => rfl
    | false => rfl
  | number literal =>
    have hnumber : number (literal ++ rest) = .ok literal rest := (numeric_number _ _ _ hprintable).2 rest hrest
    have hskip : skipSpace (literal ++ rest) = literal ++ rest :=
      ((startsValue_stringify hprintable).append rest).skipSpace
    obtain ⟨c, t, rfl, hc⟩ := exists_number_head hprintable
    have hbounds := isNumberChar_bounds hc
    have hscalar : scalar (c :: (t ++ rest)) = (number (c :: (t ++ rest))).map .number := by
      unfold scalar
      refine (if_neg (not_isPrefixOf_of_head_ne ?_ _ _)).trans
        ((if_neg (not_isPrefixOf_of_head_ne ?_ _ _)).trans (if_neg (not_isPrefixOf_of_head_ne ?_ _ _)))
      · rintro rfl
        cases hc
      · rintro rfl
        cases hc
      · rintro rfl
        cases hc
    unfold stringify value valueWith
    rw [hskip]
    dsimp only [cons_append] at hnumber ⊢
    rw [if_neg (by omega), if_neg (by omega), if_neg (by omega), hscalar, hnumber]
    rfl
  | string units =>
    have hbody := stringBody_quoted units rest
    have htext : (string units).stringify ++ rest = 34 :: (quote units ++ 34 :: rest) := by
      rw [stringify, append_assoc]
      rfl
    rw [htext]
    change (stringBody .plain (quote units ++ 34 :: rest)).map string = _
    rw [hbody]
    rfl
  | array items =>
    cases items with
    | nil => rfl
    | cons item items =>
      have htext : (array (item :: items)).stringify ++ rest =
          91 :: (item.stringify ++ stringifyItems items ++ 93 :: rest) := by
        simp [stringify, stringifyItems]
      have hlength : (item.stringify ++ stringifyItems items).length < fuel := by
        simp only [stringify, stringifyItems, cons_append, tail_cons,
          length_append, length_cons, length_nil] at hfuel ⊢
        omega
      have hstarts := ((startsValue_stringify hprintable.1).append (stringifyItems items)).append (93 :: rest)
      rw [htext]
      change (inside 93 [] (elements none fuel) _).map array = _
      rw [hstarts.inside (.inl rfl), helements item items hprintable.1 hprintable.2 hlength rest]
      rfl
  | object members =>
    cases members with
    | nil => rfl
    | cons member members =>
      have htext : (object (member :: members)).stringify ++ rest =
          123 :: (stringifyMember member ++ stringifyMembers members ++ 125 :: rest) := by
        simp [stringify, stringifyMembers]
      have hlength : (stringifyMember member ++ stringifyMembers members).length < fuel := by
        simp only [stringify, stringifyMembers, cons_append, tail_cons,
          length_append, length_cons, length_nil] at hfuel ⊢
        omega
      have hstarts : StartsValue (stringifyMember member ++ stringifyMembers members ++ 125 :: rest) :=
        ((startsValue_stringifyMember member).append _).append _
      rw [htext]
      change (inside 125 [] (JsonText.members none fuel) _).map object = _
      rw [hstarts.inside (.inr rfl), hmembers member members hprintable.1 hprintable.2 hlength rest]
      rfl

lemma stops_items (items : List Json) (rest : List Nat) : Stops (stringifyItems items ++ 93 :: rest) := by
  cases items with
  | nil => exact .cons rfl rest
  | cons item items => exact .cons rfl _

lemma stops_members (members : List (List Nat × Json)) (rest : List Nat) :
    Stops (stringifyMembers members ++ 125 :: rest) := by
  cases members with
  | nil => exact .cons rfl rest
  | cons member members => exact .cons rfl _

lemma next_comma {close : Nat} (hclose : close ≠ 44) (finished : α) (again : List Nat → Parsed α)
    (hs : StartsValue s) : next close finished again (44 :: s) = again s := by
  have hskip : skipSpace (44 :: s) = 44 :: s := rfl
  unfold next
  rw [hskip]
  dsimp only
  rw [if_neg hclose.symm, expect, if_pos rfl, bind_ok, hs.skipSpace]

lemma name_quoted (units : List Nat) (hs : StartsValue s) :
    name none (34 :: (quote units ++ 34 :: 58 :: s)) = .ok (quote units) s := by
  have hskip : skipSpace (58 :: s) = 58 :: s := rfl
  have hshort : tooLong none (quote units) = false := rfl
  rw [name, expect, if_pos rfl, bind_ok, stringBody_quoted, bind_ok, hshort, if_neg Bool.false_ne_true,
    hskip, expect, if_pos rfl, bind_ok, hs.skipSpace]

lemma loops_stringify (fuel : Nat) : ReadsElements fuel ∧ ReadsMembers fuel := by
  induction fuel with
  | zero =>
    exact ⟨fun item items _ _ hfuel => absurd hfuel (Nat.not_lt_zero _),
      fun member members _ _ hfuel => absurd hfuel (Nat.not_lt_zero _)⟩
  | succ fuel ih =>
    constructor
    · intro item items hitem hitems hfuel rest
      rw [length_append] at hfuel
      have hvalue := value_stringify_of_loops ih.1 ih.2 hitem (by omega) (stops_items items rest)
      unfold value at hvalue
      rw [elements, append_assoc, hvalue, bind_ok]
      cases items with
      | nil => rfl
      | cons second items =>
        have hstarts := ((startsValue_stringify hitems.1).append (stringifyItems items)).append (93 :: rest)
        have hrest := ih.1 second items hitems.1 hitems.2 (by
          rw [stringifyItems, length_append, length_cons] at hfuel
          rw [length_append]
          omega) rest
        rw [stringifyItems, cons_append, cons_append, next_comma (by decide) _ _ hstarts, hrest]
        rfl
    · intro member members hmember hmembers hfuel rest
      obtain ⟨name, json⟩ := member
      obtain ⟨hname, hjson⟩ := hmember
      rw [stringifyMember, length_append, length_append, length_cons, length_cons,
        length_cons] at hfuel
      have hvalue := value_stringify_of_loops ih.1 ih.2 hjson (by omega) (stops_members members rest)
      unfold value at hvalue
      have htext : stringifyMember (name, json) ++ stringifyMembers members ++ 125 :: rest =
          34 :: (quote name ++ 34 :: 58 :: (json.stringify ++ (stringifyMembers members ++ 125 :: rest))) := by
        simp [stringifyMember]
      rw [htext, JsonText.members, name_quoted name ((startsValue_stringify hjson).append _), bind_ok, hvalue,
        bind_ok]
      cases members with
      | nil => rfl
      | cons second members =>
        have hstarts := ((startsValue_stringifyMember second).append (stringifyMembers members)).append (125 :: rest)
        have hrest := ih.2 second members hmembers.1 hmembers.2 (by
          rw [stringifyMembers, length_append, length_cons] at hfuel
          rw [length_append]
          omega) rest
        rw [stringifyMembers, cons_append, cons_append, next_comma (by decide) _ _ hstarts, hrest]
        rfl

/-- A printed value is read back, with its strings as they are spelled; white space may follow it. -/
theorem document_stringify_append (hprintable : json.Printable)
    (hfuel : json.stringify.length ≤ fuel) {space : List Nat} (hstops : Stops space) (hspace : skipSpace space = []) :
    document none fuel (json.stringify ++ space) = some (json.mapStrings quote) := by
  have hvalue := value_stringify_of_loops (loops_stringify fuel).1 (loops_stringify fuel).2 hprintable (by omega) hstops
  rw [document, hvalue]
  exact if_pos hspace

theorem document_stringify (hprintable : json.Printable) (hfuel : json.stringify.length ≤ fuel) :
    document none fuel json.stringify = some (json.mapStrings quote) := by
  have hend : Stops [] := fun c hc => absurd hc (Option.not_mem_none c)
  have h := document_stringify_append hprintable hfuel hend rfl
  rwa [append_nil] at h

/-! ## Printed texts -/

/-- A text of whole characters without control characters. -/
structure Plain (s : List Nat) : Prop where
  whole : Whole s
  visible : ∀ c ∈ s, 32 ≤ c

lemma Plain.append {s t : List Nat} (hs : Plain s) (ht : Plain t) : Plain (s ++ t) :=
  ⟨hs.whole.append ht.whole, forall_mem_append.mpr ⟨hs.visible, ht.visible⟩⟩

lemma plain_nil : Plain [] := ⟨.nil, fun _ hc => absurd hc not_mem_nil⟩

lemma plain_ascii (hs : ∀ c ∈ s, 32 ≤ c ∧ c < 0x80) : Plain s :=
  ⟨whole_ascii fun c hc => (hs c hc).2, fun c hc => (hs c hc).1⟩

lemma Plain.cons (hs : Plain s) (hc : 32 ≤ c ∧ c < 0x80) : Plain (c :: s) :=
  (plain_ascii (forall_mem_singleton.mpr hc)).append hs

/-- The spelling of a unit: ASCII, or the unit itself, which is no surrogate. -/
lemma quoteUnit_cases (unit : Nat) : (∀ c ∈ quoteUnit unit, 32 ≤ c ∧ c < 0x80) ∨
    (quoteUnit unit = [unit] ∧ 32 ≤ unit ∧ (unit < 0xD800 ∨ 0xE000 ≤ unit)) := by
  have hhex : ∀ n, 32 ≤ hexDigit (n % 16) ∧ hexDigit (n % 16) < 0x80 := by
    intro n
    have hn : n % 16 < 16 := Nat.mod_lt n (by decide)
    unfold hexDigit
    split <;> omega
  unfold quoteUnit
  split_ifs with h1 h2 h3 h4 h5 h6 h7
  · exact .inl (by decide)
  · exact .inl (by decide)
  · exact .inl (by decide)
  · exact .inl (by decide)
  · exact .inl (by decide)
  · refine .inl ?_
    rcases h6 with rfl | rfl
    · decide
    · decide
  · refine .inl ?_
    simp only [unicodeEscape, forall_mem_cons, hhex, true_and]
    exact ⟨by decide, by decide, fun c hc => absurd hc not_mem_nil⟩
  · exact .inr ⟨rfl, by omega, by omega⟩

lemma plain_quoteUnit (hunit : unit < 0x10000) : Plain (quoteUnit unit) := by
  rcases quoteUnit_cases unit with hascii | ⟨hraw, hvisible, hsurrogate⟩
  · exact plain_ascii hascii
  · rw [hraw]
    exact ⟨(Character.unit hunit hsurrogate).whole, forall_mem_singleton.mpr hvisible⟩

lemma plain_quote (hunits : ∀ unit ∈ units, unit < 0x10000) : Plain (quote units) := by
  induction units using quote.induct with
  | case1 => exact plain_nil
  | case2 unit => exact plain_quoteUnit (hunits unit mem_cons_self)
  | case3 unit next units hpair ih =>
    rw [quote, if_pos hpair]
    have hrest := ih fun c hc => hunits c (mem_cons_of_mem _ (mem_cons_of_mem _ hc))
    have hcharacter : Character [unit, next] := .pair hpair.1 hpair.2.1 hpair.2.2.1 hpair.2.2.2
    have hvisible : ∀ c ∈ [unit, next], 32 ≤ c := by
      rw [forall_mem_cons, forall_mem_singleton]
      omega
    exact Plain.append ⟨hcharacter.whole, hvisible⟩ hrest
  | case4 unit next units hpair ih =>
    rw [quote, if_neg hpair]
    exact (plain_quoteUnit (hunits unit mem_cons_self)).append
      (ih fun c hc => hunits c (mem_cons_of_mem _ hc))

lemma plain_quoted (hunits : ∀ unit ∈ units, unit < 0x10000) : Plain (34 :: quote units ++ [34]) :=
  ((plain_quote hunits).cons (by decide)).append (plain_nil.cons (by decide))

lemma plain_number (h : number literal = .ok literal []) : Plain literal := by
  refine plain_ascii fun c hc => ?_
  have hbounds := isNumberChar_bounds ((numeric_number _ _ _ h).1 c hc)
  omega

mutual

lemma plain_stringify : ∀ json : Json, json.Printable → Plain json.stringify
  | .null, _ => plain_ascii (by decide)
  | .bool true, _ => plain_ascii (by decide)
  | .bool false, _ => plain_ascii (by decide)
  | .number _, h => plain_number h
  | .string _, h => plain_quoted h
  | .array [], _ => plain_ascii (by decide)
  | .array (item :: items), h =>
    (((plain_stringify item h.1).append (plain_stringifyItems items h.2)).cons (by decide)).append
      (plain_nil.cons (by decide))
  | .object [], _ => plain_ascii (by decide)
  | .object (member :: members), h =>
    (((plain_stringifyMember member h.1).append (plain_stringifyMembers members h.2)).cons (by decide)).append
      (plain_nil.cons (by decide))
termination_by structural json => json

lemma plain_stringifyItems : ∀ items : List Json, Json.PrintableItems items → Plain (stringifyItems items)
  | [], _ => plain_nil
  | item :: items, h => ((plain_stringify item h.1).append (plain_stringifyItems items h.2)).cons (by decide)
termination_by structural items => items

lemma plain_stringifyMembers : ∀ members : List (List Nat × Json), Json.PrintableMembers members →
    Plain (stringifyMembers members)
  | [], _ => plain_nil
  | member :: members, h =>
    ((plain_stringifyMember member h.1).append (plain_stringifyMembers members h.2)).cons (by decide)
termination_by structural members => members

lemma plain_stringifyMember : ∀ member : List Nat × Json, Json.PrintableMember member →
    Plain (stringifyMember member)
  | (name, json), h =>
    ((plain_quote h.1).cons (by decide)).append
      (((plain_stringify json h.2).cons (by decide)).cons (by decide))
termination_by structural member => member

end

/-! ## Cut characters -/

def StartsLow (units : List Nat) : Prop := ∃ unit ∈ units.head?, 0xDC00 ≤ unit ∧ unit < 0xE000

lemma quote_cons (hpair : 0xD800 ≤ unit → unit < 0xDC00 → ¬ StartsLow units) :
    quote (unit :: units) = quoteUnit unit ++ quote units := by
  cases units with
  | nil => exact (append_nil _).symm
  | cons next units =>
    rw [quote, if_neg]
    rintro ⟨hhigh, hhigh', hlow⟩
    exact hpair hhigh hhigh' ⟨next, rfl, hlow⟩

lemma quote_replacements (n : Nat) (units : List Nat) :
    quote (replicate n replacement ++ units) = replicate n replacement ++ quote units := by
  induction n with
  | zero => rfl
  | succ n ih =>
    rw [replicate_succ, cons_append, quote_cons (fun _ h => absurd h (by decide)), ih]
    rfl

lemma not_startsLow_replacements (n : Nat) (units : List Nat) :
    ¬ StartsLow (replicate (n + 2) replacement ++ units) := by
  rintro ⟨unit, hunit, hlow⟩
  cases hunit
  exact absurd hlow (by decide)

lemma lt_of_mem_replacements (h : unit ∈ replicate n replacement) : unit < 0x10000 := by
  obtain rfl := eq_of_mem_replicate h
  decide

/-- What a cut makes of the spelling of a string is the spelling of a string. -/
def CutQuotes (units : List Nat) : Prop :=
  ∀ t, Cut (quote units) t →
    ∃ units', (∀ unit ∈ units', unit < 0x10000) ∧ t = quote units' ∧ (StartsLow units' → StartsLow units)

lemma cutQuotes_nil : CutQuotes [] := by
  intro t hcut
  obtain rfl := hcut.eq_of_ascii fun x hx => absurd hx not_mem_nil
  exact ⟨[], fun x hx => absurd hx not_mem_nil, rfl, id⟩

lemma cutQuotes_replaced {units' : List Nat} (hunits' : ∀ unit ∈ units', unit < 0x10000) (k : Nat) (units : List Nat) :
    ∃ units'', (∀ unit ∈ units'', unit < 0x10000) ∧
      replicate (k + 2) replacement ++ quote units' = quote units'' ∧ (StartsLow units'' → StartsLow units) :=
  ⟨replicate (k + 2) replacement ++ units',
    forall_mem_append.mpr ⟨fun _ h => lt_of_mem_replacements h, hunits'⟩, (quote_replacements _ _).symm,
    fun h => absurd h (not_startsLow_replacements k units')⟩

lemma cutQuotes_cons (hunit : unit < 0x10000)
    (hpair : 0xD800 ≤ unit → unit < 0xDC00 → ¬ StartsLow units) (hunits : CutQuotes units) :
    CutQuotes (unit :: units) := by
  intro t hcut
  rw [quote_cons hpair] at hcut
  -- the unit is spelled as before or replaced
  have hfirst : ∃ t', Cut (quote units) t' ∧
      (t = quoteUnit unit ++ t' ∨ ∃ k, t = replicate (k + 2) replacement ++ t') := by
    rcases quoteUnit_cases unit with hascii | ⟨hraw, -, hsurrogate⟩
    · obtain ⟨t', rfl, hrest⟩ := hcut.ascii_append fun c hc => (hascii c hc).2
      exact ⟨t', hrest, .inl rfl⟩
    rw [hraw] at hcut ⊢
    obtain ⟨t', hrest, hkept | ⟨-, hcut'⟩⟩ := hcut.uncons (.unit hunit hsurrogate)
    · exact ⟨t', hrest, .inl hkept⟩
    · exact ⟨t', hrest, .inr hcut'⟩
  obtain ⟨t', hrest, hfirst⟩ := hfirst
  obtain ⟨units', hunits', rfl, hlow⟩ := hunits t' hrest
  rcases hfirst with rfl | ⟨k, rfl⟩
  · refine ⟨unit :: units', forall_mem_cons.mpr ⟨hunit, hunits'⟩, ?_, id⟩
    exact (quote_cons fun h h' hstarts => hpair h h' (hlow hstarts)).symm
  · exact cutQuotes_replaced hunits' k _

lemma cutQuotes_pair {next : Nat} (hpair : 0xD800 ≤ unit ∧ unit < 0xDC00 ∧ 0xDC00 ≤ next ∧ next < 0xE000)
    (hunits : CutQuotes units) : CutQuotes (unit :: next :: units) := by
  intro t hcut
  rw [quote, if_pos hpair] at hcut
  have hcharacter : Character [unit, next] := .pair hpair.1 hpair.2.1 hpair.2.2.1 hpair.2.2.2
  obtain ⟨t', hrest, hfirst⟩ := Cut.uncons hcharacter hcut
  obtain ⟨units', hunits', rfl, -⟩ := hunits t' hrest
  rcases hfirst with rfl | ⟨-, k, rfl⟩
  · refine ⟨unit :: next :: units', ?_, ?_, id⟩
    · rw [forall_mem_cons, forall_mem_cons]
      exact ⟨by omega, by omega, hunits'⟩
    · rw [quote, if_pos hpair]
      rfl
  · exact cutQuotes_replaced hunits' k _

lemma cutQuotes (hunits : ∀ unit ∈ units, unit < 0x10000) : CutQuotes units := by
  induction units using quote.induct with
  | case1 => exact cutQuotes_nil
  | case2 unit =>
    refine cutQuotes_cons (hunits unit mem_cons_self) (fun _ _ hlow => ?_) cutQuotes_nil
    obtain ⟨next, hnext, -⟩ := hlow
    exact absurd hnext (Option.not_mem_none next)
  | case3 unit next units hpair ih =>
    exact cutQuotes_pair hpair (ih fun c hc => hunits c (mem_cons_of_mem _ (mem_cons_of_mem _ hc)))
  | case4 unit next units hpair ih =>
    refine cutQuotes_cons (hunits unit mem_cons_self) (fun hhigh hhigh' hlow => ?_)
      (ih fun c hc => hunits c (mem_cons_of_mem _ hc))
    obtain ⟨low, hlow, hbounds⟩ := hlow
    cases hlow
    exact hpair ⟨hhigh, hhigh', hbounds⟩

lemma cut_quoted (hunits : ∀ unit ∈ units, unit < 0x10000) {t : List Nat}
    (hcut : Cut (34 :: (quote units ++ 34 :: s)) t) :
    ∃ units' t', (∀ unit ∈ units', unit < 0x10000) ∧ t = 34 :: (quote units' ++ 34 :: t') ∧ Cut s t' := by
  obtain ⟨t₁, rfl, hinside⟩ := hcut.ascii_cons (by decide)
  obtain ⟨body, t₂, rfl, hbody, hclose⟩ := hinside.split (plain_quote hunits).whole
  obtain ⟨units', hunits', rfl, -⟩ := cutQuotes hunits body hbody
  obtain ⟨t₃, rfl, hrest⟩ := hclose.ascii_cons (by decide)
  exact ⟨units', t₃, hunits', rfl, hrest⟩

/-- A text between two characters that stands without its first comma. -/
lemma cut_enclosed {first last : Nat} (hfirst : first < 0x80) (hlast : last < 0x80) (hwhole : Whole s)
    (hs : s = [] ∨ ∃ x, s = 44 :: x) {t : List Nat} (hcut : Cut (first :: s.tail ++ [last]) t) :
    ∃ t', Cut s t' ∧ t = first :: t'.tail ++ [last] := by
  obtain ⟨t₁, rfl, hinside⟩ := hcut.ascii_cons hfirst
  rcases hs with rfl | ⟨x, rfl⟩
  · exact ⟨[], .nil, congrArg _ (hinside.eq_of_ascii (forall_mem_singleton.mpr hlast))⟩
  have hcomma : Character [44] := character_ascii (by decide)
  have hkept : Cut (44 :: x ++ [last]) (44 :: t₁) := .keep hcomma hinside
  obtain ⟨a, b, hsplit, ha, hb⟩ := hkept.split hwhole
  obtain rfl := hb.eq_of_ascii (forall_mem_singleton.mpr hlast)
  obtain ⟨a', rfl, -⟩ := ha.ascii_cons (by decide)
  exact ⟨44 :: a', ha, congrArg _ (cons.inj hsplit).2⟩

mutual

/-- What a cut makes of the text of a value is the text of a value of the same shape. -/
lemma cut_stringify : ∀ json : Json, json.Printable → ∀ t, Cut json.stringify t →
    ∃ json' : Json, json'.Printable ∧ t = json'.stringify ∧ json'.memberCount = json.memberCount
  | .null, h, _, hcut => ⟨.null, h, hcut.eq_of_ascii (by decide), rfl⟩
  | .bool true, h, _, hcut => ⟨.bool true, h, hcut.eq_of_ascii (by decide), rfl⟩
  | .bool false, h, _, hcut => ⟨.bool false, h, hcut.eq_of_ascii (by decide), rfl⟩
  | .number literal, h, _, hcut => ⟨.number literal, h, hcut.eq_of_ascii fun c hc => by
      have hbounds := isNumberChar_bounds ((numeric_number _ _ _ h).1 c hc)
      omega, rfl⟩
  | .string units, h, t, hcut => by
    obtain ⟨units', t', hunits', rfl, hnil⟩ := cut_quoted (s := []) h hcut
    obtain rfl := hnil.eq_of_ascii fun x hx => absurd hx not_mem_nil
    exact ⟨.string units', hunits', rfl, rfl⟩
  | .array items, h, t, hcut => by
    obtain ⟨t', hitems, rfl⟩ := cut_enclosed (by decide) (by decide) (plain_stringifyItems items h).whole
      (by cases items with | nil => exact .inl rfl | cons => exact .inr ⟨_, rfl⟩) hcut
    obtain ⟨items', hitems', rfl, hcount⟩ := cut_stringifyItems items h t' hitems
    exact ⟨.array items', hitems', rfl, hcount⟩
  | .object members, h, t, hcut => by
    obtain ⟨t', hmembers, rfl⟩ := cut_enclosed (by decide) (by decide) (plain_stringifyMembers members h).whole
      (by cases members with | nil => exact .inl rfl | cons => exact .inr ⟨_, rfl⟩) hcut
    obtain ⟨members', hmembers', rfl, hcount⟩ := cut_stringifyMembers members h t' hmembers
    exact ⟨.object members', hmembers', rfl, hcount⟩
termination_by structural json => json

lemma cut_stringifyItems : ∀ items : List Json, Json.PrintableItems items → ∀ t, Cut (stringifyItems items) t →
    ∃ items', Json.PrintableItems items' ∧ t = stringifyItems items' ∧
      memberCountItems items' = memberCountItems items
  | [], h, _, hcut => ⟨[], h, hcut.eq_of_ascii (fun x hx => absurd hx not_mem_nil), rfl⟩
  | item :: items, h, t, hcut => by
    obtain ⟨t', rfl, hrest⟩ := Cut.ascii_cons (by decide) hcut
    obtain ⟨a, b, rfl, ha, hb⟩ := hrest.split (plain_stringify item h.1).whole
    obtain ⟨item', hitem', rfl, hcount⟩ := cut_stringify item h.1 a ha
    obtain ⟨items', hitems', rfl, hcounts⟩ := cut_stringifyItems items h.2 b hb
    exact ⟨item' :: items', ⟨hitem', hitems'⟩, rfl, congrArg₂ (· + ·) hcount hcounts⟩
termination_by structural items => items

lemma cut_stringifyMembers : ∀ members : List (List Nat × Json), Json.PrintableMembers members → ∀ t,
    Cut (stringifyMembers members) t →
    ∃ members', Json.PrintableMembers members' ∧ t = stringifyMembers members' ∧
      memberCountMembers members' = memberCountMembers members
  | [], h, _, hcut => ⟨[], h, hcut.eq_of_ascii (fun x hx => absurd hx not_mem_nil), rfl⟩
  | member :: members, h, t, hcut => by
    obtain ⟨t', rfl, hrest⟩ := Cut.ascii_cons (by decide) hcut
    obtain ⟨a, b, rfl, ha, hb⟩ := hrest.split (plain_stringifyMember member h.1).whole
    obtain ⟨member', hmember', rfl, hcount⟩ := cut_stringifyMember member h.1 a ha
    obtain ⟨members', hmembers', rfl, hcounts⟩ := cut_stringifyMembers members h.2 b hb
    exact ⟨member' :: members', ⟨hmember', hmembers'⟩, rfl, congrArg₂ (· + ·) hcount hcounts⟩
termination_by structural members => members

lemma cut_stringifyMember : ∀ member : List Nat × Json, Json.PrintableMember member → ∀ t,
    Cut (stringifyMember member) t →
    ∃ member', Json.PrintableMember member' ∧ t = stringifyMember member' ∧
      memberCountMember member' = memberCountMember member
  | (name, json), h, t, hcut => by
    obtain ⟨name', t', hname', rfl, hcolon⟩ := cut_quoted h.1 hcut
    obtain ⟨t'', rfl, hvalue⟩ := hcolon.ascii_cons (by decide)
    obtain ⟨json', hjson', rfl, hcount⟩ := cut_stringify json h.2 t'' hvalue
    exact ⟨(name', json'), ⟨hname', hjson'⟩, rfl, congrArg (· + 1) hcount⟩
termination_by structural member => member

end

end JsonText
