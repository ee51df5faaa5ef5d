import PortManager.Browser.ResponseTransform

/-!
# Rewriting a header in one go

Embeds `rewriteLocalhostOrigins` and `rewriteUpstreamLoopbackOrigins` of `platform/ports/browser-network-proxy-http.ts`, the
replacements that the passes over a body do as it arrives.

The two differ in a protocol-relative origin behind a slash: the expression takes that slash as the character before the
origin, a pass writes it back and the replacement of a header does not (`match.startsWith("//")` is true of it). Passes keep the
number of slashes, so both give the same text exactly when there is no such match (`streamed_eq_iff`).
-/

namespace PortManager.Browser
open JsonText Node Rewriting List Option

/-! ## Replacements -/

/-- What the callback writes for a match, and the length of the match. -/
def headerRule (pattern : OriginPattern) (metadata : EndpointMetadata) (before : Option Nat) (text : Units) :
    Option (Nat × Units) :=
  (matchAt pattern before text).map fun (lead, found) =>
    let matched := text.take (text.length - found.rest.length)
    let separator := if (codes "//").isPrefixOf matched then [] else lead
    (matched.length, separator ++ publicOrigin pattern metadata found.lead found.port)

/-- `value.replace(pattern, callback)` for a global expression. -/
def replaceAll (rule : Option Nat → Units → Option (Nat × Units)) (value : Units) : Units :=
  (execLoop rule none 0 0 none value).1

def rewriteUpstreamLoopbackOrigins (value : Units) (metadata : EndpointMetadata) : Units :=
  match metadata.upstreamLoopbackHost with
  | none => value
  | some host =>
    if host.text <:+: value then
      replaceAll (headerRule (loopbackPattern host true) metadata)
        (replaceAll (headerRule (loopbackPattern host false) metadata) value)
    else value

def rewriteLocalhostOrigins (value : Units) (metadata : EndpointMetadata) : Units :=
  let absoluteRewritten := replaceAll (headerRule (localPattern false) metadata) value
  let protocolRewritten := replaceAll (headerRule (localPattern true) metadata) absoluteRewritten
  rewriteUpstreamLoopbackOrigins protocolRewritten metadata

/-- The passes of a new transform, fed a text as one chunk and then finished. -/
def streamed (table : LowerCase) (metadata : EndpointMetadata) (text : Units) : Units :=
  let first := translate table metadata false ((passPatterns metadata).map fun pattern => (pattern, .new)) text
  first.1 ++ (translate table metadata true first.2 []).1

/-- Whether the match at a place takes a slash as the character before the origin. -/
def slashMatch (pattern : OriginPattern) (before : Option Nat) (text : Units) : Nat :=
  if (matchAt pattern before text).any fun found => found.1 = [47] then 1 else 0

def slashMatches (pattern : OriginPattern) : Option Nat → Nat → Units → Nat
  | _, _, [] => 0
  | _, skip + 1, c :: text => slashMatches pattern (some c) skip text
  | before, 0, c :: text =>
    match matchAt pattern before (c :: text) with
    | some (_, found) =>
      slashMatch pattern before (c :: text) + slashMatches pattern (some c) ((c :: text).length - found.rest.length - 1) text
    | none => slashMatches pattern (some c) 0 text

/-- The slashes that the replacement of a header drops. -/
def droppedSlashes (value : Units) (metadata : EndpointMetadata) : Nat :=
  let absoluteRewritten := replaceAll (headerRule (localPattern false) metadata) value
  let protocolRewritten := replaceAll (headerRule (localPattern true) metadata) absoluteRewritten
  slashMatches (localPattern true) none 0 absoluteRewritten +
    match metadata.upstreamLoopbackHost with
    | none => 0
    | some host =>
      if host.text <:+: protocolRewritten then
        slashMatches (loopbackPattern host true) none 0
          (replaceAll (headerRule (loopbackPattern host false) metadata) protocolRewritten)
      else 0

/-! ## Matches -/

section Matches

variable {pattern : OriginPattern} {metadata : EndpointMetadata}

lemma origin_nil : origin pattern [] = none := by
  refine eq_none_iff_forall_ne_some.mpr fun found hfound => ?_
  obtain ⟨-, word, htext, hword⟩ := origin_eq_some_iff.mp hfound
  obtain ⟨x, y, rest, rfl, -⟩ := originWord_starts hword
  cases htext

variable {before : Option Nat} {text lead : Units} {found : Origin} {c : Nat}

lemma matchAt_spec (h : matchAt pattern before text = some (lead, found)) :
    (lead = [] ∨ pattern.relative = true ∧ ∃ c, lead = [c]) ∧
      ∃ word, text = lead ++ word ++ found.rest ∧ OriginWord pattern word found.lead found.port := by
  have hhere : (origin pattern text).map (fun found => (([] : Units), found)) = some (lead, found) →
      (lead = [] ∨ pattern.relative = true ∧ ∃ c, lead = [c]) ∧
        ∃ word, text = lead ++ word ++ found.rest ∧ OriginWord pattern word found.lead found.port := by
    intro h
    obtain ⟨found', horigin, hfound⟩ := map_eq_some_iff.mp h
    cases hfound
    obtain ⟨-, word, htext, hword⟩ := origin_eq_some_iff.mp horigin
    exact ⟨.inl rfl, word, htext, hword⟩
  rcases Bool.eq_false_or_eq_true pattern.relative with hrelative | hrelative
  · by_cases hstart : before = none ∧ ∃ found, origin pattern text = some found
    · obtain ⟨rfl, found', horigin⟩ := hstart
      rw [matchAt_start hrelative horigin] at h
      exact hhere (by rw [horigin]; exact h)
    have hnot : before ≠ none ∨ origin pattern text = none := by
      by_cases hbefore : before = none
      · exact .inr (eq_none_iff_forall_ne_some.mpr fun found hfound => hstart ⟨hbefore, found, hfound⟩)
      · exact .inl hbefore
    cases text with
    | nil =>
      unfold matchAt at h
      rw [hrelative, origin_nil] at h
      simp at h
    | cons c text =>
      rw [matchAt_behind hrelative hnot] at h
      split at h
      · cases h
      obtain ⟨found', horigin, hfound⟩ := map_eq_some_iff.mp h
      cases hfound
      obtain ⟨-, word, rfl, hword⟩ := origin_eq_some_iff.mp horigin
      exact ⟨.inr ⟨hrelative, c, rfl⟩, word, rfl, hword⟩
  · rw [matchAt_absolute hrelative] at h
    split at h
    · cases h
    · exact hhere h

/-! ### Slashes -/

lemma slashes_lower (text : Units) : (text.map lowerAscii).count 47 = text.count 47 := by
  rw [count_eq_countP, count_eq_countP, countP_map]
  refine countP_congr fun c _ => ?_
  simp only [Function.comp_apply, beq_iff_eq]
  constructor
  · exact lowerAscii_eq (by omega)
  · rintro rfl
    rfl

lemma slashes_originWord {word : Units} {port : Option Units}
    (h : OriginWord pattern word lead port) : word.count 47 = 2 := by
  obtain ⟨hlead, hok, host, hhost, hlower⟩ := h
  have hleads : ∀ relative, ∀ lead ∈ leads relative, lead.count 47 = 2 := by decide
  have hhost' : host.count 47 = 0 :=
    count_eq_zero.mpr fun hmem => (isHostUnit_ne (pattern.plain host hhost 47 hmem)).1 rfl
  have hport : (portText port).count 47 = 0 :=
    count_eq_zero.mpr fun hmem => absurd (mem_portText hok hmem).1 (by decide)
  rw [← slashes_lower, hlower, count_append, count_append, hleads _ lead hlead, hhost', hport]

lemma slashes_publicOrigin (lead : Units) (port : Option Units) :
    (publicOrigin pattern metadata lead port).count 47 = 2 := by
  have hscheme : (publicProtocolForLocalhostRewrite lead metadata).count 47 = 0 := by
    unfold publicProtocolForLocalhostRewrite
    split_ifs <;> cases metadata.publicProtocol <;> rfl
  have hhost : metadata.publicHost.count 47 = 0 := count_eq_zero.mpr metadata.host_plain
  have hport : (decimal (publicPortForLocalhostRewrite port metadata)).count 47 = 0 :=
    count_eq_zero.mpr fun hmem => absurd (mem_decimal hmem).1 (by decide)
  unfold publicOrigin
  split_ifs <;> simp only [count_append, count_nil, hscheme, hhost, hport] <;> rfl

lemma slashes_execLoop {rule : Option Nat → Units → Option (Nat × Units)} (loss : Option Nat → Nat → Units → Nat)
    (hnil : ∀ before skip, loss before skip [] = 0)
    (hskip : ∀ before skip c text, loss before (skip + 1) (c :: text) = loss (some c) skip text)
    (hcopy : ∀ before c text, rule before (c :: text) = none → loss before 0 (c :: text) = loss (some c) 0 text)
    (hmatch : ∀ before c text length written, rule before (c :: text) = some (length, written) →
      1 ≤ length ∧ written.count 47 + loss before 0 (c :: text) =
        ((c :: text).take length).count 47 + loss (some c) (length - 1) text)
    (before : Option Nat) (skip index : Nat) (lastMatchEnd : Option Nat) (text : Units) :
    (execLoop rule before skip index lastMatchEnd text).1.count 47 + loss before skip text = (text.drop skip).count 47 := by
  induction text generalizing before skip index lastMatchEnd with
  | nil => cases skip <;> simp [execLoop, hnil]
  | cons c text ih =>
    cases skip with
    | succ skip =>
      rw [hskip]
      exact ih ..
    | zero =>
      cases hrule : rule before (c :: text) with
      | none =>
        have hrest := ih (some c) 0 (index + 1) lastMatchEnd
        rw [execLoop_copy hrule, hcopy before c text hrule, drop_zero] at *
        simp only [count_cons] at *
        omega
      | some found =>
        obtain ⟨length, written⟩ := found
        obtain ⟨hpos, hcount⟩ := hmatch before c text length written hrule
        obtain ⟨length, rfl⟩ := Nat.exists_eq_succ_of_ne_zero (Nat.ne_of_gt hpos)
        have hrest := ih (some c) length (index + 1) (some (index + 1 + length))
        rw [execLoop_match hrule, count_append]
        have hsplit : ((c :: text).take (length + 1)).count 47 + (text.drop length).count 47 = (c :: text).count 47 := by
          rw [← count_append]
          exact congrArg _ (take_append_drop (length + 1) (c :: text))
        rw [drop_zero]
        simp only [Nat.succ_eq_add_one, Nat.add_sub_cancel] at hcount
        omega

/-- The text of a match has two slashes and those of the character that belongs to it. The replacement of a header leaves that
character out where it is a slash. -/
lemma matched_spec (h : matchAt pattern before text = some (lead, found)) :
    1 ≤ text.length - found.rest.length ∧
      (text.take (text.length - found.rest.length)).count 47 = lead.count 47 + 2 ∧
      (if (codes "//").isPrefixOf (text.take (text.length - found.rest.length)) then [] else lead) =
        if lead = [47] then [] else lead := by
  obtain ⟨hlead, word, htext, hword⟩ := matchAt_spec h
  have hmatched : text.take (text.length - found.rest.length) = lead ++ word := by
    rw [htext, length_append, Nat.add_sub_cancel, take_left' rfl]
  have hcount : word.count 47 = 2 := slashes_originWord hword
  obtain ⟨x, y, rest, rfl, hstarts⟩ := originWord_starts hword
  refine ⟨?_, by rw [hmatched, count_append, hcount], ?_⟩
  · have := congrArg List.length hmatched
    rw [length_take_of_le (Nat.sub_le _ _), length_append, length_cons] at this
    omega
  rcases hlead with rfl | ⟨hrelative, c, rfl⟩
  · rw [ite_self, ite_self]
  -- the character stands in front of two slashes
  rw [hrelative] at hstarts
  obtain rfl : x = 47 := lowerAscii_eq (by omega) hstarts.1
  rw [hmatched]
  by_cases hc : c = 47
  · subst hc
    rfl
  have hnot : ¬(codes "//").isPrefixOf ([c] ++ 47 :: y :: rest) = true := by
    rw [ isPrefixOf_iff_prefix]
    rintro ⟨more, hmore⟩
    exact hc (List.cons.inj hmore).1.symm
  rw [if_neg hnot, if_neg (by simpa using hc)]

lemma slashes_passRule (text : Units) : (replaceAll (passRule pattern metadata) text).count 47 = text.count 47 := by
  have hkeep : ∀ before c text length written, passRule pattern metadata before (c :: text) = some (length, written) →
      1 ≤ length ∧ written.count 47 + 0 = ((c :: text).take length).count 47 + 0 := by
    intro before c text length written h
    obtain ⟨⟨lead, found⟩, hmatch, hfound⟩ := map_eq_some_iff.mp h
    cases hfound
    obtain ⟨hpos, hcount, -⟩ := matched_spec hmatch
    exact ⟨hpos, by rw [hcount, count_append, slashes_publicOrigin]⟩
  exact slashes_execLoop (fun _ _ _ => 0) (fun _ _ => rfl) (fun _ _ _ _ => rfl) (fun _ _ _ _ => rfl) hkeep none 0 0 none text

variable (h : matchAt pattern before text = some (lead, found))
include h

lemma slashMatch_eq : slashMatch pattern before text = if lead = [47] then 1 else 0 := by
  rw [slashMatch, h]
  simp

lemma headerRule_eq :
    headerRule pattern metadata before text = some (text.length - found.rest.length,
      (if lead = [47] then [] else lead) ++ publicOrigin pattern metadata found.lead found.port) := by
  rw [headerRule, h, ← (matched_spec h).2.2, map_some]
  simp only [length_take_of_le (Nat.sub_le _ _)]

omit h

lemma slashMatches_some (h : matchAt pattern before (c :: text) = some (lead, found)) :
    slashMatches pattern before 0 (c :: text) = (if lead = [47] then 1 else 0) +
      slashMatches pattern (some c) ((c :: text).length - found.rest.length - 1) text := by
  rw [slashMatches, h, ← slashMatch_eq h]

lemma slashMatches_none (h : matchAt pattern before (c :: text) = none) :
    slashMatches pattern before 0 (c :: text) = slashMatches pattern (some c) 0 text := by
  rw [slashMatches, h]

lemma slashes_headerRule (text : Units) :
    (replaceAll (headerRule pattern metadata) text).count 47 + slashMatches pattern none 0 text = text.count 47 := by
  refine slashes_execLoop (slashMatches pattern) (fun _ skip => ?_) (fun _ _ _ _ => rfl) ?_ ?_ none 0 0 none text
  · cases skip <;> rfl
  · intro before c text h
    exact slashMatches_none (map_eq_none_iff.mp h)
  intro before c text length written h
  obtain ⟨⟨lead, found⟩, hmatch, -⟩ := map_eq_some_iff.mp h
  rw [headerRule_eq hmatch] at h
  cases h
  obtain ⟨hpos, hcount, -⟩ := matched_spec hmatch
  refine ⟨hpos, ?_⟩
  rw [slashMatches_some hmatch, hcount, count_append, slashes_publicOrigin]
  split_ifs with hslash
  · rw [hslash]
    simp only [count_nil, count_singleton_self]
    omega
  · omega

lemma headerRule_eq_passRule (h : slashMatches pattern none 0 text = 0) :
    replaceAll (headerRule pattern metadata) text = replaceAll (passRule pattern metadata) text := by
  have hall : ∀ (text : Units) before skip index lastMatchEnd, slashMatches pattern before skip text = 0 →
      execLoop (headerRule pattern metadata) before skip index lastMatchEnd text =
        execLoop (passRule pattern metadata) before skip index lastMatchEnd text := by
    intro text
    induction text with
    | nil =>
      intro before skip index lastMatchEnd _
      cases skip <;> rfl
    | cons c text ih =>
      intro before skip index lastMatchEnd hnone
      cases skip with
      | succ skip => exact ih _ _ _ _ hnone
      | zero =>
        cases hmatch : matchAt pattern before (c :: text) with
        | none =>
          rw [slashMatches_none hmatch] at hnone
          have hheader : headerRule pattern metadata before (c :: text) = none := by rw [headerRule, hmatch]; rfl
          have hpass : passRule pattern metadata before (c :: text) = none := by rw [passRule, hmatch]; rfl
          rw [execLoop_copy hheader, execLoop_copy hpass, ih _ _ _ _ hnone]
        | some found =>
          obtain ⟨lead, found⟩ := found
          rw [slashMatches_some hmatch, Nat.add_eq_zero_iff] at hnone
          have hslash : lead ≠ [47] := fun hlead => by
            rw [if_pos hlead] at hnone
            exact one_ne_zero hnone.1
          have hsame : headerRule pattern metadata before (c :: text) = passRule pattern metadata before (c :: text) := by
            rw [headerRule_eq hmatch, if_neg hslash, passRule, hmatch]
            rfl
          rw [execLoop, execLoop, hsame]
          cases hrule : passRule pattern metadata before (c :: text) with
          | none =>
            rw [passRule, hmatch] at hrule
            cases hrule
          | some written =>
            rw [passRule, hmatch] at hrule
            cases hrule
            simp only [ih _ _ _ _ hnone.2]
  rw [replaceAll, replaceAll, hall text none 0 0 none h]

lemma rewrite_eq_replaceAll (text : Units) : rewrite (originRules pattern metadata) text =
    replaceAll (passRule pattern metadata) text := by
  have hahead : (originRules pattern metadata).find [] = none := find_short (by decide)
  obtain ⟨stop, -, -, hloop⟩ := execLoop_advance hahead text marks_start fun _ _ => .inl rfl
  rw [append_nil, execLoop_sentinel (by decide) (fun h => absurd rfl h)] at hloop
  rw [rewrite, replaceAll, show execLoop (passRule pattern metadata) none 0 0 none text = _ from hloop, append_nil]

end Matches

/-! ## Bodies and headers -/

variable {table : LowerCase} {metadata : EndpointMetadata} {host : LoopbackHost} {relative : Bool} {text : Units}

lemma infix_of_matchAt {before : Option Nat} {lead : Units} {found : Origin}
    (h : matchAt (loopbackPattern host relative) before text = some (lead, found)) : host.text <:+: text := by
  obtain ⟨-, word, rfl, -, -, host', hhost, hlower⟩ := matchAt_spec h
  obtain rfl := mem_singleton.mp hhost
  obtain ⟨first, last, rfl, hfirst, -⟩ := map_eq_append_iff.mp hlower
  obtain ⟨scheme, middle, rfl, -, hmiddle⟩ := map_eq_append_iff.mp hfirst
  obtain rfl : middle = host.text := by
    refine eq_of_lower (fun c hc => ?_) hmiddle
    rcases host.dotted c hc with hdigit | rfl
    · have := isDigit_iff.mp hdigit
      omega
    · omega
  exact ⟨lead ++ scheme, last ++ found.rest, by simp⟩

lemma replaceAll_of_absent (h : ¬host.text <:+: text) :
    replaceAll (passRule (loopbackPattern host relative) metadata) text = text := by
  have hall : ∀ (rest : Units) before index, rest <:+: text →
      (execLoop (passRule (loopbackPattern host relative) metadata) before 0 index none rest).1 = rest := by
    intro rest
    induction rest with
    | nil => exact fun _ _ _ => rfl
    | cons c rest ih =>
      intro before index hinfix
      have hnone : passRule (loopbackPattern host relative) metadata before (c :: rest) = none := by
        rw [passRule, map_eq_none_iff]
        refine eq_none_iff_forall_ne_some.mpr fun found hfound => ?_
        exact h ((infix_of_matchAt hfound).trans hinfix)
      rw [execLoop_copy hnone, ih _ _ ((suffix_cons c rest).isInfix.trans hinfix)]
  exact hall text none 0 (infix_refl text)

variable {pattern : OriginPattern}

lemma slashMatches_absolute (hrelative : pattern.relative = false) (before : Option Nat) (skip : Nat)
    (text : Units) : slashMatches pattern before skip text = 0 := by
  induction text generalizing before skip with
  | nil => cases skip <;> rfl
  | cons c text ih =>
    cases skip with
    | succ skip => exact ih ..
    | zero =>
      cases hmatch : matchAt pattern before (c :: text) with
      | none => rw [slashMatches_none hmatch, ih]
      | some found =>
        obtain ⟨lead, found⟩ := found
        have hlead : lead ≠ [47] := by
          rintro rfl
          rcases (matchAt_spec hmatch).1 with hnil | ⟨htrue, -⟩
          · cases hnil
          · rw [hrelative] at htrue
            cases htrue
        rw [slashMatches_some hmatch, if_neg hlead, ih]

lemma streamed_eq
    (hplain : PassesSearchPlain table metadata ((passPatterns metadata).map fun pattern => (pattern, .new)) text) :
    streamed table metadata text = rewriteAll metadata text := by
  have hready : PassesReady metadata ((passPatterns metadata).map fun pattern => (pattern, .new)) := by
    intro pass hpass
    obtain ⟨pattern, -, rfl⟩ := mem_map.mp hpass
    exact ready_new
  obtain ⟨hready', hmore⟩ := translate_remaining hready hplain
  rw [streamed, translate_final hready', ← hmore, append_nil, remaining_new]
  rfl

lemma rewriteAll_eq (text : Units) : rewriteAll metadata text =
    match metadata.upstreamLoopbackHost with
    | none => replaceAll (passRule (localPattern true) metadata) (replaceAll (passRule (localPattern false) metadata) text)
    | some host => replaceAll (passRule (loopbackPattern host true) metadata)
        (replaceAll (passRule (loopbackPattern host false) metadata)
          (replaceAll (passRule (localPattern true) metadata) (replaceAll (passRule (localPattern false) metadata) text))) := by
  unfold rewriteAll passPatterns
  cases metadata.upstreamLoopbackHost <;> simp only [rewrite_eq_replaceAll, foldl_append, foldl_cons, foldl_nil]

lemma slashes_rewriteAll (text : Units) : (rewriteAll metadata text).count 47 = text.count 47 := by
  rw [rewriteAll_eq]
  split <;> simp only [slashes_passRule]

lemma replaceAll_absolute (hrelative : pattern.relative = false) (text : Units) :
    replaceAll (headerRule pattern metadata) text = replaceAll (passRule pattern metadata) text :=
  headerRule_eq_passRule (slashMatches_absolute hrelative _ _ _)

lemma slashes_absolute (hrelative : pattern.relative = false) (text : Units) :
    (replaceAll (headerRule pattern metadata) text).count 47 = text.count 47 := by
  rw [replaceAll_absolute hrelative, slashes_passRule]

lemma slashes_rewriteLocalhostOrigins (text : Units) :
    (rewriteLocalhostOrigins text metadata).count 47 + droppedSlashes text metadata = text.count 47 := by
  have habsolute : (replaceAll (headerRule (localPattern false) metadata) text).count 47 = text.count 47 :=
    slashes_absolute rfl text
  unfold rewriteLocalhostOrigins rewriteUpstreamLoopbackOrigins droppedSlashes
  simp only
  generalize replaceAll (headerRule (localPattern false) metadata) text = first at habsolute
  have hrelative : (replaceAll (headerRule (localPattern true) metadata) first).count 47 + _ = _ := slashes_headerRule first
  generalize replaceAll (headerRule (localPattern true) metadata) first = second at hrelative
  cases metadata.upstreamLoopbackHost with
  | none =>
    simp only
    omega
  | some host =>
    simp only
    split_ifs
    · have habsolute' : (replaceAll (headerRule (loopbackPattern host false) metadata) second).count 47 = second.count 47 :=
        slashes_absolute rfl second
      generalize replaceAll (headerRule (loopbackPattern host false) metadata) second = third at habsolute'
      have hrelative' : (replaceAll (headerRule (loopbackPattern host true) metadata) third).count 47 + _ = _ :=
        slashes_headerRule third
      omega
    · omega

lemma rewriteLocalhostOrigins_eq (h : droppedSlashes text metadata = 0) :
    rewriteLocalhostOrigins text metadata = rewriteAll metadata text := by
  rw [rewriteAll_eq]
  unfold droppedSlashes at h
  unfold rewriteLocalhostOrigins rewriteUpstreamLoopbackOrigins
  simp only at h ⊢
  obtain ⟨hlocal, hloopback⟩ := Nat.add_eq_zero_iff.mp h
  rw [headerRule_eq_passRule hlocal, replaceAll_absolute rfl] at hloopback ⊢
  generalize replaceAll (passRule (localPattern true) metadata) _ = second at hloopback ⊢
  cases hhost : metadata.upstreamLoopbackHost with
  | none => rfl
  | some host =>
    rw [hhost] at hloopback
    simp only at hloopback ⊢
    split_ifs at hloopback ⊢ with hinfix
    · rw [headerRule_eq_passRule hloopback, replaceAll_absolute rfl]
    · rw [replaceAll_of_absent hinfix, replaceAll_of_absent hinfix]

/-- Where every pass finds the unfinished origin at the end of its text, the passes give what the replacement of a header gives exactly
when no match of a protocol-relative expression takes a slash as the character before the origin. -/
theorem streamed_eq_iff (table : LowerCase) (metadata : EndpointMetadata) (text : Units)
    (hplain : PassesSearchPlain table metadata ((passPatterns metadata).map fun pattern => (pattern, .new)) text) :
    streamed table metadata text = rewriteLocalhostOrigins text metadata ↔ droppedSlashes text metadata = 0 := by
  rw [streamed_eq hplain]
  constructor
  · intro heq
    have hheader : (rewriteLocalhostOrigins text metadata).count 47 + _ = _ := slashes_rewriteLocalhostOrigins text
    rw [← heq, slashes_rewriteAll] at hheader
    omega
  · intro hnone
    exact (rewriteLocalhostOrigins_eq hnone).symm

theorem streamed_link_header :
    let metadata : EndpointMetadata := ⟨.https, codes "a.test", 8443, 3000, some ⟨codes "127.96.0.7", by decide, by decide⟩, by decide⟩
    let text := codes "<//localhost:3000/a>, <http://127.96.0.7>"
    streamed plainTable metadata text = rewriteLocalhostOrigins text metadata ↔ droppedSlashes text metadata = 0 := by
  intro metadata text
  exact streamed_eq_iff plainTable metadata text (by decide +kernel)

/-- An origin behind a slash loses the slash in a header; an origin at the end behind two characters U+0130 is not rewritten in
a body. -/
theorem streamed_differs :
    let metadata : EndpointMetadata := ⟨.http, codes "a.test", 8080, 3000, none, by decide⟩
    let slashes := codes "file:///localhost/a"
    let dotted := [0x130, 0x130] ++ codes "http://localhost"
    (streamed plainTable metadata slashes = codes "file:///a.test:8080/a" ∧
        rewriteLocalhostOrigins slashes metadata = codes "file://a.test:8080/a") ∧
      streamed plainTable metadata dotted = dotted ∧
        rewriteLocalhostOrigins dotted metadata = [0x130, 0x130] ++ codes "http://a.test:8080" := by
  decide +kernel

end PortManager.Browser
