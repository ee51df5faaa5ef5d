import PortManager.Base.Utf8

/-!
# Encoded texts that arrive in chunks

A text is encoded, its octets are cut into chunks at arbitrary places, and every chunk is decoded on its own. A
character that lies in one chunk comes out as it was; one that is cut comes out as two or more replacement characters
(`decode_chunks`). A text without surrogates that stand alone is thus received as it was sent exactly when every
chunk is well-formed (`chunks_received`).
-/

namespace Utf8
open List

/-! ## Characters -/

/-- One character: a unit that is no surrogate, or a pair of surrogates. -/
inductive Character : List Nat → Prop where
  | unit {x : Nat} : x < 0x10000 → (x < 0xD800 ∨ 0xE000 ≤ x) → Character [x]
  | pair {x y : Nat} : 0xD800 ≤ x → x < 0xDC00 → 0xDC00 ≤ y → y < 0xE000 → Character [x, y]

inductive Whole : List Nat → Prop where
  | nil : Whole []
  | cons {u s : List Nat} : Character u → Whole s → Whole (u ++ s)

variable {s t u o r p q a text : List Nat} {x : Nat} {chunks : List (List Nat)}

lemma Whole.append (hs : Whole s) (ht : Whole t) : Whole (s ++ t) := by
  induction hs with
  | nil => exact ht
  | cons hu _ ih =>
    rw [append_assoc]
    exact .cons hu ih

lemma Character.whole (hu : Character u) : Whole u := by
  have hwhole := Whole.cons hu .nil
  rwa [append_nil] at hwhole

lemma character_ascii (hx : x < 0x80) : Character [x] := .unit (by omega) (by omega)

lemma whole_ascii (hs : ∀ x ∈ s, x < 0x80) : Whole s := by
  induction s with
  | nil => exact .nil
  | cons x s ih =>
    rw [forall_mem_cons] at hs
    exact .cons (character_ascii hs.1) (ih hs.2)

lemma encode_character (hu : Character u) (s : List Nat) : encode (u ++ s) = encode u ++ encode s := by
  cases hu with
  | @unit x hx hnot =>
    cases s with
    | nil => rw [append_nil, encode, append_nil]
    | cons y s => rw [cons_append, nil_append, encode.eq_3, if_neg (by omega), encode.eq_2]
  | @pair x y hx hx' hy hy' =>
    rw [cons_append, cons_append, nil_append, encode, if_pos ⟨hx, hx', hy, hy'⟩, encode,
      if_pos ⟨hx, hx', hy, hy'⟩, encode, append_nil]

lemma encode_whole (hs : Whole s) (t : List Nat) : encode (s ++ t) = encode s ++ encode t := by
  induction hs with
  | nil => rfl
  | cons hu _ ih => rw [append_assoc, encode_character hu, ih, encode_character hu, append_assoc]

lemma encode_ascii (hs : ∀ x ∈ s, x < 0x80) : encode s = s := by
  induction s with
  | nil => rfl
  | cons x s ih =>
    rw [forall_mem_cons] at hs
    have hx : encode [x] = [x] := by rw [encode, encodeUnit, if_neg (by omega), encodePoint, if_pos hs.1]
    rw [← singleton_append, encode_character (character_ascii hs.1), ih hs.2, hx]

lemma sequence_encode (hu : Character u) : Sequence (encode u) u := by
  cases hu with
  | @unit x hx hnot =>
    rw [encode, encodeUnit, if_neg (by omega)]
    unfold encodePoint
    split_ifs with h1 h2
    · exact .one h1
    · have hseq : Sequence [0xC0 + x / 64, 0x80 + x % 64] _ := .two ⟨by omega, by omega, by omega, by omega⟩
      have hpoint : point2 (0xC0 + x / 64) (0x80 + x % 64) = x := by unfold point2; omega
      rwa [hpoint] at hseq
    have hlow : secondLow (0xE0 + x / 4096) ≤ 0x80 + x / 64 % 64 := by
      unfold secondLow
      split_ifs <;> omega
    have hhigh : 0x80 + x / 64 % 64 ≤ secondHigh (0xE0 + x / 4096) := by
      unfold secondHigh
      split_ifs <;> omega
    have hseq : Sequence [0xE0 + x / 4096, 0x80 + x / 64 % 64, 0x80 + x % 64] _ :=
      .three ⟨by omega, by omega, hlow, hhigh, by omega, by omega⟩
    have hpoint : point3 (0xE0 + x / 4096) (0x80 + x / 64 % 64) (0x80 + x % 64) = x := by unfold point3; omega
    rwa [hpoint] at hseq
  | @pair x y hx hx' hy hy' =>
    rw [encode, if_pos ⟨hx, hx', hy, hy'⟩, encode, append_nil]
    obtain ⟨point, hpoint⟩ : ∃ point, point = (x - 0xD800) * 0x400 + (y - 0xDC00) := ⟨_, rfl⟩
    have hlt : point < 0x100000 := by omega
    have hunits : [x, y] = surrogates point := by
      rw [surrogates]
      congr 1
      · omega
      · congr 1
        omega
    rw [add_assoc, ← hpoint, hunits]
    clear hunits hpoint
    rw [encodePoint, if_neg (by omega), if_neg (by omega), if_neg (by omega)]
    have hlow : secondLow (0xF0 + (0x10000 + point) / 262144) ≤ 0x80 + (0x10000 + point) / 4096 % 64 := by
      unfold secondLow
      split_ifs <;> omega
    have hhigh : 0x80 + (0x10000 + point) / 4096 % 64 ≤ secondHigh (0xF0 + (0x10000 + point) / 262144) := by
      unfold secondHigh
      split_ifs <;> omega
    have hseq : Sequence [0xF0 + (0x10000 + point) / 262144, 0x80 + (0x10000 + point) / 4096 % 64,
        0x80 + (0x10000 + point) / 64 % 64, 0x80 + (0x10000 + point) % 64] _ :=
      .four ⟨by omega, by omega, hlow, hhigh, by omega, by omega, by omega, by omega⟩
    have hback : point4 (0xF0 + (0x10000 + point) / 262144) (0x80 + (0x10000 + point) / 4096 % 64)
        (0x80 + (0x10000 + point) / 64 % 64) (0x80 + (0x10000 + point) % 64) = point := by
      unfold point4
      omega
    rwa [hback] at hseq

lemma valid_encode (hs : Whole s) : Valid (encode s) := by
  induction hs with
  | nil => exact .nil
  | cons hu _ ih =>
    rw [encode_character hu]
    exact .cons (sequence_encode hu) ih

lemma decode_encode_append (hs : Whole s) (t : List Nat) : decode (encode s ++ t) = s ++ decode t := by
  induction hs with
  | nil => rfl
  | cons hu _ ih =>
    rw [encode_character hu, append_assoc, decode_sequence (sequence_encode hu), ih, append_assoc]

lemma decode_encode (hs : Whole s) : decode (encode s) = s := by
  have h := decode_encode_append hs []
  rwa [append_nil, decode_nil, append_nil] at h

lemma Sequence.length_le (h : Sequence o u) : u.length ≤ o.length := by
  cases h with
  | one _ => exact le_refl 1
  | two _ => exact Nat.le_succ 1
  | three _ => exact Nat.le_add_right 1 2
  | four _ => exact Nat.le_add_right 2 2

lemma length_le_encode (hs : Whole s) : s.length ≤ (encode s).length := by
  induction hs with
  | nil => exact le_refl 0
  | cons hu _ ih =>
    rw [encode_character hu, length_append, length_append]
    exact add_le_add (sequence_encode hu).length_le ih

lemma decode_valid_append (hs : Valid s) (t : List Nat) : decode (s ++ t) = decode s ++ decode t := by
  induction hs with
  | nil => rfl
  | cons hseq _ ih => rw [append_assoc, decode_sequence hseq, decode_sequence hseq, ih, append_assoc]

lemma decode_flatten (hchunks : ∀ chunk ∈ chunks, Valid chunk) : decode chunks.flatten = chunks.flatMap decode := by
  induction chunks with
  | nil => rfl
  | cons chunk chunks ih =>
    rw [forall_mem_cons] at hchunks
    rw [flatten_cons, flatMap_cons, decode_valid_append hchunks.1, ih hchunks.2]

/-! ## Parts of a character -/

/-- An octet that only stands behind another one. -/
def Continuation (x : Nat) : Prop := 0x80 ≤ x ∧ x ≤ 0xBF

lemma decode_continuation (hx : Continuation x) (s : List Nat) : decode (x :: s) = replacement :: decode s := by
  obtain ⟨hlow, hhigh⟩ := hx
  have hstart : start x = ([replacement], .between) := by rw [start, if_neg (by omega), if_neg (by omega)]
  simp [decode, decodeFrom, step, continues, flush, hstart]

lemma decode_continuations (hr : ∀ x ∈ r, Continuation x) (s : List Nat) :
    decode (r ++ s) = replicate r.length replacement ++ decode s := by
  induction r with
  | nil => rfl
  | cons x r ih =>
    rw [forall_mem_cons] at hr
    rw [cons_append, decode_continuation hr.1, ih hr.2]
    rfl

lemma Sequence.continuation (hseq : Sequence o u) : ∀ x ∈ o.tail, Continuation x := by
  cases hseq with
  | one => exact fun x hx => absurd hx not_mem_nil
  | two h => simpa [Continuation] using ⟨h.2.2.1, h.2.2.2⟩
  | three h =>
    obtain ⟨-, -, hlow, hhigh, hc, hc'⟩ := h
    have hb := second_bounds hlow hhigh
    simp only [tail_cons, forall_mem_cons, Continuation]
    exact ⟨⟨hb.1, hb.2.1⟩, ⟨hc, hc'⟩, fun x hx => absurd hx not_mem_nil⟩
  | four h =>
    obtain ⟨-, -, hlow, hhigh, hc, hc', hd, hd'⟩ := h
    have hb := second_bounds hlow hhigh
    simp only [tail_cons, forall_mem_cons, Continuation]
    exact ⟨⟨hb.1, hb.2.1⟩, ⟨hc, hc'⟩, ⟨hd, hd'⟩, fun x hx => absurd hx not_mem_nil⟩

lemma Sequence.continuation_of_split (hseq : Sequence o u) (ho : o = p ++ q) (hp : p ≠ []) :
    ∀ x ∈ q, Continuation x := by
  intro x hx
  refine hseq.continuation x ?_
  cases p with
  | nil => exact absurd rfl hp
  | cons y p =>
    rw [ho, cons_append, tail_cons]
    exact mem_append_right p hx

/-- The first octets of a character alone are one broken sequence. -/
lemma decode_first_part (hseq : Sequence o u) (ho : o = p ++ q) (hp : p ≠ []) (hq : q ≠ []) :
    decode p = [replacement] := by
  have hpre : p.length < o.length := by
    rw [ho, length_append]
    exact Nat.lt_add_of_pos_right (length_pos_iff.mpr hq)
  have hp' : p = o.take p.length := by rw [ho, take_left]
  have hpos : 0 < p.length := length_pos_iff.mpr hp
  have hstart : ∀ a, 0xC2 ≤ a → a ≤ 0xF4 → start a = ([], .one a) := by
    intro a ha ha'
    rw [start, if_neg (by omega), if_pos ⟨ha, ha'⟩]
  rw [hp']
  generalize p.length = n at hpre hpos
  clear hp' ho hp hq
  cases hseq with
  | one =>
    rw [length_singleton] at hpre
    omega
  | @two a b h =>
    have hone := hstart a h.1 (by have := h.2.1; omega)
    simp only [length_cons, length_nil] at hpre
    obtain rfl : n = 1 := by omega
    simp [decode, decodeFrom, step, continues, flush, hone]
  | @three a b c h =>
    obtain ⟨ha, ha', hb, hb', -⟩ := h
    have hone := hstart a (by omega) (by omega)
    simp only [length_cons, length_nil] at hpre
    obtain rfl | rfl : n = 1 ∨ n = 2 := by omega
    · simp [decode, decodeFrom, step, continues, flush, hone]
    · simp [decode, decodeFrom, step, continues, flush, hone, hb, hb', advance, not_lt.mpr ha]
  | @four a b c d h =>
    obtain ⟨ha, ha', hb, hb', hc, hc', -⟩ := h
    have hone := hstart a (by omega) ha'
    have hlead : ¬ a < 0xE0 := by omega
    simp only [length_cons, length_nil] at hpre
    obtain rfl | rfl | rfl : n = 1 ∨ n = 2 ∨ n = 3 := by omega
    · simp [decode, decodeFrom, step, continues, flush, hone]
    · simp [decode, decodeFrom, step, continues, flush, hone, hb, hb', advance, hlead]
    · simp [decode, decodeFrom, step, continues, flush, hone, hb, hb', hc, hc', advance, hlead, not_lt.mpr ha]

/-! ## Cut characters -/

/-- The text with some characters of more than one octet replaced, each by at least two replacement characters. -/
inductive Cut : List Nat → List Nat → Prop where
  | nil : Cut [] []
  | keep {u s t : List Nat} : Character u → Cut s t → Cut (u ++ s) (u ++ t)
  | cut {u s t : List Nat} (k : Nat) : Character u → 2 ≤ (encode u).length → Cut s t →
    Cut (u ++ s) (List.replicate (k + 2) replacement ++ t)

lemma Cut.whole_append (hcut : Cut s t) (ha : Whole a) : Cut (a ++ s) (a ++ t) := by
  induction ha with
  | nil => exact hcut
  | cons hu _ ih =>
    rw [append_assoc, append_assoc]
    exact .keep hu ih

lemma Character.append_inj {u' s' : List Nat} (hu : Character u) (hu' : Character u')
    (h : u ++ s = u' ++ s') : u = u' ∧ s = s' := by
  cases hu with
  | unit hx hnot =>
    cases hu' with
    | unit =>
      obtain ⟨rfl, hrest⟩ := cons.inj h
      exact ⟨rfl, hrest⟩
    | pair hlow hhigh =>
      cases h
      omega
  | pair hlow hhigh =>
    cases hu' with
    | unit hx hnot =>
      cases h
      omega
    | pair =>
      obtain ⟨rfl, hsecond⟩ := cons.inj h
      obtain ⟨rfl, hrest⟩ := cons.inj hsecond
      exact ⟨rfl, hrest⟩

lemma Cut.uncons (hu : Character u) (hcut : Cut (u ++ s) t) :
    ∃ t', Cut s t' ∧ (t = u ++ t' ∨ 2 ≤ (encode u).length ∧ ∃ k, t = replicate (k + 2) replacement ++ t') := by
  generalize htext : u ++ s = text at hcut
  cases hcut with
  | nil =>
    obtain ⟨rfl, -⟩ := append_eq_nil_iff.mp htext
    cases hu
  | @keep u' s' t' hu' hrest =>
    obtain ⟨rfl, rfl⟩ := hu.append_inj hu' htext
    exact ⟨t', hrest, .inl rfl⟩
  | @cut u' s' t' k hu' htwo hrest =>
    obtain ⟨rfl, rfl⟩ := hu.append_inj hu' htext
    exact ⟨t', hrest, .inr ⟨htwo, k, rfl⟩⟩

lemma Cut.split {b : List Nat} (ha : Whole a) (hcut : Cut (a ++ b) t) :
    ∃ a' b', t = a' ++ b' ∧ Cut a a' ∧ Cut b b' := by
  induction ha generalizing t with
  | nil => exact ⟨[], t, rfl, .nil, hcut⟩
  | cons hu _ ih =>
    rw [append_assoc] at hcut
    obtain ⟨t', hcut', hfirst⟩ := hcut.uncons hu
    obtain ⟨a', b', rfl, ha', hb'⟩ := ih hcut'
    rcases hfirst with rfl | ⟨htwo, k, rfl⟩
    · exact ⟨_, b', (append_assoc ..).symm, .keep hu ha', hb'⟩
    · exact ⟨_, b', (append_assoc ..).symm, .cut k hu htwo ha', hb'⟩

lemma Cut.ascii_append (ha : ∀ x ∈ a, x < 0x80) (hcut : Cut (a ++ s) t) : ∃ t', t = a ++ t' ∧ Cut s t' := by
  induction a generalizing t with
  | nil => exact ⟨t, rfl, hcut⟩
  | cons x a ih =>
    rw [forall_mem_cons] at ha
    obtain ⟨t', hcut', rfl | ⟨htwo, -⟩⟩ := Cut.uncons (character_ascii ha.1) hcut
    · obtain ⟨t'', rfl, hrest⟩ := ih ha.2 hcut'
      exact ⟨t'', rfl, hrest⟩
    · rw [encode_ascii (forall_mem_singleton.mpr ha.1)] at htwo
      exact absurd htwo (Nat.not_le.mpr (Nat.lt_succ_self 1))

lemma Cut.ascii_cons (hx : x < 0x80) (hcut : Cut (x :: s) t) : ∃ t', t = x :: t' ∧ Cut s t' :=
  Cut.ascii_append (forall_mem_singleton.mpr hx) hcut

lemma Cut.eq_of_ascii (ha : ∀ x ∈ a, x < 0x80) (hcut : Cut a t) : t = a := by
  rw [← append_nil a] at hcut
  obtain ⟨t', rfl, hnil⟩ := hcut.ascii_append ha
  generalize hempty : ([] : List Nat) = text at hnil
  cases hnil with
  | nil => rw [append_nil]
  | keep hu | cut k hu =>
    obtain ⟨rfl, -⟩ := append_eq_nil_iff.mp hempty.symm
    cases hu

/-- The unit starts a character: it is not the second half of a pair. -/
def isLead (x : Nat) : Bool := x < 0xDC00 || 0xE000 ≤ x

def characterCount (s : List Nat) : Nat := s.countP isLead

lemma characterCount_append (s t : List Nat) : characterCount (s ++ t) = characterCount s + characterCount t :=
  countP_append

lemma characterCount_character (hu : Character u) : characterCount u = 1 := by
  unfold characterCount
  cases hu with
  | @unit x hx hnot =>
    have hlead : isLead x = true := by
      simp only [isLead, Bool.or_eq_true, decide_eq_true_eq]
      omega
    rw [countP_cons_of_pos hlead, countP_nil]
  | @pair x y hx hx' hy hy' =>
    have hlead : isLead x = true := by simp [isLead, hx']
    have hnot : ¬ isLead y = true := by
      simp only [isLead, Bool.or_eq_true, decide_eq_true_eq]
      omega
    rw [countP_cons_of_pos hlead, countP_cons_of_neg hnot, countP_nil]

lemma characterCount_replacements (n : Nat) : characterCount (replicate n replacement) = n := by
  unfold characterCount
  rw [countP_replicate, if_pos (by decide)]

lemma Cut.count (hcut : Cut s t) :
    characterCount s ≤ characterCount t ∧ (characterCount s = characterCount t → s = t) := by
  induction hcut with
  | nil => exact ⟨le_rfl, fun _ => rfl⟩
  | keep hu _ ih =>
    rw [characterCount_append, characterCount_append]
    exact ⟨Nat.add_le_add_left ih.1 _, fun h => by rw [ih.2 (Nat.add_left_cancel h)]⟩
  | cut k hu _ _ ih =>
    rw [characterCount_append, characterCount_append, characterCount_character hu, characterCount_replacements]
    have hle := ih.1
    exact ⟨by omega, fun h => by omega⟩

/-! ## Chunks -/

/-- Where the end of a chunk falls in an encoded text: between characters, or in one. -/
inductive Boundary (c d : List Nat) : List Nat → Prop where
  | between {s t : List Nat} : Whole s → Whole t → c = encode s → d = encode t → Boundary c d (s ++ t)
  | within {s u t p q : List Nat} : Whole s → Character u → Whole t → encode u = p ++ q → p ≠ [] → q ≠ [] →
    c = encode s ++ p → d = q ++ encode t → Boundary c d (s ++ (u ++ t))

lemma boundary_of_append {c d : List Nat} (htext : Whole text) (hsplit : c ++ d = encode text) : Boundary c d text := by
  induction htext generalizing c with
  | nil =>
    obtain ⟨rfl, rfl⟩ := append_eq_nil_iff.mp hsplit
    exact Boundary.between (s := []) .nil .nil rfl rfl
  | @cons u text hu htext ih =>
    rw [encode_character hu] at hsplit
    rcases append_eq_append_iff.mp hsplit with ⟨q, hfirst, hd⟩ | ⟨c', hc, hrest⟩
    · -- the chunk ends in the first character or at one of its ends
      by_cases hc : c = []
      · subst hc
        exact Boundary.between (s := []) .nil (.cons hu htext) rfl (hsplit.trans (encode_character hu text).symm)
      by_cases hq : q = []
      · subst hq
        rw [append_nil] at hfirst
        exact Boundary.between hu.whole htext hfirst.symm hd
      · exact Boundary.within (s := []) .nil hu htext hfirst hc hq rfl hd
    · cases ih hrest.symm with
      | between hs ht hc' hd =>
        rw [← append_assoc]
        exact Boundary.between (.cons hu hs) ht (by rw [encode_character hu, hc, hc']) hd
      | within hs hu' ht hoctets hp hq hc' hd =>
        rw [← append_assoc]
        refine Boundary.within (.cons hu hs) hu' ht hoctets hp hq ?_ hd
        rw [encode_character hu, hc, hc', append_assoc]

lemma decode_chunks (hr : ∀ x ∈ r, Continuation x) (htext : Whole text) (hchunks : chunks.flatten = r ++ encode text) :
    ∃ t, Cut text t ∧ chunks.flatMap decode = replicate r.length replacement ++ t ∧
      (t = text → r = [] → ∀ chunk ∈ chunks, Valid chunk) := by
  induction chunks generalizing r text with
  | nil =>
    obtain ⟨rfl, hnil⟩ := append_eq_nil_iff.mp hchunks.symm
    have hempty := decode_encode htext
    rw [hnil, decode_nil] at hempty
    subst hempty
    exact ⟨[], .nil, rfl, fun _ _ chunk hchunk => absurd hchunk not_mem_nil⟩
  | cons c chunks ih =>
    rw [flatten_cons] at hchunks
    rw [flatMap_cons]
    rcases append_eq_append_iff.mp hchunks with ⟨r', rfl, hrest⟩ | ⟨c', rfl, hrest⟩
    · -- the chunk has only octets of the character that was cut
      obtain ⟨hc, hr'⟩ := forall_mem_append.mp hr
      obtain ⟨t, hcut, hdecode, hvalid⟩ := ih hr' htext hrest
      have hc := decode_continuations hc []
      rw [append_nil, decode_nil, append_nil] at hc
      refine ⟨t, hcut, ?_, ?_⟩
      · rw [hc, hdecode, length_append, replicate_add, append_assoc]
      intro htext' hnil
      obtain ⟨rfl, rfl⟩ := append_eq_nil_iff.mp hnil
      exact forall_mem_cons.mpr ⟨.nil, hvalid htext' rfl⟩
    · cases boundary_of_append htext hrest.symm with
      | @between s t hs ht hc' hd =>
        obtain ⟨t', hcut, hdecode, hvalid⟩ := ih (r := []) (fun x hx => absurd hx not_mem_nil) ht hd
        have hc := decode_encode hs
        refine ⟨s ++ t', hcut.whole_append hs, ?_, ?_⟩
        · rw [decode_continuations hr, hc', hc, hdecode, append_assoc]
          rfl
        rintro hsame rfl
        rw [nil_append, hc']
        exact forall_mem_cons.mpr ⟨valid_encode hs, hvalid (append_cancel_left hsame) rfl⟩
      | @within s u t p q hs hu ht hoctets hp hq hc' hd =>
        have hseq := sequence_encode hu
        obtain ⟨t', hcut, hdecode, -⟩ := ih (hseq.continuation_of_split hoctets hp) ht hd
        have hpos := length_pos_iff.mpr hp
        obtain ⟨k, hk⟩ : ∃ k, q.length = k + 1 := Nat.exists_eq_add_one.mpr (length_pos_iff.mpr hq)
        have htwo : 2 ≤ (encode u).length := by rw [hoctets, length_append]; omega
        have hcut' : Cut (u ++ t) (replicate (k + 2) replacement ++ t') := .cut k hu htwo hcut
        refine ⟨s ++ (replicate (k + 2) replacement ++ t'), hcut'.whole_append hs, ?_, ?_⟩
        · rw [decode_continuations hr, hc', decode_encode_append hs, decode_first_part hseq hoctets hp hq, hdecode, hk,
            replicate_succ (n := k + 1)]
          simp only [append_assoc, cons_append, nil_append]
        -- a cut character has become more than one
        intro hsame
        have hcount := congrArg characterCount (append_cancel_left hsame)
        rw [characterCount_append, characterCount_append, characterCount_replacements,
          characterCount_character hu] at hcount
        have hle := hcut.count.1
        omega

/-- Chunks of an encoded text, each decoded on its own: what is received is the text with some characters cut, and it
is the text itself exactly when every chunk is well-formed. -/
theorem chunks_received (htext : Whole text) (hchunks : chunks.flatten = encode text) :
    Cut text (chunks.flatMap decode) ∧ (chunks.flatMap decode = text ↔ ∀ chunk ∈ chunks, Valid chunk) := by
  obtain ⟨t, hcut, hdecode, hvalid⟩ := decode_chunks (r := []) (fun x hx => absurd hx not_mem_nil) htext hchunks
  have hreceived : chunks.flatMap decode = t := hdecode
  refine ⟨hreceived ▸ hcut, fun hsame => hvalid (hreceived.symm.trans hsame) rfl, fun hall => ?_⟩
  have hwhole := decode_encode htext
  rwa [← hchunks, decode_flatten hall] at hwhole

end Utf8
