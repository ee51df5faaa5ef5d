import Mathlib

/-!
# Questions on the wire

The part of the DNS message format that a responder without compression reads: a question is a sequence of labels, each
behind its length, a zero byte, a type and a class. `readLabels` is the loop that both responders run from the start of
the question section, and `readQuestion` what they take from it. A question is read exactly where one is written
(`readQuestion_eq_some_iff`), so the first question of a packet is determined by its bytes.
-/

namespace Dns
open List UInt8

abbrev Bytes := List UInt8

def u16 (n : Nat) : Bytes := [.ofNat (n / 256), .ofNat n]

/-- `packet.readUInt16BE` -/
def readU16 (high low : UInt8) : Nat := high.toNat * 256 + low.toNat

/-- The lengths that are no compression pointers. -/
def IsLabel (label : Bytes) : Prop := 0 < label.length ∧ label.length < 64

@[ext]
structure Question where
  labels : List Bytes
  type : Nat
  klass : Nat
  labelled : ∀ label ∈ labels, IsLabel label
  type_lt : type < 65536
  klass_lt : klass < 65536

def labelsBytes (labels : List Bytes) : Bytes := labels.flatMap fun label => .ofNat label.length :: label

def Question.bytes (question : Question) : Bytes :=
  labelsBytes question.labels ++ 0 :: (u16 question.type ++ u16 question.klass)

/-- The loop over the labels, on the bytes from the cursor on: the labels, and what is behind the zero byte. A packet
may end before that byte. -/
def readLabels : Nat → Bytes → Option (List Bytes × Bytes)
  | 0, _ => none
  | _ + 1, [] => some ([], [])
  | fuel + 1, length :: rest =>
    if length = 0 then some ([], rest)
    else if length &&& 0xc0 ≠ 0 ∨ rest.length < length.toNat then none
    else (readLabels fuel (rest.drop length.toNat)).map fun read => (rest.take length.toNat :: read.1, read.2)

/-! ## Numbers -/

lemma readU16_lt (high low : UInt8) : readU16 high low < 65536 := by
  have hhigh := high.toNat_lt
  have hlow := low.toNat_lt
  unfold readU16
  omega

lemma u16_readU16 (high low : UInt8) : u16 (readU16 high low) = [high, low] := by
  have hlow := low.toNat_lt
  have hdiv : (high.toNat * 256 + low.toNat) / 256 = high.toNat := by omega
  have hlast : UInt8.ofNat (high.toNat * 256 + low.toNat) = low := by
    rw [← UInt8.toNat_inj, UInt8.toNat_ofNat']
    omega
  rw [u16, readU16, hdiv, hlast, UInt8.ofNat_toNat]

lemma readU16_u16 {n : Nat} (hn : n < 65536) : readU16 (.ofNat (n / 256)) (.ofNat n) = n := by
  rw [readU16, toNat_ofNat', toNat_ofNat']
  omega

/-! ## Labels -/

lemma isPointer_iff (length : UInt8) : length &&& 0xc0 ≠ 0 ↔ 64 ≤ length.toNat := by
  have hall : ∀ n : Fin 256, (UInt8.ofNat n.val &&& 0xc0 ≠ 0) ↔ 64 ≤ n.val := by decide +kernel
  have h := hall ⟨length.toNat, length.toNat_lt⟩
  rwa [UInt8.ofNat_toNat] at h

lemma labelsBytes_cons (label : Bytes) (labels : List Bytes) :
    labelsBytes (label :: labels) = .ofNat label.length :: (label ++ labelsBytes labels) := rfl

lemma toNat_length {label : Bytes} (h : IsLabel label) : (ofNat label.length).toNat = label.length := by
  have hlt := h.2
  rw [toNat_ofNat']
  omega

variable {labels : List Bytes} {fuel : Nat} {rest : Bytes}

lemma readLabels_labelsBytes (hlabels : ∀ label ∈ labels, IsLabel label) (rest : Bytes)
    (hfuel : (labelsBytes labels ++ 0 :: rest).length ≤ fuel) :
    readLabels fuel (labelsBytes labels ++ 0 :: rest) = some (labels, rest) := by
  induction labels generalizing fuel with
  | nil =>
    cases fuel with
    | zero => cases hfuel
    | succ fuel => exact if_pos rfl
  | cons label labels ih =>
    obtain ⟨hlabel, hlabels⟩ := forall_mem_cons.mp hlabels
    have hlength := toNat_length hlabel
    cases fuel with
    | zero => cases hfuel
    | succ fuel =>
      have hzero : ofNat label.length ≠ 0 := by
        intro heq
        rw [heq] at hlength
        exact absurd hlabel.1 (by rw [← hlength]; decide)
      have hread : ¬ (ofNat label.length &&& 0xc0 ≠ 0 ∨
          (label ++ (labelsBytes labels ++ 0 :: rest)).length < (ofNat label.length).toNat) := by
        rw [isPointer_iff, hlength, length_append]
        have := hlabel.2
        omega
      rw [labelsBytes_cons, cons_append, append_assoc, length_cons, length_append] at hfuel
      rw [labelsBytes_cons, cons_append, append_assoc, readLabels, if_neg hzero, if_neg hread, hlength,
        drop_left, take_left, ih hlabels (by omega)]
      rfl

lemma labelsBytes_of_readLabels {bytes : Bytes} (h : readLabels fuel bytes = some (labels, rest)) :
    (∀ label ∈ labels, IsLabel label) ∧
      (bytes = labelsBytes labels ++ 0 :: rest ∨ (rest = [] ∧ bytes = labelsBytes labels)) := by
  induction fuel generalizing bytes labels with
  | zero => cases h
  | succ fuel ih =>
    cases bytes with
    | nil =>
      cases h
      exact ⟨fun _ hlabel => absurd hlabel not_mem_nil, .inr ⟨rfl, rfl⟩⟩
    | cons length bytes =>
      rw [readLabels] at h
      split_ifs at h with hzero hrefused
      · cases h
        subst hzero
        exact ⟨fun _ hlabel => absurd hlabel not_mem_nil, .inl rfl⟩
      obtain ⟨⟨labels', rest'⟩, hread, heq⟩ := Option.map_eq_some_iff.mp h
      cases heq
      rw [isPointer_iff, not_or] at hrefused
      have hpositive : 0 < length.toNat := by
        refine pos_of_ne_zero fun heq => hzero ?_
        rw [← UInt8.toNat_inj]
        exact heq
      have htake : (bytes.take length.toNat).length = length.toNat := length_take_of_le (by omega)
      have hlabel : IsLabel (bytes.take length.toNat) := ⟨by omega, by omega⟩
      have hwritten : labelsBytes (bytes.take length.toNat :: labels') =
          length :: (bytes.take length.toNat ++ labelsBytes labels') := by
        rw [labelsBytes_cons, htake, UInt8.ofNat_toNat]
      obtain ⟨hlabels, hbytes⟩ := ih hread
      refine ⟨forall_mem_cons.mpr ⟨hlabel, hlabels⟩, ?_⟩
      rw [hwritten]
      rcases hbytes with hbytes | ⟨hrest, hbytes⟩
      · refine .inl ?_
        rw [cons_append, append_assoc, ← hbytes, take_append_drop]
      · refine .inr ⟨hrest, ?_⟩
        rw [← hbytes, take_append_drop]

/-! ## Questions -/

/-- The question at the start of some bytes, and what is behind it. -/
def readQuestion (bytes : Bytes) : Option (Question × Bytes) :=
  match h : readLabels (bytes.length + 1) bytes with
  | some (labels, typeHigh :: typeLow :: classHigh :: classLow :: rest) =>
    some (⟨labels, readU16 typeHigh typeLow, readU16 classHigh classLow, (labelsBytes_of_readLabels h).1,
      readU16_lt _ _, readU16_lt _ _⟩, rest)
  | _ => none

lemma Question.bytes_append (question : Question) (rest : Bytes) :
    question.bytes ++ rest =
      labelsBytes question.labels ++ 0 :: (u16 question.type ++ (u16 question.klass ++ rest)) := by
  rw [Question.bytes, append_assoc, cons_append, append_assoc]

lemma readLabels_bytes (question : Question) (rest : Bytes) :
    readLabels ((question.bytes ++ rest).length + 1) (question.bytes ++ rest) =
      some (question.labels, u16 question.type ++ (u16 question.klass ++ rest)) := by
  rw [question.bytes_append]
  exact readLabels_labelsBytes question.labelled _ (Nat.le_succ _)

lemma readQuestion_eq_some_iff {bytes : Bytes} {question : Question} :
    readQuestion bytes = some (question, rest) ↔ bytes = question.bytes ++ rest := by
  constructor
  · intro h
    unfold readQuestion at h
    split at h
    next labels typeHigh typeLow classHigh classLow rest' hread =>
      cases h
      rcases (labelsBytes_of_readLabels hread).2 with hbytes | ⟨hrest, -⟩
      · refine hbytes.trans ?_
        rw [Question.bytes_append, u16_readU16, u16_readU16]
        rfl
      · cases hrest
    next => cases h
  · rintro rfl
    have hread := readLabels_bytes question rest
    unfold readQuestion
    split
    next labels typeHigh typeLow classHigh classLow rest' hread' =>
      obtain ⟨rfl, hnumbers⟩ := Prod.mk.inj (Option.mem_unique hread' hread)
      simp only [u16, cons_append, nil_append, List.cons.injEq] at hnumbers
      obtain ⟨rfl, rfl, rfl, rfl, rfl⟩ := hnumbers
      simp only [readU16_u16 question.type_lt, readU16_u16 question.klass_lt]
    next hnone => exact absurd hread (hnone _ _ _ _ _ _)

lemma exists_question_of_readLabels {bytes : Bytes} {typeHigh typeLow classHigh classLow : UInt8}
    (h : readLabels (bytes.length + 1) bytes = some (labels, typeHigh :: typeLow :: classHigh :: classLow :: rest)) :
    ∃ question, readQuestion bytes = some (question, rest) := by
  obtain ⟨hlabels, hbytes | ⟨hrest, -⟩⟩ := labelsBytes_of_readLabels h
  · refine ⟨⟨labels, readU16 typeHigh typeLow, readU16 classHigh classLow, hlabels, readU16_lt _ _, readU16_lt _ _⟩, ?_⟩
    rw [readQuestion_eq_some_iff, Question.bytes_append, u16_readU16, u16_readU16]
    exact hbytes
  · cases hrest

end Dns
