import PortManager.Base.CText

/-!
# Cursors over a NUL-terminated object

A C scanner that walks a text with `*cursor->p` and `cursor->p++` reads a memory object: the bytes of
the text, the terminating NUL, and whatever the object holds behind it. The cursor is modelled by the
bytes from its position to the end of the object, so a read at the end of the list is a read outside
the object.

A scan ends with a value and a new position (`ok`), with the scanner's own refusal, with a read
outside the object (`overrun`), or without enough fuel. The outcome `cut` belongs to guarded scans,
which stop where an unguarded one would step over the terminator.

`Agrees tail` relates a guarded scan of `r ++ [0]` to an unguarded one of `r ++ 0 :: tail`: the two
walk the same bytes of `r`. `Finishes n` says that a scan does not run out of fuel and leaves fewer
than `n` bytes. `Follows` is both at once; it comes with a rule for `bind` and one lemma for each
primitive.
-/

namespace Cursor
open CText List

inductive Scan (α : Type) where
  | ok (value : α) (rest : Text)
  | refuse
  | overrun
  | cut
  | unfinished

def Scan.bind {α β : Type} (scan : Scan α) (next : α → Text → Scan β) : Scan β :=
  match scan with
  | .ok value rest => next value rest
  | .refuse => .refuse
  | .overrun => .overrun
  | .cut => .cut
  | .unfinished => .unfinished

/-! ## Primitives -/

/-- `*p` -/
def peek : Text → Scan UInt8
  | [] => .overrun
  | c :: rest => .ok c (c :: rest)

/-- `if (!accepts(*p++)) return -1;` -/
def expect (accepts : UInt8 → Bool) : Text → Scan UInt8
  | [] => .overrun
  | c :: rest => if accepts c then .ok c rest else .refuse

/-- `while (skips(*p)) p++;` -/
def skipWhile (skips : UInt8 → Bool) : Text → Scan Unit
  | [] => .overrun
  | c :: rest => if skips c then skipWhile skips rest else .ok () (c :: rest)

/-- Whether the object starts with a word; none when the comparison leaves the object. -/
def startsWith : Text → Text → Option Bool
  | [], _ => some true
  | _ :: _, [] => none
  | w :: word, c :: rest => if c = w then startsWith word rest else some false

/-- `if (strncmp(p, word, strlen(word)) == 0) p += strlen(word);` -/
def tryWord (word mem : Text) : Scan Bool :=
  match startsWith word mem with
  | none => .overrun
  | some false => .ok false mem
  | some true => .ok true (mem.drop word.length)

/-! ## Guarded and unguarded scans -/

/-- A guarded scan of a terminated text and an unguarded one of an object that starts with the same
text. They stand at the same byte of the text, or both refuse. Where the guarded scan is cut, the
unguarded one leaves the object if that ends with the terminator. -/
inductive Agrees {α : Type} (tail : Text) : Scan α → Scan α → Prop where
  | ok (value : α) (r : Text) : 0 ∉ r → Agrees tail (.ok value (r ++ [0])) (.ok value (r ++ 0 :: tail))
  | refuse : Agrees tail .refuse .refuse
  | cut {scan : Scan α} : (tail = [] → scan = .overrun) → Agrees tail .cut scan
  | unfinished (scan : Scan α) : Agrees tail .unfinished scan

variable {α : Type}

lemma Agrees.of_ok {tail rest : Text} {value : α} {b : Scan α}
    (h : Agrees tail (.ok value rest) b) : ∃ rest', b = .ok value rest' := by
  cases h with
  | ok _ r _ => exact ⟨_, rfl⟩

lemma Agrees.of_refuse {tail : Text} {b : Scan α} (h : Agrees tail .refuse b) : b = .refuse := by
  cases h with
  | refuse => rfl

lemma Agrees.of_cut {b : Scan α} (h : Agrees [] .cut b) : b = .overrun := by
  cases h with
  | cut hover => exact hover rfl

/-- The scan has not run out of fuel, and leaves fewer than `n` bytes. -/
def Finishes {α : Type} (n : Nat) : Scan α → Prop
  | .ok _ rest => rest.length < n
  | .unfinished => False
  | _ => True

/-- The scans agree, and the guarded one finishes with fewer than `n` bytes before the terminator. -/
def Follows (tail : Text) (n : Nat) (a b : Scan α) : Prop := Agrees tail a b ∧ Finishes (n + 1) a

section Follows
variable {tail r : Text} {n : Nat}

lemma Follows.ok (value : α) (r : Text) (hr : 0 ∉ r) (hlt : r.length < n) :
    Follows tail n (.ok value (r ++ [0])) (.ok value (r ++ 0 :: tail)) := by
  refine ⟨.ok value r hr, ?_⟩
  rw [Finishes, length_append]
  exact Nat.succ_lt_succ hlt

lemma Follows.refuse : Follows tail n (.refuse : Scan α) .refuse := ⟨.refuse, trivial⟩

lemma Follows.cut {scan : Scan α} (hover : tail = [] → scan = .overrun) : Follows tail n .cut scan :=
  ⟨.cut hover, trivial⟩

lemma Follows.mono {k : Nat} {a b : Scan α} (h : Follows tail n a b) (hle : n ≤ k) : Follows tail k a b := by
  obtain ⟨hagrees, hfinishes⟩ := h
  refine ⟨hagrees, ?_⟩
  cases a with
  | ok value rest => exact Nat.lt_of_lt_of_le hfinishes (Nat.succ_le_succ hle)
  | unfinished => exact hfinishes
  | _ => trivial

lemma Follows.bind {β : Type} {k : Nat} {a b : Scan α} {f g : α → Text → Scan β} (h : Follows tail n a b)
    (hnext : ∀ value r, 0 ∉ r → r.length < n →
      Follows tail k (f value (r ++ [0])) (g value (r ++ 0 :: tail))) :
    Follows tail k (a.bind f) (b.bind g) := by
  obtain ⟨hagrees, hfinishes⟩ := h
  cases hagrees with
  | ok value r hr =>
    rw [Finishes, length_append] at hfinishes
    exact hnext value r hr (Nat.lt_of_succ_lt_succ hfinishes)
  | refuse => exact .refuse
  | cut hover => exact .cut fun e => by rw [hover e]; rfl
  | unfinished scan => exact hfinishes.elim

lemma peek_bind_follows {f g : UInt8 → Text → Scan α}
    (hbyte : ∀ c r', r = c :: r' → Follows tail n (f c (c :: r' ++ [0])) (g c (c :: r' ++ 0 :: tail)))
    (hnul : r = [] → Follows tail n (f 0 [0]) (g 0 (0 :: tail))) :
    Follows tail n ((peek (r ++ [0])).bind f) ((peek (r ++ 0 :: tail)).bind g) := by
  cases r with
  | nil => exact hnul rfl
  | cons c r => exact hbyte c r rfl

variable (hr : 0 ∉ r)
include hr

lemma expect_follows {accepts : UInt8 → Bool} (hnul : accepts 0 = false) :
    Follows tail r.length (expect accepts (r ++ [0])) (expect accepts (r ++ 0 :: tail)) := by
  cases r with
  | nil =>
    simp only [nil_append, expect, hnul]
    exact .refuse
  | cons c r =>
    rw [mem_cons, not_or] at hr
    simp only [cons_append, expect]
    split
    · exact .ok c r hr.2 (Nat.lt_succ_self _)
    · exact .refuse

lemma skipWhile_follows {skips : UInt8 → Bool} (hnul : skips 0 = false) :
    Follows tail (r.length + 1) (skipWhile skips (r ++ [0])) (skipWhile skips (r ++ 0 :: tail)) := by
  induction r with
  | nil =>
    simp only [nil_append, skipWhile, hnul]
    exact .ok () [] not_mem_nil (Nat.lt_succ_self _)
  | cons c r ih =>
    have hr' := hr
    rw [mem_cons, not_or] at hr'
    simp only [cons_append, skipWhile]
    split
    · exact (ih hr'.2).mono (Nat.le_succ _)
    · exact .ok () (c :: r) hr (Nat.lt_succ_self _)

lemma startsWith_append {word : Text} (hword : 0 ∉ word) (rest : Text) :
    startsWith word (r ++ 0 :: rest) = some (word.isPrefixOf r) := by
  induction word generalizing r with
  | nil => rfl
  | cons w word ih =>
    rw [mem_cons, not_or] at hword
    cases r with
    | nil => simp [startsWith, hword.1]
    | cons c r =>
      rw [mem_cons, not_or] at hr
      simp only [cons_append, startsWith, List.isPrefixOf]
      split
      · next h => simp [h, ih hr.2 hword.2]
      · next h => simp [Ne.symm h]

lemma tryWord_bind_follows {word : Text} (hword : 0 ∉ word) (hpos : word ≠ []) {f g : Bool → Text → Scan α}
    (hfound : ∀ rest, 0 ∉ rest → rest.length < r.length →
      Follows tail n (f true (rest ++ [0])) (g true (rest ++ 0 :: tail)))
    (hmissed : Follows tail n (f false (r ++ [0])) (g false (r ++ 0 :: tail))) :
    Follows tail n ((tryWord word (r ++ [0])).bind f) ((tryWord word (r ++ 0 :: tail)).bind g) := by
  unfold tryWord
  rw [startsWith_append hr hword [], startsWith_append hr hword tail]
  cases h : word.isPrefixOf r with
  | false => exact hmissed
  | true =>
    obtain ⟨rest, rfl⟩ := isPrefixOf_iff_prefix.mp h
    rw [mem_append, not_or] at hr
    have hlt : rest.length < (word ++ rest).length := by
      rw [length_append]
      exact Nat.lt_add_of_pos_left (length_pos_iff.mpr hpos)
    simp only [append_assoc, drop_left]
    exact hfound rest hr.2 hlt

end Follows

/-! ## What a scan can return -/

/-- Every value the scan returns meets `P`. -/
def Yields {α : Type} (P : α → Prop) : Scan α → Prop
  | .ok value _ => P value
  | _ => True

lemma Yields.any (scan : Scan α) : Yields (fun _ => True) scan := by
  cases scan <;> trivial

lemma Yields.bind {α β : Type} {P : α → Prop} {Q : β → Prop} {a : Scan α} {f : α → Text → Scan β}
    (h : Yields P a) (hnext : ∀ value rest, P value → Yields Q (f value rest)) : Yields Q (a.bind f) := by
  cases a with
  | ok value rest => exact hnext value rest h
  | refuse => trivial
  | overrun => trivial
  | cut => trivial
  | unfinished => trivial

lemma Yields.after {α β : Type} {Q : β → Prop} {a : Scan α} {f : α → Text → Scan β}
    (hnext : ∀ value rest, Yields Q (f value rest)) : Yields Q (a.bind f) :=
  (Yields.any a).bind fun value rest _ => hnext value rest

end Cursor
