import PortManager.Native.DnsDocument

/-!
# The shared document's terminator

`pm_dns_document_authorizes` is handed a NUL-terminated text and nothing that says how large the
memory object behind it is, so its verdict is sound only if the cursor stays in front of the
terminator. Every advance of the cursor is made over a byte that was compared with something other
than NUL, with one exception: the byte after a backslash is skipped before it is compared, and the
comparison is a `strchr` that also finds NUL.

The guarded scanner stops at exactly that byte. Function by function, the daemon's scanner on
`text ++ 0 :: tail` agrees with the guarded one on `text ++ [0]`, and the guarded scanner finishes;
so the verdict depends on `text` alone unless the guarded scan is cut.
-/

namespace PortManager.Native
open CText Cursor List
open JsonText (StringPlace)

/-! ## The guarded scanner -/

section Follows
variable {tail r : Text} {n : Nat} (hr : 0 ∉ r)
include hr

lemma dnsJsonSpace_follows : Follows tail (r.length + 1) (dnsJsonSpace (r ++ [0])) (dnsJsonSpace (r ++ 0 :: tail)) :=
  skipWhile_follows hr (by decide)

lemma dnsJsonExpect_follows {c : UInt8} (hc : c ≠ 0) :
    Follows tail r.length (dnsJsonExpect c (r ++ [0])) (dnsJsonExpect c (r ++ 0 :: tail)) := by
  have hnul : ((0 : UInt8) == c) = false := beq_false_of_ne (Ne.symm hc)
  exact (expect_follows hr hnul).bind fun _ r hr hlt => .ok () r hr hlt

/-- The one place where the scanners differ is a backslash before the terminator. -/
lemma dnsJsonStringLoop_follows (at' : StringPlace) (out : Text) :
    Follows tail r.length (dnsJsonStringLoop true at' (r ++ [0]) out)
      (dnsJsonStringLoop false at' (r ++ 0 :: tail) out) := by
  induction r generalizing at' out with
  | nil =>
    cases at' with
    | plain => exact .refuse
    | escape => exact .cut fun e => by rw [e]; rfl
    | hex left => exact .refuse
  | cons c r ih =>
    obtain ⟨hc, hr⟩ := ne_and_not_mem_of_not_mem_cons hr
    have hrest := fun at' out => (ih hr at' out).mono (Nat.le_succ _)
    cases at' with
    | plain =>
      simp only [cons_append, dnsJsonStringLoop]
      split; · exact .refuse
      split; · exact .ok out r hr (Nat.lt_succ_self _)
      split; · exact .refuse
      split; · exact hrest _ _
      exact hrest _ _
    | escape =>
      have hnul : (c == 0) = false := beq_false_of_ne (Ne.symm hc)
      simp only [cons_append, dnsJsonStringLoop, hnul, Bool.and_false, Bool.false_eq_true, if_false]
      split; · exact hrest _ _
      split; · exact hrest _ _
      exact .refuse
    | hex left =>
      simp only [cons_append, dnsJsonStringLoop]
      split
      · exact hrest _ _
      · exact .refuse

lemma dnsJsonString_follows (size : Option Nat) :
    Follows tail r.length (dnsJsonString true size (r ++ [0])) (dnsJsonString false size (r ++ 0 :: tail)) := by
  refine (dnsJsonExpect_follows hr (by decide)).bind fun _ r hr hlt => ?_
  refine ((dnsJsonStringLoop_follows hr .plain []).mono (le_of_lt hlt)).bind fun out r hr hlt => ?_
  split
  · exact .refuse
  · exact .ok _ r hr hlt

lemma dnsJsonDigits_follows : Follows tail r.length (dnsJsonDigits (r ++ [0])) (dnsJsonDigits (r ++ 0 :: tail)) :=
  (expect_follows hr (by decide)).bind fun _ _ hr hlt => (skipWhile_follows hr (by decide)).mono hlt

lemma dnsJsonExponent_follows :
    Follows tail (r.length + 1) (dnsJsonExponent (r ++ [0])) (dnsJsonExponent (r ++ 0 :: tail)) := by
  refine peek_bind_follows (fun c r' e => ?_) (fun _ => .ok () [] not_mem_nil (Nat.succ_pos _))
  subst e
  have hr' := (ne_and_not_mem_of_not_mem_cons hr).2
  split
  · refine peek_bind_follows (fun c r'' e => ?_) (fun _ => .refuse)
    subst e
    split
    · exact (dnsJsonDigits_follows (ne_and_not_mem_of_not_mem_cons hr').2).mono (by simp only [length_cons]; omega)
    · exact (dnsJsonDigits_follows hr').mono (by simp only [length_cons]; omega)
  · exact .ok () _ hr (Nat.lt_succ_self _)

lemma dnsJsonFraction_follows :
    Follows tail (r.length + 1) (dnsJsonFraction (r ++ [0])) (dnsJsonFraction (r ++ 0 :: tail)) := by
  refine peek_bind_follows (fun c r' e => ?_) (fun _ => .ok () [] not_mem_nil (Nat.succ_pos _))
  subst e
  split
  · exact (dnsJsonDigits_follows (ne_and_not_mem_of_not_mem_cons hr).2).mono (by simp only [length_cons]; omega)
  · exact .ok () _ hr (Nat.lt_succ_self _)

lemma dnsJsonInteger_follows : Follows tail r.length (dnsJsonInteger (r ++ [0])) (dnsJsonInteger (r ++ 0 :: tail)) := by
  refine (expect_follows hr (by decide)).bind fun c r hr hlt => ?_
  split
  · exact .ok () r hr hlt
  · exact (skipWhile_follows hr (by decide)).mono hlt

lemma dnsJsonNumber_follows : Follows tail r.length (dnsJsonNumber (r ++ [0])) (dnsJsonNumber (r ++ 0 :: tail)) := by
  refine peek_bind_follows (fun c r' e => ?_) (fun _ => .refuse)
  subst e
  refine Follows.bind (n := (c :: r').length) ?_ fun _ r hr hlt =>
    (dnsJsonFraction_follows hr).bind fun _ r hr hlt' => (dnsJsonExponent_follows hr).mono (le_trans hlt' hlt)
  split
  · exact (dnsJsonInteger_follows (ne_and_not_mem_of_not_mem_cons hr).2).mono (Nat.le_succ _)
  · exact dnsJsonInteger_follows hr

lemma dnsJsonScalar_follows : Follows tail r.length (dnsJsonScalar (r ++ [0])) (dnsJsonScalar (r ++ 0 :: tail)) := by
  refine tryWord_bind_follows hr (by decide) (by decide) (.ok ()) ?_
  refine tryWord_bind_follows hr (by decide) (by decide) (.ok ()) ?_
  exact tryWord_bind_follows hr (by decide) (by decide) (.ok ()) (dnsJsonNumber_follows hr)

lemma dnsJsonName_follows :
    Follows tail r.length (dnsJsonName true (r ++ [0])) (dnsJsonName false (r ++ 0 :: tail)) :=
  (dnsJsonString_follows hr _).bind fun key _ hr hlt =>
    (dnsJsonSpace_follows hr).bind fun _ _ hr hlt₁ =>
      (dnsJsonExpect_follows hr (by decide)).bind fun _ _ hr hlt₂ =>
        (dnsJsonSpace_follows hr).bind fun _ r hr hlt₃ => .ok key r hr (by omega)

lemma dnsJsonNext_follows {α : Type} {close : UInt8} (hclose : close ≠ 0) (hn : r.length < n) (finished : α)
    {f g : Text → Scan α}
    (hagain : ∀ rest, 0 ∉ rest → rest.length < r.length → Follows tail n (f (rest ++ [0])) (g (rest ++ 0 :: tail))) :
    Follows tail n (dnsJsonNext close finished f (r ++ [0])) (dnsJsonNext close finished g (r ++ 0 :: tail)) := by
  refine (dnsJsonSpace_follows hr).bind fun _ r₁ hr hlt₁ => peek_bind_follows (fun c r' e => ?_) fun _ => ?_
  · subst e
    rw [length_cons] at hlt₁
    split
    · exact .ok finished r' (ne_and_not_mem_of_not_mem_cons hr).2 (by omega)
    · exact (dnsJsonExpect_follows hr (by decide)).bind fun _ r hr hlt₂ =>
        (dnsJsonSpace_follows hr).bind fun _ rest hr hlt₃ => hagain rest hr (by rw [length_cons] at hlt₂; omega)
  · rw [if_neg (Ne.symm hclose), if_neg (Ne.symm hclose)]
    exact .refuse

lemma dnsJsonOpen_follows {opening closing : UInt8} (hopening : opening ≠ 0) (hclosing : closing ≠ 0)
    (hn : r.length ≤ n) {f g : Text → Scan Unit}
    (hloop : ∀ rest, 0 ∉ rest → rest.length < r.length → Follows tail n (f (rest ++ [0])) (g (rest ++ 0 :: tail))) :
    Follows tail n (dnsJsonOpen opening closing f (r ++ [0])) (dnsJsonOpen opening closing g (r ++ 0 :: tail)) := by
  refine (dnsJsonExpect_follows hr hopening).bind fun _ r₁ hr hlt₁ =>
    (dnsJsonSpace_follows hr).bind fun _ r₂ hr hlt₂ => peek_bind_follows (fun c r' e => ?_) fun e => ?_
  · subst e
    split
    · exact .ok () r' (ne_and_not_mem_of_not_mem_cons hr).2 (by rw [length_cons] at hlt₂; omega)
    · exact hloop _ hr (by omega)
  · subst e
    rw [if_neg (Ne.symm hclosing), if_neg (Ne.symm hclosing)]
    exact hloop [] hr (by omega)

lemma dnsJsonValueWith_follows {elements members elements' members' : Text → Scan Unit}
    (helements : ∀ rest, 0 ∉ rest → rest.length < r.length →
      Follows tail r.length (elements (rest ++ [0])) (elements' (rest ++ 0 :: tail)))
    (hmembers : ∀ rest, 0 ∉ rest → rest.length < r.length →
      Follows tail r.length (members (rest ++ [0])) (members' (rest ++ 0 :: tail))) :
    Follows tail r.length (dnsJsonValueWith true elements members (r ++ [0]))
      (dnsJsonValueWith false elements' members' (r ++ 0 :: tail)) := by
  refine (dnsJsonSpace_follows hr).bind fun _ r₁ hr hlt => peek_bind_follows (fun c r' e => ?_) fun _ => .refuse
  subst e
  have hle := Nat.le_of_lt_succ hlt
  split
  · exact ((dnsJsonString_follows hr none).mono hle).bind fun _ r hr hlt => .ok () r hr hlt
  split
  · exact dnsJsonOpen_follows hr (by decide) (by decide) hle fun rest hr hlt => hmembers rest hr (by omega)
  split
  · exact dnsJsonOpen_follows hr (by decide) (by decide) hle fun rest hr hlt => helements rest hr (by omega)
  · exact (dnsJsonScalar_follows hr).mono hle

end Follows

/-- A unit of fuel for each byte of the text and one more are enough: every element and every member
starts with a byte of its own. The daemon's scanner has at least the fuel of the guarded one. -/
lemma dnsJsonLoops_follow {tail : Text} (n : Nat) :
    ∀ m, n ≤ m → ∀ r, 0 ∉ r → r.length < n →
      Follows tail r.length (dnsJsonElements true n (r ++ [0])) (dnsJsonElements false m (r ++ 0 :: tail)) ∧
      Follows tail r.length (dnsJsonMembers true n (r ++ [0])) (dnsJsonMembers false m (r ++ 0 :: tail)) := by
  induction n with
  | zero => exact fun _ _ _ _ hlt => absurd hlt (Nat.not_lt_zero _)
  | succ n ih =>
    intro m hle r hr hlt
    obtain ⟨m, rfl⟩ := Nat.exists_eq_succ_of_ne_zero (Nat.ne_zero_of_lt hle)
    have hrec := ih m (Nat.le_of_succ_le_succ hle)
    have hvalue : ∀ r', 0 ∉ r' → r'.length ≤ r.length → Follows tail r'.length
        (dnsJsonValueWith true (dnsJsonElements true n) (dnsJsonMembers true n) (r' ++ [0]))
        (dnsJsonValueWith false (dnsJsonElements false m) (dnsJsonMembers false m) (r' ++ 0 :: tail)) :=
      fun r' hr hle => dnsJsonValueWith_follows hr
        (fun rest hr hlt => (hrec rest hr (by omega)).1.mono (by omega))
        fun rest hr hlt => (hrec rest hr (by omega)).2.mono (by omega)
    refine ⟨?elements, ?members⟩
    case elements =>
      exact (hvalue r hr (le_refl _)).bind fun _ r₁ hr hlt₁ =>
        dnsJsonNext_follows hr (by decide) hlt₁ () fun rest hr hlt₂ => (hrec rest hr (by omega)).1.mono (by omega)
    case members =>
      exact (dnsJsonName_follows hr).bind fun _ r₁ hr hlt₁ =>
        (hvalue r₁ hr (by omega)).bind fun _ r₂ hr hlt₂ =>
          dnsJsonNext_follows hr (by decide) (by omega) () fun rest hr hlt₃ =>
            (hrec rest hr (by omega)).2.mono (by omega)

lemma spelledOne_append (tail r rest : Text) :
    spelledOne (r ++ 0 :: tail) (rest ++ 0 :: tail) ↔ spelledOne (r ++ [0]) (rest ++ [0]) := by
  refine and_congr ?_ ?_
  · simp only [length_append, length_cons, length_nil]
    omega
  · cases r <;> rfl

section Document
variable {tail r : Text} {n m : Nat} (hr : 0 ∉ r)
include hr

lemma dnsDocumentEnd_follows (seen : DocumentSeen) :
    Follows tail (r.length + 1) (dnsDocumentEnd seen (r ++ [0])) (dnsDocumentEnd seen (r ++ 0 :: tail)) := by
  refine (dnsJsonSpace_follows hr).bind fun _ r hr hlt =>
    peek_bind_follows (fun c r' e => ?_) fun _ => .ok seen [] not_mem_nil (Nat.succ_pos _)
  subst e
  have hc := (ne_and_not_mem_of_not_mem_cons hr).1
  rw [if_neg (Ne.symm hc), if_neg (Ne.symm hc)]
  exact .refuse

variable (hle : n ≤ m)
include hle

section Values
variable (hlen : r.length ≤ n)
include hlen

lemma dnsJsonValue_follows :
    Follows tail r.length (dnsJsonValue true n (r ++ [0])) (dnsJsonValue false m (r ++ 0 :: tail)) :=
  dnsJsonValueWith_follows hr
    (fun rest hr hrest => (dnsJsonLoops_follow n m hle rest hr (by omega)).1.mono (by omega))
    fun rest hr hrest => (dnsJsonLoops_follow n m hle rest hr (by omega)).2.mono (by omega)

lemma dnsJsonArray_follows :
    Follows tail r.length (dnsJsonArray true n (r ++ [0])) (dnsJsonArray false m (r ++ 0 :: tail)) :=
  dnsJsonOpen_follows hr (by decide) (by decide) (le_refl _) fun rest hr hrest =>
    (dnsJsonLoops_follow n m hle rest hr (by omega)).1.mono (by omega)

lemma dnsJsonRegistryArray_follows (seen : RegistryArrays) (name : RegistryArray) :
    Follows tail r.length (dnsJsonRegistryArray true n seen name (r ++ [0]))
      (dnsJsonRegistryArray false m seen name (r ++ 0 :: tail)) := by
  unfold dnsJsonRegistryArray
  split
  · exact .refuse
  · exact (dnsJsonArray_follows hr hle hlen).bind fun _ r hr hlt => .ok _ r hr hlt

lemma dnsJsonValue_keep_follows {α : Type} (seen : α) :
    Follows tail r.length ((dnsJsonValue true n (r ++ [0])).bind fun _ mem => .ok seen mem)
      ((dnsJsonValue false m (r ++ 0 :: tail)).bind fun _ mem => .ok seen mem) :=
  (dnsJsonValue_follows hr hle hlen).bind fun _ r hr hlt => .ok seen r hr hlt

lemma dnsJsonStateMember_follows (seen : RegistryArrays) (key : Text) :
    Follows tail r.length (dnsJsonStateMember true n seen key (r ++ [0]))
      (dnsJsonStateMember false m seen key (r ++ 0 :: tail)) := by
  unfold dnsJsonStateMember
  split
  · exact dnsJsonRegistryArray_follows hr hle hlen seen _
  · exact dnsJsonValue_keep_follows hr hle hlen seen

end Values

variable (hlt : r.length < n)
include hlt

lemma dnsJsonStateLoop_follows (seen : RegistryArrays) :
    Follows tail r.length (dnsJsonStateLoop true n seen (r ++ [0]))
      (dnsJsonStateLoop false m seen (r ++ 0 :: tail)) := by
  induction n generalizing m r seen with
  | zero => cases hlt
  | succ n ih =>
    obtain ⟨m, rfl⟩ := Nat.exists_eq_succ_of_ne_zero (Nat.ne_zero_of_lt hle)
    have hle := Nat.le_of_succ_le_succ hle
    exact (dnsJsonName_follows hr).bind fun key r hr hlt₁ =>
      (dnsJsonStateMember_follows hr hle (by omega) seen key).bind fun seen r hr hlt₂ =>
        dnsJsonNext_follows hr (by decide) (by omega) seen fun r hr hlt₃ =>
          (ih hr hle (by omega) seen).mono (by omega)

lemma dnsJsonState_follows :
    Follows tail r.length (dnsJsonState true n (r ++ [0])) (dnsJsonState false m (r ++ 0 :: tail)) := by
  refine (dnsJsonExpect_follows hr (by decide)).bind fun _ r₁ hr hlt₁ =>
    (dnsJsonSpace_follows hr).bind fun _ r₂ hr hlt₂ => ?_
  have hloop : Follows tail r.length
      ((dnsJsonStateLoop true n .none (r₂ ++ [0])).bind fun seen mem => if seen.all then .ok () mem else .refuse)
      ((dnsJsonStateLoop false m .none (r₂ ++ 0 :: tail)).bind fun seen mem =>
        if seen.all then .ok () mem else .refuse) := by
    refine (dnsJsonStateLoop_follows hr hle (by omega) _).bind fun seen r hr hlt₃ => ?_
    split
    · exact .ok () r hr (by omega)
    · exact .refuse
  refine peek_bind_follows (fun c r' e => ?byte) fun e => ?terminator
  case byte =>
    subst e
    split
    · exact .refuse
    · exact hloop
  case terminator =>
    subst e
    exact hloop

lemma dnsDocumentMember_follows (seen : DocumentSeen) (key : Text) :
    Follows tail r.length (dnsDocumentMember true n seen key (r ++ [0]))
      (dnsDocumentMember false m seen key (r ++ 0 :: tail)) := by
  have hlen := le_of_lt hlt
  unfold dnsDocumentMember
  split
  · split
    · exact .refuse
    refine (dnsJsonValue_follows hr hle hlen).bind fun _ r' hr' hrest => ?_
    have hspelled := spelledOne_append tail r r'
    rw [if_congr hspelled rfl rfl]
    split
    · exact .ok _ r' hr' hrest
    · exact .refuse
  split
  · split
    · exact .refuse
    · exact (dnsJsonString_follows hr _).bind fun _ r hr hlt => .ok _ r hr hlt
  split
  · split
    · exact .refuse
    · exact (dnsJsonState_follows hr hle hlt).bind fun _ r hr hlt => .ok _ r hr hlt
  split
  · exact (dnsJsonRegistryArray_follows hr hle hlen _ _).bind fun _ r hr hlt => .ok _ r hr hlt
  · exact dnsJsonValue_keep_follows hr hle hlen seen

lemma dnsDocumentLoop_follows (seen : DocumentSeen) :
    Follows tail r.length (dnsDocumentLoop true n seen (r ++ [0]))
      (dnsDocumentLoop false m seen (r ++ 0 :: tail)) := by
  induction n generalizing m r seen with
  | zero => cases hlt
  | succ n ih =>
    obtain ⟨m, rfl⟩ := Nat.exists_eq_succ_of_ne_zero (Nat.ne_zero_of_lt hle)
    have hle := Nat.le_of_succ_le_succ hle
    exact (dnsJsonName_follows hr).bind fun key r hr hlt₁ =>
      (dnsDocumentMember_follows hr hle (by omega) seen key).bind fun seen r hr hlt₂ =>
        dnsJsonNext_follows hr (by decide) (by omega) seen fun r hr hlt₃ =>
          (ih hr hle (by omega) seen).mono (by omega)

lemma dnsDocumentScan_follows :
    Follows tail r.length (dnsDocumentScan true n (r ++ [0])) (dnsDocumentScan false m (r ++ 0 :: tail)) := by
  refine (dnsJsonSpace_follows hr).bind fun _ r₁ hr hlt₁ =>
    (dnsJsonExpect_follows hr (by decide)).bind fun _ r₂ hr hlt₂ =>
      (dnsJsonSpace_follows hr).bind fun _ r₃ hr hlt₃ => ?_
  have hloop : Follows tail r.length ((dnsDocumentLoop true n .none (r₃ ++ [0])).bind dnsDocumentEnd)
      ((dnsDocumentLoop false m .none (r₃ ++ 0 :: tail)).bind dnsDocumentEnd) :=
    (dnsDocumentLoop_follows hr hle (by omega) _).bind fun seen r hr hlt₄ =>
      (dnsDocumentEnd_follows hr seen).mono (by omega)
  refine peek_bind_follows (fun c r' e => ?byte) fun e => ?terminator
  case byte =>
    subst e
    split
    · exact .refuse
    · exact hloop
  case terminator =>
    subst e
    exact hloop

end Document

/-! ## The verdict -/

variable {text : Text}

lemma dnsDocumentScan_text_follows (htext : 0 ∉ text) (tail : Text) :
    Follows tail text.length (dnsDocumentScan true (documentFuel (text ++ [0])) (text ++ [0]))
      (dnsDocumentScan false (documentFuel (text ++ 0 :: tail)) (text ++ 0 :: tail)) := by
  refine dnsDocumentScan_follows htext ?_ ?_
  · simp only [documentFuel, length_append, length_cons, length_nil]
    omega
  · simp only [documentFuel, length_append, length_cons, length_nil]
    omega

lemma dnsDocumentAuthorizes_of_not_cut (htext : 0 ∉ text) (hcut : documentCut text = false) (revision : Text) :
    ∃ verdict, ∀ tail, dnsDocumentAuthorizes (text ++ 0 :: tail) revision = some verdict := by
  have hagrees := fun tail => (dnsDocumentScan_text_follows htext tail).1
  have hfinishes := (dnsDocumentScan_text_follows htext []).2
  unfold documentCut at hcut
  generalize dnsDocumentScan true (documentFuel (text ++ [0])) (text ++ [0]) = scan at *
  cases scan with
  | ok seen rest =>
    refine ⟨documentVerdict seen revision, fun tail => ?_⟩
    obtain ⟨rest', hscan⟩ := (hagrees tail).of_ok
    rw [dnsDocumentAuthorizes, hscan]
    rfl
  | refuse =>
    refine ⟨false, fun tail => ?_⟩
    rw [dnsDocumentAuthorizes, (hagrees tail).of_refuse]
    rfl
  | overrun => cases hagrees []
  | cut => cases hcut
  | unfinished => exact hfinishes.elim

lemma dnsDocumentAuthorizes_of_cut (htext : 0 ∉ text) (hcut : documentCut text = true)
    (revision : Text) : dnsDocumentAuthorizes (text ++ [0]) revision = none := by
  have hagrees := (dnsDocumentScan_text_follows htext []).1
  unfold documentCut at hcut
  generalize dnsDocumentScan true (documentFuel (text ++ [0])) (text ++ [0]) = scan at *
  cases scan with
  | cut =>
    rw [dnsDocumentAuthorizes, hagrees.of_cut]
    rfl
  | _ => cases hcut

/-- The verdict is a function of the document's own bytes exactly for the documents whose scan does not
end behind a backslash: whatever the object holds after the terminator, nothing of it is read. -/
theorem dnsDocumentAuthorizes_reads_text_iff (text revision : Text) (htext : 0 ∉ text) :
    (∃ verdict, ∀ tail, dnsDocumentAuthorizes (text ++ 0 :: tail) revision = some verdict) ↔
      documentCut text = false := by
  refine ⟨fun ⟨verdict, hverdict⟩ => ?_, fun hcut => dnsDocumentAuthorizes_of_not_cut htext hcut revision⟩
  cases hcut : documentCut text with
  | false => rfl
  | true =>
    have hnone := hverdict []
    rw [dnsDocumentAuthorizes_of_cut htext hcut] at hnone
    cases hnone

/-- A raw state whose last member ends behind a backslash. -/
def cutDocument : Text :=
  ascii "\x7b\"networks\":[],\"attachments\":[],\"exposures\":[],\"x\":\"\\"

theorem dnsDocumentAuthorizes_reads_emptyRegistry :
    0 ∉ ascii "\x7b\"networks\":[],\"attachments\":[],\"exposures\":[]\x7d" ∧
      ∃ verdict, ∀ tail, dnsDocumentAuthorizes
        (ascii "\x7b\"networks\":[],\"attachments\":[],\"exposures\":[]\x7d" ++ 0 :: tail)
        (ascii "legacy") = some verdict :=
  ⟨by decide, (dnsDocumentAuthorizes_reads_text_iff _ _ (by decide)).mpr (by decide +kernel)⟩

/-- What stands after the terminator decides: a quote and a brace there complete the document. -/
theorem dnsDocumentAuthorizes_reads_past_terminator :
    0 ∉ cutDocument ∧
      dnsDocumentAuthorizes (cutDocument ++ 0 :: ascii "\"\x7d" ++ [0]) (ascii "legacy") = some true ∧
      dnsDocumentAuthorizes (cutDocument ++ [0, 0]) (ascii "legacy") = some false ∧
      dnsDocumentAuthorizes (cutDocument ++ [0]) (ascii "legacy") = none := by
  refine ⟨by decide, ?_, ?_, ?_⟩ <;> decide +kernel

end PortManager.Native
