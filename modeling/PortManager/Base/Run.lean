import Mathlib

/-!
# Runs of an event-driven system

A system takes one event at a time: `step : σ → ε → σ`. A run folds `step` over a list of events.
The module has the rules the development uses for whole runs: an invariant that every step keeps
holds at the end of every run (`run_keeps`), one that every admissible step keeps holds at the end of
every run of admissible steps (`run_invariant`), and an invariant that a step keeps exactly when the step is admissible holds all along a run exactly when
every step of it is admissible (`forall_reached_iff`).
-/

namespace Run
open List

variable {σ ε : Type*} (step : σ → ε → σ)

def run (s : σ) (events : List ε) : σ := events.foldl step s

@[simp] lemma run_nil (s : σ) : run step s [] = s := rfl

@[simp] lemma run_cons (s : σ) (e : ε) (events : List ε) : run step s (e :: events) = run step (step s e) events := rfl

@[simp] lemma run_append (s : σ) (first second : List ε) :
    run step s (first ++ second) = run step (run step s first) second := foldl_append ..

/-- Every step of the run meets `P`, read in the state the step starts from. -/
def StepsMeet (P : σ → ε → Prop) : σ → List ε → Prop
  | _, [] => True
  | s, e :: events => P s e ∧ StepsMeet P (step s e) events

instance decidableStepsMeet (P : σ → ε → Prop) [∀ s e, Decidable (P s e)] :
    ∀ (s : σ) (events : List ε), Decidable (StepsMeet step P s events)
  | _, [] => .isTrue trivial
  | s, e :: events =>
    have := decidableStepsMeet P (step s e) events
    inferInstanceAs (Decidable (P s e ∧ StepsMeet step P (step s e) events))

variable {step} {P : σ → ε → Prop} {I : σ → Prop} {s : σ} {Q : σ → ε → Prop} {events : List ε}

lemma stepsMeet_append {first second : List ε} :
    StepsMeet step P s (first ++ second) ↔
      StepsMeet step P s first ∧ StepsMeet step P (run step s first) second := by
  induction first generalizing s with
  | nil => simp [StepsMeet]
  | cons e first ih => simp only [cons_append, StepsMeet, ih, run_cons, and_assoc]

lemma stepsMeet_and (hP : StepsMeet step P s events) (hQ : StepsMeet step Q s events) :
    StepsMeet step (fun s e => P s e ∧ Q s e) s events := by
  induction events generalizing s with
  | nil => trivial
  | cons e events ih => exact ⟨⟨hP.1, hQ.1⟩, ih hP.2 hQ.2⟩

lemma run_invariant (hstep : ∀ s e, I s → P s e → I (step s e)) (hs : I s)
    (hmeet : StepsMeet step P s events) : I (run step s events) := by
  induction events generalizing s with
  | nil => exact hs
  | cons e events ih => exact ih (hstep s e hs hmeet.1) hmeet.2

lemma run_keeps (hstep : ∀ s e, I s → I (step s e)) (hs : I s) (events : List ε) : I (run step s events) := by
  induction events generalizing s with
  | nil => exact hs
  | cons e events ih => exact ih (hstep s e hs)

/-- Where admissible steps keep an invariant `J` behind `I`, and a step from `J` that reaches `I` is
admissible, `I` holds in every state of a run exactly when all its steps are admissible. -/
lemma forall_reached_iff_of_invariant {J : σ → Prop} (hJ : ∀ s, J s → I s)
    (hstep : ∀ s e, J s → P s e → J (step s e)) (hneed : ∀ s e, J s → I (step s e) → P s e) (hs : J s) :
    (∀ done rest, events = done ++ rest → I (run step s done)) ↔ StepsMeet step P s events := by
  induction events generalizing s with
  | nil =>
    refine ⟨fun _ => trivial, fun _ done rest e => ?_⟩
    obtain ⟨rfl, -⟩ := append_eq_nil_iff.mp e.symm
    exact hJ s hs
  | cons e events ih =>
    constructor
    · intro h
      have hP : P s e := hneed s e hs (h [e] events rfl)
      exact ⟨hP, (ih (hstep s e hs hP)).mp fun done rest eq => h (e :: done) rest (by rw [eq]; rfl)⟩
    rintro ⟨hP, hmeet⟩ done rest eq
    cases done with
    | nil => exact hJ s hs
    | cons e' done =>
      obtain ⟨rfl, tail⟩ := List.cons.inj eq
      exact (ih (hstep s e hs hP)).mpr hmeet done rest tail

lemma forall_reached_iff (hstep : ∀ s e, I s → (I (step s e) ↔ P s e)) (hs : I s) :
    (∀ done rest, events = done ++ rest → I (run step s done)) ↔ StepsMeet step P s events :=
  forall_reached_iff_of_invariant (fun _ h => h) (fun s e h => (hstep s e h).mpr)
    (fun s e h => (hstep s e h).mp) hs

/-- The same when the invariant need not hold at the start. -/
lemma forall_reached_iff_start
    (hiff : I s → ((∀ done rest, events = done ++ rest → I (run step s done)) ↔ StepsMeet step P s events)) :
    (∀ done rest, events = done ++ rest → I (run step s done)) ↔ I s ∧ StepsMeet step P s events := by
  constructor
  · intro hall
    have hstart : I s := hall [] events rfl
    exact ⟨hstart, (hiff hstart).mp hall⟩
  · rintro ⟨hstart, hmeet⟩
    exact (hiff hstart).mpr hmeet

/-! ## The last event of a kind -/

variable (step) in
/-- Some step of the run meets `P`, and no later step meets `Q`. -/
def Since (P Q : σ → ε → Prop) (s : σ) (events : List ε) : Prop :=
  ∃ before e after, events = before ++ e :: after ∧ P (run step s before) e ∧
    StepsMeet step (fun s e => ¬Q s e) (step (run step s before) e) after

lemma not_since_nil : ¬Since step P Q s [] := by
  rintro ⟨before, e, after, eq, -, -⟩
  exact append_ne_nil_of_right_ne_nil before (cons_ne_nil e after) eq.symm

/-- One more event is the last one, or leaves the last one as it was. -/
lemma since_concat {e : ε} :
    Since step P Q s (events ++ [e]) ↔
      P (run step s events) e ∨ (Since step P Q s events ∧ ¬Q (run step s events) e) := by
  constructor
  · rintro ⟨before, last, after, eq, hP, hmeet⟩
    rcases eq_nil_or_concat after with rfl | ⟨rest, final, rfl⟩
    · obtain ⟨rfl, hlast⟩ := append_inj' eq rfl
      obtain rfl := singleton_inj.mp hlast
      exact .inl hP
    rw [concat_eq_append] at eq hmeet
    rw [← cons_append, ← append_assoc] at eq
    obtain ⟨rfl, hlast⟩ := append_inj' eq rfl
    obtain rfl := singleton_inj.mp hlast
    obtain ⟨hmeet, hfinal, -⟩ := stepsMeet_append.mp hmeet
    refine .inr ⟨⟨before, last, rest, rfl, hP, hmeet⟩, ?_⟩
    rw [run_append, run_cons]
    exact hfinal
  · rintro (hP | ⟨⟨before, last, after, rfl, hP, hmeet⟩, hQ⟩)
    · exact ⟨events, e, [], rfl, hP, trivial⟩
    refine ⟨before, last, after ++ [e], by simp, hP, stepsMeet_append.mpr ⟨hmeet, ?_, trivial⟩⟩
    rw [run_append, run_cons] at hQ
    exact hQ

end Run
