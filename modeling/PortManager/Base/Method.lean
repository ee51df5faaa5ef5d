import Mathlib

/-!
# Methods that may throw

A method of an object is a computation in `ExceptT ε (StateM σ)`: when it throws, the changes it made before stay.
The lemmas run such a computation one statement at a time.
-/

namespace Method

variable {ε σ α β : Type}

/-- What a method throws or returns, and the state it leaves. -/
def call (method : ExceptT ε (StateM σ) α) (s : σ) : Except ε α × σ := method.run s

variable (s : σ)

@[simp] lemma call_pure (a : α) : call (pure a : ExceptT ε (StateM σ) α) s = (.ok a, s) := rfl

@[simp] lemma call_throw (e : ε) : call (throw e : ExceptT ε (StateM σ) α) s = (.error e, s) := rfl

@[simp] lemma call_throw_bind (e : ε) (f : α → ExceptT ε (StateM σ) β) : call (throw e >>= f) s = (.error e, s) := rfl

@[simp] lemma call_get_bind (f : σ → ExceptT ε (StateM σ) β) : call (get >>= f) s = call (f s) s := rfl

variable (change : σ → σ)

@[simp] lemma call_modify : call (modify change : ExceptT ε (StateM σ) PUnit) s = (.ok ⟨⟩, change s) := rfl

@[simp] lemma call_modify_bind (f : PUnit → ExceptT ε (StateM σ) β) :
    call (modify change >>= f) s = call (f ⟨⟩) (change s) := rfl

@[simp] lemma call_map_modify (g : PUnit → α) :
    call (g <$> modify change : ExceptT ε (StateM σ) α) s = (.ok (g ⟨⟩), change s) := rfl

@[simp] lemma call_set_bind (after : σ) (f : PUnit → ExceptT ε (StateM σ) β) :
    call (set after >>= f) s = call (f ⟨⟩) after := rfl

@[simp] lemma call_pure_bind (a : α) (f : α → ExceptT ε (StateM σ) β) : call (pure a >>= f) s = call (f a) s := rfl

variable {method : ExceptT ε (StateM σ) α} {s s' : σ}

lemma call_bind_ok {a : α} (h : call method s = (.ok a, s')) (f : α → ExceptT ε (StateM σ) β) :
    call (method >>= f) s = call (f a) s' := by
  have hbind : call (method >>= f) s = (fun r : Except ε α × σ => ExceptT.bindCont f r.1 r.2) (call method s) := rfl
  rw [hbind, h]
  rfl

lemma call_bind_error {e : ε} (h : call method s = (.error e, s')) (f : α → ExceptT ε (StateM σ) β) :
    call (method >>= f) s = (.error e, s') := by
  have hbind : call (method >>= f) s = (fun r : Except ε α × σ => ExceptT.bindCont f r.1 r.2) (call method s) := rfl
  rw [hbind, h]
  rfl

@[simp] lemma call_discard (method : ExceptT ε (StateM σ) α) (s : σ) :
    (call (discard method) s).2 = (call method s).2 := by
  rcases h : call method s with ⟨outcome, s'⟩
  cases outcome with
  | ok a => exact congrArg Prod.snd (call_bind_ok h _)
  | error e => exact congrArg Prod.snd (call_bind_error h _)

end Method
