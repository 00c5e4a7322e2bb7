import Mathlib.Init

/-!
# Programs that write to a state and may fail

A failure keeps what was written before it. A program is all or nothing if it
does what a function on the state says, which gives either the next state or an
error without one.
-/

namespace SmartC

variable {ε σ α β : Type}

abbrev Fallible (ε σ : Type) := ExceptT ε (StateM σ)

namespace Fallible

def exec (x : Fallible ε σ α) (s : σ) : Except ε α × σ := (ExceptT.run x).run s

@[simp] theorem exec_pure (a : α) (s : σ) : (pure a : Fallible ε σ α).exec s = (.ok a, s) := rfl

@[simp] theorem exec_throw (e : ε) (s : σ) :
    (throw e : Fallible ε σ α).exec s = (.error e, s) := rfl

@[simp] theorem exec_get (s : σ) : (get : Fallible ε σ σ).exec s = (.ok s, s) := rfl

@[simp] theorem exec_modify (f : σ → σ) (s : σ) :
    (modify f : Fallible ε σ PUnit).exec s = (.ok ⟨⟩, f s) := rfl

theorem exec_bind (x : Fallible ε σ α) (f : α → Fallible ε σ β) (s : σ) :
    (x >>= f).exec s = match x.exec s with
      | (.ok a, s') => (f a).exec s'
      | (.error e, s') => (.error e, s') := by
  unfold exec ExceptT.run StateT.run
  simp only [bind, ExceptT.bind, ExceptT.mk, StateT.bind, ExceptT.bindCont]
  cases x s with
  | mk result s' => cases result <;> rfl

theorem exec_ite {p : Prop} [Decidable p] (x y : Fallible ε σ α) (s : σ) :
    (if p then x else y).exec s = if p then x.exec s else y.exec s := by
  split <;> rfl

def settle (s : σ) : Except ε σ → Except ε Unit × σ
  | .ok s' => (.ok (), s')
  | .error e => (.error e, s)

/-- The program does what the function says, and writes nothing before it fails. -/
def AllOrNothing (x : Fallible ε σ Unit) (f : σ → Except ε σ) : Prop :=
  ∀ s, x.exec s = settle s (f s)

end Fallible

end SmartC
