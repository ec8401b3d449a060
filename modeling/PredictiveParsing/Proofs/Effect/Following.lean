import PredictiveParsing.Proofs.Scan.Reading

/-!
# What runs follow

A relation between the state before a run, the records on the way and the state behind it may hold
of standing still and hold of two runs one after the other. Then it holds of every run of an action
that is put together from actions whose runs it holds of, also where an error or a fault ends it.

* `Composes`: such a relation.
* `Action.Follows`: it holds of every run of an action.
-/

namespace PredictiveParsing

variable {ρ σ ε α β : Type}

/-- A relation of states, with what is emitted between them, that goes over sequences. -/
class Composes (T : σ → List ρ → σ → Prop) : Prop where
  refl (s : σ) : T s [] s
  trans {s t u : σ} {a b : List ρ} : T s a t → T t b u → T s (a ++ b) u

namespace Action

/-- Actions in sequence that end with a value do so one after the other. -/
theorem exists_of_bind_ok {x : Action ρ σ ε α} {f : α → Action ρ σ ε β} {s : σ} {b : β}
    (h : ((x >>= f) s).exit = .ok b) :
    ∃ a, (x s).exit = .ok a ∧ (f a (x s).state).exit = .ok b := by
  rw [bind_apply] at h
  cases hexit : (x s).exit with
  | ok a =>
    rw [hexit] at h
    exact ⟨a, rfl, h⟩
  | error e =>
    rw [hexit] at h
    cases h
  | fault g =>
    rw [hexit] at h
    cases h

/-- However a run of an action ends, a relation leads from the state before it to the one behind. -/
def Follows (T : σ → List ρ → σ → Prop) (x : Action ρ σ ε α) : Prop :=
  ∀ s, T s (x s).records (x s).state

namespace Follows

variable {T : σ → List ρ → σ → Prop} {x y : Action ρ σ ε α}

theorem ite {c : Prop} [Decidable c] (hx : Follows T x) (hy : Follows T y) :
    Follows T (if c then x else y) := by
  split
  · exact hx
  · exact hy

theorem attempt {ε' : Type} (hx : Follows T x) :
    Follows T (Action.attempt x : Action ρ σ ε' (Except ε α)) := by
  intro s
  have h := hx s
  rw [Action.attempt]
  cases (x s).exit <;> exact h

variable [Composes T]

theorem pure (a : α) : Follows T (Pure.pure a : Action ρ σ ε α) := Composes.refl

theorem get : Follows T (Action.get : Action ρ σ ε σ) := Composes.refl

theorem raise (e : ε) : Follows T (Action.raise e : Action ρ σ ε α) := Composes.refl

theorem stop (f : Fault) : Follows T (Action.stop f : Action ρ σ ε α) := Composes.refl

theorem bind {f : α → Action ρ σ ε β} (hx : Follows T x) (hf : ∀ a, Follows T (f a)) :
    Follows T (x >>= f) := by
  intro s
  have hfirst := hx s
  rw [bind_apply]
  cases (x s).exit with
  | ok a => exact Composes.trans hfirst (hf a _)
  | error e => exact hfirst
  | fault g => exact hfirst

end Follows

end Action

end PredictiveParsing
