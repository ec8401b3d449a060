import PredictiveParsing.Effect.Fault

/-!
# Actions

An action changes a state and emits records. It ends with a value, with an error, or with a
fault; its state and records are there in every case.

* `LawfulMonad`: actions in sequence obey the monad laws.
* `ensuring_state`: what is ensured behind a body acts on the state that the body left, however
  the body ended.
-/

namespace PredictiveParsing

/-- How an action ends. -/
inductive Exit (ε α : Type) where
  | ok (value : α)
  | error (e : ε)
  | fault (f : Fault)
  deriving DecidableEq

/-- A value or an error, compared as an exit is. -/
instance decidableEqExcept {ε α : Type} [DecidableEq ε] [DecidableEq α] : DecidableEq (Except ε α)
  | .ok a, .ok b => decidable_of_iff (a = b) (by rw [Except.ok.injEq])
  | .error e, .error e' => decidable_of_iff (e = e') (by rw [Except.error.injEq])
  | .ok _, .error _ => isFalse nofun
  | .error _, .ok _ => isFalse nofun

/-- What one run of an action leaves behind. -/
structure Run (ρ σ ε α : Type) where
  exit : Exit ε α
  state : σ
  records : List ρ

/-- An action with records of type `ρ`, a state of type `σ`, errors of type `ε` and values of type
`α`. -/
def Action (ρ σ ε α : Type) : Type := σ → Run ρ σ ε α

namespace Action

variable {ρ σ ε α β : Type}

/-- Ends with a value at once. -/
protected def pure (a : α) : Action ρ σ ε α := fun s => ⟨.ok a, s, []⟩

/-- Goes on with the value of an action, if it has one. -/
protected def bind (x : Action ρ σ ε α) (f : α → Action ρ σ ε β) : Action ρ σ ε β := fun s =>
  let r := x s
  match r.exit with
  | .ok a =>
    let t := f a r.state
    ⟨t.exit, t.state, r.records ++ t.records⟩
  | .error e => ⟨.error e, r.state, r.records⟩
  | .fault g => ⟨.fault g, r.state, r.records⟩

instance : Monad (Action ρ σ ε) where
  pure := Action.pure
  bind := Action.bind

instance : LawfulMonad (Action ρ σ ε) := LawfulMonad.mk' _
  (by
    intro α x
    funext s
    simp only [Functor.map, Action.bind, Function.comp, Action.pure]
    rcases hr : x s with ⟨exit, state, records⟩
    cases exit <;> simp)
  (by
    intro α β a f
    funext s
    simp [bind, pure, Action.bind, Action.pure])
  (by
    intro α β γ x f g
    funext s
    simp only [bind, Action.bind]
    rcases hr : x s with ⟨exit, state, records⟩
    cases exit with
    | ok a =>
      simp only
      rcases ht : f a state with ⟨exit', state', records'⟩
      cases exit' <;> simp [List.append_assoc]
    | error e => rfl
    | fault f => rfl)

/-- The current state. -/
def get : Action ρ σ ε σ := fun s => ⟨.ok s, s, []⟩

/-- Changes the state. -/
def modify (f : σ → σ) : Action ρ σ ε Unit := fun s => ⟨.ok (), f s, []⟩

/-- Emits a record. -/
def emit (r : ρ) : Action ρ σ ε Unit := fun s => ⟨.ok (), s, [r]⟩

/-- Ends with an error. -/
def raise (e : ε) : Action ρ σ ε α := fun s => ⟨.error e, s, []⟩

/-- Ends with a fault. -/
def stop (f : Fault) : Action ρ σ ε α := fun s => ⟨.fault f, s, []⟩

/-- Ends with a value that may be a fault. -/
def ofExcept : Except Fault α → Action ρ σ ε α
  | .ok a => Action.pure a
  | .error f => stop f

/-- Emits some records. -/
def emitAll (rs : List ρ) : Action ρ σ ε Unit := fun s => ⟨.ok (), s, rs⟩

/-- Turns an error into a value. -/
def attempt {ε' : Type} (body : Action ρ σ ε α) : Action ρ σ ε' (Except ε α) := fun s =>
  let r := body s
  match r.exit with
  | .ok a => ⟨.ok (.ok a), r.state, r.records⟩
  | .error e => ⟨.ok (.error e), r.state, r.records⟩
  | .fault f => ⟨.fault f, r.state, r.records⟩

/-- Runs a body and then, however it ended, a closing action. A body's end stands unless the closing
action fails itself. -/
def ensuring (body : Action ρ σ ε α) (closing : Action ρ σ ε Unit) : Action ρ σ ε α := fun s =>
  let r := body s
  let t := closing r.state
  match t.exit with
  | .ok () => ⟨r.exit, t.state, r.records ++ t.records⟩
  | .error e => ⟨.error e, t.state, r.records ++ t.records⟩
  | .fault f => ⟨.fault f, t.state, r.records ++ t.records⟩

theorem ensuring_state (body : Action ρ σ ε α) (closing : Action ρ σ ε Unit) (s : σ) :
    (ensuring body closing s).state = (closing (body s).state).state := by
  simp only [ensuring]
  split <;> rfl

end Action

end PredictiveParsing
