import PredictiveParsing.Proofs.Parse.Following
import PredictiveParsing.Proofs.Parse.Programs

/-!
# What is marked makes no difference

Actions of a parser set marks of whatever type on their way. Two actions that differ in nothing but
their marks end alike, leave the same state and report the same events. This goes over all
operations of a parser, so it holds of everything that is made of them.

* `Overlooks`: ways to compare what was emitted that overlook marks.
* `Alike`: two actions that differ in their marks only; `EndsAs` asks for less and `ReportsAs` for
  their events as well.
-/

namespace PredictiveParsing

open PredictiveParsing.Action

variable {μ ν α β : Type}

/-- A way to compare what two actions emitted that overlooks marks. -/
class Overlooks (V : List (Emission μ) → List (Emission ν) → Prop) : Prop where
  nil : V [] []
  append {a a' : List (Emission μ)} {b b' : List (Emission ν)} :
    V a b → V a' b' → V (a ++ a') (b ++ b')
  event (e : Event) : V [.event e] [.event e]
  mark_left (m : μ) : V [.mark m] []
  mark_right (m : ν) : V [] [.mark m]

/-- The same events were emitted. -/
def SameEvents (a : List (Emission μ)) (b : List (Emission ν)) : Prop := reported a = reported b

instance : Overlooks (SameEvents (μ := μ) (ν := ν)) where
  nil := rfl
  append h h' := by rw [SameEvents, reported_append, reported_append, h, h']
  event _ := rfl
  mark_left _ := rfl
  mark_right _ := rfl

instance : Overlooks (fun (_ : List (Emission μ)) (_ : List (Emission ν)) => True) where
  nil := trivial
  append _ _ := trivial
  event _ := trivial
  mark_left _ := trivial
  mark_right _ := trivial

namespace Overlooks

variable {V : List (Emission μ) → List (Emission ν) → Prop} [Overlooks V]

theorem events (es : List Event) : V (es.map .event) (es.map .event) := by
  induction es with
  | nil => exact nil
  | cons e es ih => exact append (event e) ih

variable {a : List (Emission μ)} {b : List (Emission ν)}

theorem append_left (h : V a b) (marks : List μ) : V (a ++ marks.map .mark) b := by
  induction marks generalizing a with
  | nil =>
    rw [List.map_nil, List.append_nil]
    exact h
  | cons m marks ih =>
    have hone := append h (mark_left (V := V) m)
    rw [List.append_nil] at hone
    rw [List.map_cons, ← List.singleton_append, ← List.append_assoc]
    exact ih hone

/-- What is compared can be swapped. -/
theorem swap (V : List (Emission μ) → List (Emission ν) → Prop) [Overlooks V] :
    Overlooks fun b a => V a b :=
  ⟨nil, append, event, mark_right, mark_left⟩

theorem append_right (h : V a b) (marks : List ν) : V a (b ++ marks.map .mark) :=
  have := swap V
  append_left (V := fun b a => V a b) h marks

end Overlooks

/-- Two actions, which may set different marks, end alike, leave the same state and have emitted the
same in some way to compare it. -/
def Alike (V : List (Emission μ) → List (Emission ν) → Prop) (x : ParseAction μ α)
    (y : ParseAction ν α) : Prop :=
  ∀ s, (x s).exit = (y s).exit ∧ (x s).state = (y s).state ∧ V (x s).records (y s).records

/-- Two actions end alike and leave the same state. -/
abbrev EndsAs (x : ParseAction μ α) (y : ParseAction ν α) : Prop := Alike (fun _ _ => True) x y

/-- Two actions end alike, leave the same state and report the same events. -/
abbrev ReportsAs (x : ParseAction μ α) (y : ParseAction ν α) : Prop := Alike SameEvents x y

namespace Alike

variable {V : List (Emission μ) → List (Emission ν) → Prop}

theorem ite {c : Prop} [Decidable c] {x x' : ParseAction μ α} {y y' : ParseAction ν α}
    (h : Alike V x y) (h' : Alike V x' y') :
    Alike V (if c then x else x') (if c then y else y') := by
  split
  · exact h
  · exact h'

theorem attempt {x : ParseAction μ α} {y : ParseAction ν α} (h : Alike V x y) :
    Alike V (Action.attempt x : ParseAction μ (Except ParseError α))
      (Action.attempt y : ParseAction ν (Except ParseError α)) := by
  intro s
  obtain ⟨hexit, hstate, hrecords⟩ := h s
  rw [Action.attempt, Action.attempt, hexit, hstate]
  cases (y s).exit <;> exact ⟨rfl, rfl, hrecords⟩

variable [Overlooks V]

theorem bind {x : ParseAction μ α} {y : ParseAction ν α} {f : α → ParseAction μ β}
    {g : α → ParseAction ν β} (hfirst : Alike V x y) (hnext : ∀ a, Alike V (f a) (g a)) :
    Alike V (x >>= f) (y >>= g) := by
  intro s
  obtain ⟨hexit, hstate, hrecords⟩ := hfirst s
  rw [bind_apply, bind_apply, hexit, hstate]
  cases (y s).exit with
  | ok a =>
    obtain ⟨hexit', hstate', hrecords'⟩ := hnext a (y s).state
    exact ⟨hexit', hstate', Overlooks.append hrecords hrecords'⟩
  | error e => exact ⟨rfl, rfl, hrecords⟩
  | fault f => exact ⟨rfl, rfl, hrecords⟩

theorem pure (a : α) : Alike V (Pure.pure a : ParseAction μ α) (Pure.pure a : ParseAction ν α) :=
  fun _ => ⟨rfl, rfl, Overlooks.nil⟩

theorem get : Alike V (Action.get : ParseAction μ ParserState)
    (Action.get : ParseAction ν ParserState) := fun _ => ⟨rfl, rfl, Overlooks.nil⟩

theorem modify (f : ParserState → ParserState) : Alike V (Action.modify f : ParseAction μ Unit)
    (Action.modify f : ParseAction ν Unit) := fun _ => ⟨rfl, rfl, Overlooks.nil⟩

theorem emit (e : Event) : Alike V (Action.emit (.event e) : ParseAction μ Unit)
    (Action.emit (.event e) : ParseAction ν Unit) := fun _ => ⟨rfl, rfl, Overlooks.event e⟩

theorem raise (e : ParseError) :
    Alike V (Action.raise e : ParseAction μ α) (Action.raise e : ParseAction ν α) :=
  fun _ => ⟨rfl, rfl, Overlooks.nil⟩

theorem stop (f : Fault) :
    Alike V (Action.stop f : ParseAction μ α) (Action.stop f : ParseAction ν α) :=
  fun _ => ⟨rfl, rfl, Overlooks.nil⟩

/-- Marks that are set behind the first action make no difference. -/
theorem marked_left {x x' : ParseAction μ α} {y : ParseAction ν α} (h : Alike V x y)
    (hmarked : ∀ s, ∃ marks : List μ,
      x' s = ⟨(x s).exit, (x s).state, (x s).records ++ marks.map .mark⟩) : Alike V x' y := by
  intro s
  obtain ⟨hexit, hstate, hrecords⟩ := h s
  obtain ⟨marks, hmarks⟩ := hmarked s
  rw [hmarks]
  exact ⟨hexit, hstate, Overlooks.append_left hrecords marks⟩

/-- Marks that are set behind the second action make no difference. -/
theorem marked_right {x : ParseAction μ α} {y y' : ParseAction ν α} (h : Alike V x y)
    (hmarked : ∀ s, ∃ marks : List ν,
      y' s = ⟨(y s).exit, (y s).state, (y s).records ++ marks.map .mark⟩) : Alike V x y' := by
  intro s
  obtain ⟨hexit, hstate, hrecords⟩ := h s
  obtain ⟨marks, hmarks⟩ := hmarked s
  rw [hmarks]
  exact ⟨hexit, hstate, Overlooks.append_right hrecords marks⟩

theorem noting {x : ParseAction μ α} {y : ParseAction Deed α}
    {V : List (Emission μ) → List (Emission Deed) → Prop} [Overlooks V] (h : Alike V x y)
    (deeds : Except ParseError α → List Deed) : Alike V x (ParseProgram.noting deeds y) := by
  refine h.marked_right fun s => ?_
  rcases hy : y s with ⟨exit, t, records⟩
  cases exit with
  | ok a => exact ⟨deeds (.ok a), ParseProgram.noting_of_ok hy⟩
  | error e => exact ⟨deeds (.error e), ParseProgram.noting_of_error hy⟩
  | fault f =>
    refine ⟨[], ?_⟩
    rw [List.map_nil, List.append_nil]
    exact ParseProgram.noting_of_fault hy

/-! ## The operations of a parser -/

variable (parser : Parser)

theorem scanOr {ε : Type} {onError : ε → ParseAction μ α} {onError' : ε → ParseAction ν α}
    (h : ∀ e, Alike V (onError e) (onError' e)) (action : Action Event Store ε α) :
    Alike V (Parser.scanOr onError action) (Parser.scanOr onError' action) := by
  intro s
  rw [Parser.scanOr, Parser.scanOr]
  cases (action s.store).exit with
  | error e =>
    obtain ⟨hexit, hstate, hrecords⟩ := h e { s with store := (action s.store).state }
    exact ⟨hexit, hstate, Overlooks.append (Overlooks.events _) hrecords⟩
  | _ => exact ⟨rfl, rfl, Overlooks.events _⟩

theorem scan (action : Action Event Store Empty α) :
    Alike V (Parser.scan action : ParseAction μ α) (Parser.scan action : ParseAction ν α) :=
  .scanOr (fun e => e.elim) action

theorem mismatch (expected : List KindId) (found : Token) :
    Alike V (parser.mismatch expected found : ParseAction μ α)
      (parser.mismatch expected found : ParseAction ν α) :=
  .bind .get fun _ => .bind (.emit _) fun _ => .raise _

theorem consume (kind : KindId) : Alike V (parser.consume kind : ParseAction μ Token)
    (parser.consume kind : ParseAction ν Token) := by
  apply Alike.bind (.scanOr (fun m : Mismatch => .mismatch parser [m.expected] m.found) _)
  exact fun token => .bind (.modify _) fun _ => .bind (.emit _) fun _ => .pure token

theorem alternatives (lookahead : AlternativeLookahead) :
    Alike V (parser.alternatives lookahead : ParseAction μ Nat)
      (parser.alternatives lookahead : ParseAction ν Nat) := by
  refine .bind (.scan _) ?_
  rintro (_ | branch)
  · exact .bind (.bind (.scan _) fun _ => .scan _) fun found => .mismatch parser _ found
  · exact .pure branch

theorem expectEnd : Alike V (parser.expectEnd : ParseAction μ Unit)
    (parser.expectEnd : ParseAction ν Unit) := by
  refine .bind (.scan _) fun _ => .bind .get fun s => ?_
  split
  · exact .pure ()
  · exact .bind (.scan _) fun found => .mismatch parser _ found

theorem check (lookahead : OptionalLookahead) :
    Alike V (parser.check lookahead : ParseAction μ Bool)
      (parser.check lookahead : ParseAction ν Bool) :=
  .scan _

theorem begin (source : Text) : Alike V (Parser.begin source : ParseAction μ Unit)
    (Parser.begin source : ParseAction ν Unit) :=
  .bind (.scan _) fun _ => .modify _

theorem takeErrors : Alike V (Parser.takeErrors : ParseAction μ (List ParseError))
    (Parser.takeErrors : ParseAction ν (List ParseError)) :=
  .bind .get fun s => .bind (.modify _) fun _ => .pure s.errors

variable {x : ParseAction μ α} {y : ParseAction ν α}

theorem rule (h : Alike V x y) (name : String) :
    Alike V (Parser.rule name x) (Parser.rule name y) := by
  refine .bind (.bind .get fun _ => .bind (.emit _) fun _ => .modify _) fun _ =>
    .bind h.attempt ?_
  rintro (e | a)
  · exact .bind (.bind (.modify _) fun _ => .emit _) fun _ => .raise e
  · exact .bind (.bind (.modify _) fun _ => .emit _) fun _ => .pure a

theorem optional (h : Alike V x y) (lookahead : OptionalLookahead) :
    Alike V (parser.optional lookahead x) (parser.optional lookahead y) :=
  .bind (.check parser lookahead) fun _ => .ite (.bind h fun a => .pure (some a)) (.pure none)

theorem rounds (h : Alike V x y) (lookahead : OptionalLookahead) (n : Nat) :
    Alike V (parser.rounds lookahead x n) (parser.rounds lookahead y n) := by
  induction n with
  | zero => exact .bind .get fun _ => .stop _
  | succ n ih =>
    refine .bind (.check parser lookahead) fun _ => .ite ?_ (.pure [])
    refine .bind .get fun before => .bind h fun item => .bind .get fun _ => .ite ?_ ?_
    · exact .stop _
    · exact .bind ih fun items => .pure (item :: items)

theorem run (h : Alike V x y) (source : Text) :
    Alike V (Parser.run source x) (Parser.run source y) := by
  refine .bind (.begin source) fun _ => .bind h.attempt ?_
  rintro (e | a)
  · exact .bind (.modify _) fun _ => .bind .takeErrors fun errors => .pure _
  · exact .bind .takeErrors fun errors => .pure _

/-! ## The operations of a program -/

variable {V : List (Emission μ) → List (Emission Deed) → Prop} [Overlooks V]

/-- A deed that is noted first makes no difference. -/
theorem note_bind {y : ParseAction Deed α} (h : Alike V x y) (deed : Deed) :
    Alike V x (ParseProgram.note deed >>= fun _ => y) := by
  intro s
  obtain ⟨hexit, hstate, hrecords⟩ := h s
  exact ⟨hexit, hstate, Overlooks.append (Overlooks.mark_right deed) hrecords⟩

variable {program : ParseProgram α}

theorem perform_rule (h : Alike V x (program.perform parser)) (name : String) :
    Alike V (Parser.rule name x) ((ParseProgram.rule name program).perform parser) :=
  ((h.rule name).noting _).note_bind (.opened name)

theorem perform_begin (source : Text) :
    Alike V (Parser.begin source) ((ParseProgram.begin source).perform parser) := by
  have h : Alike V (Parser.begin source >>= Pure.pure)
      ((ParseProgram.begin source).perform parser) :=
    .bind (.begin source) fun _ => .note_bind (.pure ()) .restarted
  rwa [bind_pure] at h

theorem perform_run (h : Alike V x (program.perform parser)) (source : Text) :
    Alike V (Parser.run source x) ((ParseProgram.run source program).perform parser) :=
  (h.note_bind .restarted).run source

end Alike

end PredictiveParsing
