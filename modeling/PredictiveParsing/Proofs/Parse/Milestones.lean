import Mathlib.Data.List.Pairwise
import Mathlib.Order.Nat
import PredictiveParsing.Ecma.Grammar
import PredictiveParsing.Proofs.Parse.Marking

/-!
# The way of a parser through its source

A program is surveyed by setting a milestone behind each operation that ends, inside bodies as well:
how far the parser has come, how many tokens it has committed, and which token the operation itself
committed. What a survey finds is what a program does, because milestones change nothing.

As long as a program begins no source and takes up no position, the way past its milestones leads
forward, and the tokens committed on it lie one behind the other.

* `ParseProgram.survey`, `survey_reportsAs`: a program with milestones ends as it does without them.
* `Passes`: a way past milestones.
* `commits_in_order`: offsets, counts and tokens of programs that only move on.
-/

namespace PredictiveParsing

open PredictiveParsing.Action

variable {μ ν α β : Type}

/-! ## Milestones -/

/-- What is found behind an operation that ended: the token that it committed, if it did, and how
far the parser has come. -/
structure Milestone where
  token : Option Token
  offset : Nat
  consumed : Nat
  deriving DecidableEq

namespace ParseProgram

/-- Sets a milestone. -/
def milestone (token : Option Token) : ParseAction Milestone Unit := do
  let s ← Action.get
  Action.emit (.mark ⟨token, s.offset, s.consumed⟩)

/-- Runs an operation, sets a milestone behind it and passes its end on. -/
def passing (committed : α → Option Token) (operation : ParseAction Milestone α) :
    ParseAction Milestone α := do
  match ← Action.attempt operation with
  | .ok a =>
    milestone (committed a)
    return a
  | .error e =>
    milestone none
    Action.raise e

/-- Runs an operation that commits nothing itself, with a milestone behind it. -/
def ending (operation : ParseAction Milestone α) : ParseAction Milestone α :=
  passing (fun _ => none) operation

section passing

variable {committed : α → Option Token} {x : ParseAction Milestone α} {s s' : ParserState}
  {records : List (Emission Milestone)}

theorem passing_of_ok {a : α} (h : x s = ⟨.ok a, s', records⟩) :
    passing committed x s =
      ⟨.ok a, s', records ++ [.mark ⟨committed a, s'.offset, s'.consumed⟩]⟩ := by
  simp [passing, milestone, Action.bind_apply, Action.map_apply, Action.attempt, h]

theorem passing_of_error {e : ParseError} (h : x s = ⟨.error e, s', records⟩) :
    passing committed x s =
      ⟨.error e, s', records ++ [.mark ⟨none, s'.offset, s'.consumed⟩]⟩ := by
  simp [passing, milestone, Action.bind_apply, Action.attempt, h]

theorem passing_of_fault {f : Fault} (h : x s = ⟨.fault f, s', records⟩) :
    passing committed x s = ⟨.fault f, s', records⟩ := by
  simp [passing, Action.bind_apply, Action.attempt, h]

end passing

/-- A program as an action that sets a milestone behind each operation that ends. -/
def survey (parser : Parser) {α : Type} : ParseProgram α → ParseAction Milestone α
  | .done exit => fun s => ⟨exit, s, []⟩
  | .bind first next => do
    let a ← first.survey parser
    (next a).survey parser
  | .attempt body => ending (Action.attempt (body.survey parser))
  | .state => Action.get
  | .skip => ending (Parser.scan parser.scanner.skip)
  | .tryMatch kind => ending (Parser.scan (parser.scanner.tryMatch kind))
  | .seek offset => ending (Parser.scan (Store.seek offset))
  | .consume kind => passing some (parser.consume kind)
  | .expectEnd => ending parser.expectEnd
  | .alternatives lookahead => ending (parser.alternatives lookahead)
  | .check lookahead => ending (parser.check lookahead)
  | .rule name body => ending (Parser.rule name (body.survey parser))
  | .optional lookahead body => ending (parser.optional lookahead (body.survey parser))
  | .many lookahead body => ending (parser.many lookahead (body.survey parser))
  | .begin source => ending (Parser.begin source)
  | .run source entry => ending (Parser.run source (entry.survey parser))

/-- A program begins no source and takes up no position, whatever it goes on with. -/
def Onward {α : Type} : ParseProgram α → Prop
  | .bind first next => first.Onward ∧ ∀ a, (next a).Onward
  | .attempt body | .rule _ body | .optional _ body | .many _ body => body.Onward
  | .seek _ | .begin _ | .run _ _ => False
  | _ => True

end ParseProgram

/-! ## Milestones make no difference -/

theorem Alike.passing {V : List (Emission Milestone) → List (Emission ν) → Prop} [Overlooks V]
    {x : ParseAction Milestone α} {y : ParseAction ν α} (h : Alike V x y)
    (committed : α → Option Token) : Alike V (ParseProgram.passing committed x) y := by
  refine h.marked_left fun s => ?_
  rcases hx : x s with ⟨exit, t, records⟩
  cases exit with
  | ok a => exact ⟨[_], ParseProgram.passing_of_ok hx⟩
  | error e => exact ⟨[_], ParseProgram.passing_of_error hx⟩
  | fault f =>
    refine ⟨[], ?_⟩
    rw [List.map_nil, List.append_nil]
    exact ParseProgram.passing_of_fault hx

theorem Alike.ending {V : List (Emission Milestone) → List (Emission ν) → Prop} [Overlooks V]
    {x : ParseAction Milestone α} {y : ParseAction ν α} (h : Alike V x y) :
    Alike V (ParseProgram.ending x) y :=
  h.passing _

/-- A program that is surveyed ends as one that is performed, and reports the same events. -/
theorem ParseProgram.survey_reportsAs (parser : Parser) (program : ParseProgram α) :
    ReportsAs (program.survey parser) (program.perform parser) := by
  induction program with
  | done exit => exact fun _ => ⟨rfl, rfl, rfl⟩
  | bind _ _ ihFirst ihNext => exact .bind ihFirst ihNext
  | attempt _ ih => exact ih.attempt.ending
  | state => exact .get
  | skip => exact (Alike.scan _).ending
  | tryMatch kind => exact (Alike.scan _).ending
  | seek offset => exact (Alike.scan _).ending
  | consume kind => exact ((Alike.consume parser kind).noting _).passing some
  | expectEnd => exact ((Alike.expectEnd parser).noting _).ending
  | alternatives lookahead => exact ((Alike.alternatives parser lookahead).noting _).ending
  | check lookahead => exact (Alike.check parser lookahead).ending
  | rule name _ ih => exact (ih.perform_rule parser name).ending
  | optional lookahead _ ih => exact (Alike.optional parser ih lookahead).ending
  | many lookahead _ ih => exact (Alike.rounds parser ih lookahead _).ending
  | begin source => exact (Alike.perform_begin parser source).ending
  | run source _ ih => exact (ih.perform_run parser source).ending

/-! ## Ways -/

/-- From an offset and a count a milestone comes next. Behind a token that was committed it stands
at the end of the token, which lies ahead, and one more is counted. -/
def Milestone.Next (offset consumed : Nat) (m : Milestone) : Prop :=
  match m.token with
  | none => offset ≤ m.offset ∧ m.consumed = consumed
  | some t => offset ≤ t.span.start ∧ t.span.start < t.span.stop ∧ m.offset = t.span.stop ∧
      m.consumed = consumed + 1

/-- From an offset and a count it goes on past milestones to another offset and count. -/
def Passes (offset consumed : Nat) : List Milestone → Nat → Nat → Prop
  | [], offset', consumed' => offset ≤ offset' ∧ consumed' = consumed
  | m :: milestones, offset', consumed' =>
    m.Next offset consumed ∧ Passes m.offset m.consumed milestones offset' consumed'

section ways

variable {offset consumed offset' consumed' offset'' consumed'' : Nat} {m : Milestone}
  {milestones others : List Milestone}

theorem Milestone.Next.le (h : m.Next offset consumed) :
    offset ≤ m.offset ∧ consumed ≤ m.consumed := by
  rw [Next] at h
  split at h <;> omega

namespace Passes

theorem of_le (hle : offset ≤ offset')
    (h : Passes offset' consumed milestones offset'' consumed'') :
    Passes offset consumed milestones offset'' consumed'' := by
  cases milestones with
  | nil => exact ⟨Nat.le_trans hle h.1, h.2⟩
  | cons m milestones =>
    refine ⟨?_, h.2⟩
    have hnext := h.1
    rw [Milestone.Next] at hnext ⊢
    split at hnext
    · exact ⟨Nat.le_trans hle hnext.1, hnext.2⟩
    · exact ⟨Nat.le_trans hle hnext.1, hnext.2⟩

theorem append (h : Passes offset consumed milestones offset' consumed')
    (hothers : Passes offset' consumed' others offset'' consumed'') :
    Passes offset consumed (milestones ++ others) offset'' consumed'' := by
  induction milestones generalizing offset consumed with
  | nil =>
    obtain ⟨hle, rfl⟩ := h
    exact hothers.of_le hle
  | cons m milestones ih => exact ⟨h.1, ih h.2⟩

theorem sorted_offset (h : Passes offset consumed milestones offset' consumed') :
    (offset :: milestones.map Milestone.offset ++ [offset']).Pairwise (· ≤ ·) := by
  induction milestones generalizing offset consumed with
  | nil => exact .cons_cons_of_trans h.1 (List.pairwise_singleton _ _)
  | cons m milestones ih => exact .cons_cons_of_trans h.1.le.1 (ih h.2)

theorem sorted_consumed (h : Passes offset consumed milestones offset' consumed') :
    (consumed :: milestones.map Milestone.consumed ++ [consumed']).Pairwise (· ≤ ·) := by
  induction milestones generalizing offset consumed with
  | nil => exact .cons_cons_of_trans (Nat.le_of_eq h.2.symm) (List.pairwise_singleton _ _)
  | cons m milestones ih => exact .cons_cons_of_trans h.1.le.2 (ih h.2)

/-- The tokens lie ahead, each behind the one before it, and all of them are counted. -/
theorem tokens (h : Passes offset consumed milestones offset' consumed') :
    let tokens := milestones.filterMap Milestone.token
    (∀ t ∈ tokens, offset ≤ t.span.start ∧ t.span.start < t.span.stop) ∧
      tokens.Pairwise (fun t u => t.span.stop ≤ u.span.start) ∧
      consumed' = consumed + tokens.length := by
  induction milestones generalizing offset consumed with
  | nil => exact ⟨by simp, by simp, h.2⟩
  | cons m milestones ih =>
    obtain ⟨hnext, hrest⟩ := h
    obtain ⟨hahead, hordered, hcount⟩ := ih hrest
    have hbehind (t : Token) (ht : t ∈ milestones.filterMap Milestone.token) :
        offset ≤ t.span.start ∧ t.span.start < t.span.stop :=
      ⟨Nat.le_trans hnext.le.1 (hahead t ht).1, (hahead t ht).2⟩
    rw [Milestone.Next] at hnext
    cases htoken : m.token with
    | none =>
      rw [htoken] at hnext
      rw [List.filterMap_cons_none htoken]
      exact ⟨hbehind, hordered, by rw [hcount, hnext.2]⟩
    | some t =>
      rw [htoken] at hnext
      obtain ⟨hstart, hspan, hstop, hone⟩ := hnext
      rw [List.filterMap_cons_some htoken]
      refine ⟨?_, .cons (fun u hu => hstop ▸ (hahead u hu).1) hordered, ?_⟩
      · exact List.forall_mem_cons.2 ⟨⟨hstart, hspan⟩, hbehind⟩
      · rw [hcount, hone, List.length_cons]
        omega

end Passes

end ways

/-! ## Programs that move on -/

/-- A way leads past the milestones that are set. -/
def OnTheWay (s : ParserState) (records : List (Emission Milestone)) (t : ParserState) : Prop :=
  Passes s.offset s.consumed (journal records) t.offset t.consumed

instance : Steady Forward OnTheWay where
  refl s := ⟨Nat.le_refl s.offset, rfl⟩
  trans hfirst hnext := by
    rw [OnTheWay, journal_append]
    exact Passes.append hfirst hnext
  scan h := by
    rw [OnTheWay, journal_map_event]
    exact ⟨h.leads.le, rfl⟩
  rules s _ := ⟨Nat.le_refl s.offset, rfl⟩
  emit s _ _ := ⟨Nat.le_refl s.offset, rfl⟩

namespace ParseProgram

theorem ending_onTheWay {x : ParseAction Milestone α} (hx : Follows OnTheWay x) :
    Follows OnTheWay (ending x) := by
  have hmilestone : Follows OnTheWay (milestone none) := fun s =>
    ⟨⟨Nat.le_refl s.offset, rfl⟩, Nat.le_refl s.offset, rfl⟩
  refine .bind hx.attempt ?_
  rintro (e | a)
  · exact .bind hmilestone fun _ => .raise e
  · exact .bind hmilestone fun _ => .pure a

theorem consume_onTheWay (parser : Parser) (kind : KindId) :
    Follows OnTheWay (passing some (parser.consume kind)) := by
  intro s
  have hleads : s.offset ≤ (parser.scanner.consume kind s.store).state.offset :=
    (parser.scanner.consume_follows (T := Forward) kind s.store).leads.le
  rcases parser.consume_cases (μ := Milestone) kind s with
    ⟨f, hrun⟩ | ⟨e, hrun⟩ | ⟨found, token, -, -, hstart, hspan, hstop, hrun⟩
  · rw [passing_of_fault hrun, OnTheWay, journal_map_event]
    exact ⟨hleads, rfl⟩
  · rw [passing_of_error hrun]
    exact ⟨⟨hleads, rfl⟩, Nat.le_refl _, rfl⟩
  · rw [passing_of_ok hrun, OnTheWay, journal_append, journal_append, journal_map_event]
    exact ⟨⟨hstart, hspan, hstop, rfl⟩, Nat.le_refl _, rfl⟩

/-- A program that begins no source and takes up no position only moves on. -/
theorem survey_onTheWay (parser : Parser) (program : ParseProgram α) (honward : program.Onward) :
    Follows OnTheWay (program.survey parser) := by
  induction program with
  | done exit => exact fun s => Composes.refl s
  | bind _ _ ihFirst ihNext =>
    exact .bind (ihFirst honward.1) fun a => ihNext a (honward.2 a)
  | attempt _ ih => exact ending_onTheWay (ih honward).attempt
  | state => exact .get
  | skip => exact ending_onTheWay (Parser.scan_follows parser.scanner.skip_forward)
  | tryMatch kind =>
    exact ending_onTheWay (Parser.scan_follows (parser.scanner.tryMatch_forward kind))
  | consume kind => exact consume_onTheWay parser kind
  | expectEnd => exact ending_onTheWay parser.carries_follows.expectEnd
  | alternatives lookahead => exact ending_onTheWay (parser.carries_follows.alternatives lookahead)
  | check lookahead => exact ending_onTheWay (parser.check_follows lookahead)
  | rule name _ ih => exact ending_onTheWay (Parser.rule_follows name (ih honward))
  | optional lookahead _ ih =>
    exact ending_onTheWay
      (Parser.sequential_follows.optional (parser.check_follows lookahead) (ih honward))
  | many lookahead _ ih =>
    exact ending_onTheWay
      (Parser.sequential_follows.rounds (parser.check_follows lookahead) (ih honward) _)
  | seek _ | begin _ | run _ _ => exact honward.elim

end ParseProgram

/-- A program begins no source and takes up no position. However it ends, and whatever it looks at,
mismatches and swallows, from the end of one operation to the end of the next neither the offset nor
the count of committed tokens gets smaller. Each token that is committed is not empty and starts no
earlier than the one before it ends. The count grows by the number of these tokens. -/
theorem commits_in_order (parser : Parser) (program : ParseProgram α)
    (honward : program.Onward) (s : ParserState) :
    let r := program.survey parser s
    let milestones := journal r.records
    let tokens := milestones.filterMap Milestone.token
    (r.exit = (program.perform parser s).exit ∧ r.state = (program.perform parser s).state) ∧
      (s.offset :: milestones.map Milestone.offset ++ [r.state.offset]).Pairwise (· ≤ ·) ∧
      (s.consumed :: milestones.map Milestone.consumed ++ [r.state.consumed]).Pairwise (· ≤ ·) ∧
      (∀ t ∈ tokens, t.span.start < t.span.stop) ∧
      tokens.Pairwise (fun t u => t.span.stop ≤ u.span.start) ∧
      r.state.consumed = s.consumed + tokens.length := by
  intro r milestones tokens
  have hway : Passes s.offset s.consumed milestones r.state.offset r.state.consumed :=
    ParseProgram.survey_onTheWay parser program honward s
  obtain ⟨hahead, hordered, hcount⟩ := hway.tokens
  obtain ⟨hexit, hstate, -⟩ := ParseProgram.survey_reportsAs parser program s
  exact ⟨⟨hexit, hstate⟩, hway.sorted_offset, hway.sorted_consumed, fun t ht => (hahead t ht).2,
    hordered, hcount⟩

/-- A sum is read whose second operand is looked for in vain at first, and behind it a repetition
does not move on. -/
theorem commits_in_order_stalled :
    let sum : ParseProgram Unit := .rule "Sum" (.bind (.consume Ecma.numericLiteral) fun _ =>
      .bind (.attempt (.consume Ecma.identifier)) fun _ =>
      .bind (.many Ecma.additiveStart (.bind (.consume Ecma.plus) fun _ =>
        .consume Ecma.identifier)) fun _ =>
      .bind (.many Ecma.multiplicativeStart (.done (.ok ()))) fun _ => .done (.ok ()))
    let r := sum.survey Ecma.parser (.start "1 + x*y".toList)
    let milestones := journal r.records
    sum.Onward ∧ r.exit = .fault (.noProgress 5) ∧
      milestones.map Milestone.offset = [1, 2, 2, 3, 5, 5] ∧
      (milestones.filterMap Milestone.token).map Token.span = [⟨0, 1⟩, ⟨2, 3⟩, ⟨4, 5⟩] ∧
      r.state.consumed = 3 := by
  intro sum r milestones
  have honward : sum.Onward := by simp [sum, ParseProgram.Onward]
  have hrun : (r.exit, milestones.map Milestone.offset,
      (milestones.filterMap Milestone.token).map Token.span) =
        (.fault (.noProgress 5), [1, 2, 2, 3, 5, 5], [⟨0, 1⟩, ⟨2, 3⟩, ⟨4, 5⟩]) := by
    decide +kernel
  obtain ⟨hexit, hoffsets, hspans⟩ : _ ∧ _ ∧ _ := by
    simpa only [Prod.mk.injEq] using hrun
  have hr : sum.survey Ecma.parser (.start "1 + x*y".toList) = r := rfl
  have hthree : (milestones.filterMap Milestone.token).length = 3 := by
    rw [← List.length_map (f := Token.span), hspans]
    rfl
  obtain ⟨-, -, -, -, -, hcount⟩ := commits_in_order Ecma.parser sum honward
    (.start "1 + x*y".toList)
  rw [hr, hthree] at hcount
  exact ⟨honward, hexit, hoffsets, hspans, hcount⟩

end PredictiveParsing
