import PredictiveParsing.Ecma.Grammar
import PredictiveParsing.Proofs.Parse.Following

/-!
# Whole parses begin anew

A whole parse puts the parser back before it reads anything, so what was parsed before, and how that
ended, makes no difference. The error that ends it is handed out with its output, and none is kept:
a program keeps no error by itself, and the whole parses inside it hand out theirs.

* `HandsOut`: where no error was kept, none is.
* `run_anew`: outputs and states of whole parses do not depend on what came before, unless the
  source is too long.
-/

namespace PredictiveParsing

open Text PredictiveParsing.Action

variable {μ α : Type}

/-- Where no error was kept before, none is kept behind. -/
def HandsOut (s : ParserState) (_ : List (Emission μ)) (t : ParserState) : Prop :=
  s.errors = [] → t.errors = []

instance : Steady Forward (HandsOut (μ := μ)) where
  refl _ := id
  trans hfirst hnext h := hnext (hfirst h)
  scan _ := id
  rules _ _ := id
  emit _ _ _ := id

namespace Parser

variable (parser : Parser)

theorem consume_handsOut (kind : KindId) :
    Follows HandsOut (parser.consume kind : ParseAction μ Token) := by
  refine .bind (scanOr_follows (fun m => mismatch_follows parser _ m.found)
    (parser.scanner.consume_follows kind)) fun token => ?_
  exact .bind (fun _ => id) fun _ => .bind (fun _ => id) fun _ => .pure token

theorem begin_handsOut (source : Text) :
    Follows HandsOut (Parser.begin source : ParseAction μ Unit) := by
  intro s hs
  by_cases hlen : byteLength source < offsetLimit
  · rw [begin_run hlen]
    rfl
  · rw [begin_of_long hlen]
    exact hs

end Parser

namespace ParseProgram

theorem noting_handsOut {deeds : Except ParseError α → List Deed} {x : ParseAction Deed α}
    (hx : Follows HandsOut x) : Follows HandsOut (noting deeds x) := by
  refine .bind hx.attempt ?_
  rintro (e | a)
  · exact .bind (fun _ => id) fun _ => .raise e
  · exact .bind (fun _ => id) fun _ => .pure a

theorem concluding_handsOut (result : Except ParseError α) :
    Follows HandsOut (concluding result : ParseAction μ (ParseOutput α)) := by
  cases result <;> exact fun _ _ => rfl

/-- Whatever a program does, an error that a whole parse inside it ends with is handed out. -/
theorem perform_handsOut (parser : Parser) (program : ParseProgram α) :
    Follows HandsOut (program.perform parser) := by
  induction program with
  | done exit => exact fun _ => id
  | bind _ _ ihFirst ihNext => exact .bind ihFirst ihNext
  | attempt _ ih => exact ih.attempt
  | state => exact .get
  | skip => exact Parser.scan_follows parser.scanner.skip_forward
  | tryMatch id => exact Parser.scan_follows (parser.scanner.tryMatch_forward id)
  | seek offset =>
    intro s hs
    rw [perform, Parser.scan_state]
    exact hs
  | consume kind => exact noting_handsOut (parser.consume_handsOut kind)
  | expectEnd => exact noting_handsOut parser.carries_follows.expectEnd
  | alternatives lookahead => exact noting_handsOut (parser.carries_follows.alternatives lookahead)
  | check lookahead => exact parser.check_follows lookahead
  | rule name _ ih =>
    exact .bind (fun _ => id) fun _ => noting_handsOut (Parser.rule_follows name ih)
  | optional lookahead _ ih =>
    exact Parser.sequential_follows.optional (parser.check_follows lookahead) ih
  | many lookahead _ ih =>
    exact Parser.sequential_follows.rounds (parser.check_follows lookahead) ih _
  | begin source => exact .bind (Parser.begin_handsOut source) fun _ _ => id
  | run source _ ih =>
    rw [perform_run]
    refine .bind ?_ fun _ => .bind ih.attempt concluding_handsOut
    exact .bind (Parser.begin_handsOut source) fun _ _ => id

end ParseProgram

/-- A whole parse of a source comes out the same in all states of a parser, and leaves it in the
same state. (A source that is too long for its offsets is refused, and all stays as it is.) Unless
it ends with a fault, it has either a value or one error, and the parser keeps no error. -/
theorem run_anew (parser : Parser) (source : Text) (entry : ParseProgram α)
    (s₁ s₂ : ParserState) :
    let r₁ := Parser.run source (entry.perform parser) s₁
    let r₂ := Parser.run source (entry.perform parser) s₂
    (if byteLength source < offsetLimit then r₁ = r₂ else
      r₁ = ⟨.fault (.sourceTooLong (byteLength source)), s₁, []⟩ ∧
        r₂ = ⟨.fault (.sourceTooLong (byteLength source)), s₂, []⟩) ∧
    ((∃ f, r₁.exit = .fault f) ∨ ∃ output, r₁.exit = .ok output ∧
      (output.value.isSome = true ↔ output.errors = []) ∧ output.errors.length ≤ 1 ∧
      r₁.state.errors = []) := by
  intro r₁ r₂
  by_cases hlen : byteLength source < offsetLimit
  · rw [if_pos hlen]
    have hkept := ParseProgram.perform_handsOut parser entry (Parser.started source) rfl
    rcases hrun : entry.perform parser (Parser.started source) with ⟨exit, t, records⟩
    rw [hrun] at hkept
    cases exit with
    | ok a =>
      have houtput := Parser.run_of_ok hlen hrun
      refine ⟨(houtput s₁).trans (houtput s₂).symm, Or.inr ⟨⟨some a, t.errors⟩, ?_⟩⟩
      rw [show r₁ = _ from houtput s₁, show t.errors = [] from hkept]
      exact ⟨rfl, by simp, by simp, rfl⟩
    | error e =>
      have houtput := Parser.run_of_error hlen hrun
      refine ⟨(houtput s₁).trans (houtput s₂).symm, Or.inr ⟨⟨none, t.errors ++ [e]⟩, ?_⟩⟩
      rw [show r₁ = _ from houtput s₁, show t.errors = [] from hkept]
      exact ⟨rfl, by simp, by simp, rfl⟩
    | fault f =>
      have houtput := Parser.run_of_fault hlen hrun
      exact ⟨(houtput s₁).trans (houtput s₂).symm, Or.inl ⟨f, congrArg Run.exit (houtput s₁)⟩⟩
  · rw [if_neg hlen]
    exact ⟨⟨Parser.run_eq_of_long hlen s₁, Parser.run_eq_of_long hlen s₂⟩,
      Or.inl ⟨_, Parser.run_of_long hlen s₁⟩⟩

/-- A fault left a rule open at another offset of another source. The next parse drops one error and
runs a whole parse of its own, which hands out a second one, before a third one ends it. -/
theorem run_anew_nested :
    let before : ParserState :=
      ((ParseProgram.rule "Far" (.seek 99)).perform Ecma.parser (.start ['x'])).state
    let entry : ParseProgram Token :=
      .rule "Outer" (.bind (.attempt (.consume Ecma.numericLiteral)) fun _ =>
        .bind (.run ['y'] (.rule "Inner" (.consume Ecma.semicolon))) fun _ =>
          .consume Ecma.numericLiteral)
    let parse (s : ParserState) := Parser.run ['z'] (entry.perform Ecma.parser) s
    let error : ParseError := ⟨[Ecma.numericLiteral], ⟨.error, ['y'], ⟨0, 1⟩⟩, none,
      "expected NumericLiteral, found \x60y\x60"⟩
    before.rules = ["Far"] ∧ byteLength ['z'] < offsetLimit ∧ parse before = parse (.start []) ∧
      (parse before).exit = .ok ⟨none, [error]⟩ ∧ (parse before).state.errors = [] := by
  intro before entry parse error
  have hopen : before.rules = ["Far"] := by decide +kernel
  have hlen : byteLength ['z'] < offsetLimit := by decide
  have hexit : (parse before).exit = .ok ⟨none, [error]⟩ := by decide +kernel
  obtain ⟨hsame, ⟨f, hfault⟩ | ⟨output, -, -, -, herrors⟩⟩ :=
    run_anew Ecma.parser ['z'] entry before (.start [])
  · cases hexit.symm.trans hfault
  · rw [if_pos hlen] at hsame
    exact ⟨hopen, hlen, hsame, hexit, herrors⟩

/-- A source that is too long for its offsets is refused before anything is put back. A parser with
a rule left open and a new one both end with the same fault, and stay as different as they were. -/
theorem run_anew_oversized :
    let before : ParserState :=
      ((ParseProgram.rule "Far" (.seek 99)).perform Ecma.parser (.start ['x'])).state
    let source : Text := List.replicate offsetLimit 'a'
    let parse (s : ParserState) := Parser.run source (ParseProgram.expectEnd.perform Ecma.parser) s
    (parse before).exit = .fault (.sourceTooLong offsetLimit) ∧
      (parse (.start [])).exit = .fault (.sourceTooLong offsetLimit) ∧
      (parse before).state.rules = ["Far"] ∧ (parse (.start [])).state.rules = [] ∧
      (parse before).state ≠ (parse (.start [])).state := by
  intro before source parse
  have hopen : before.rules = ["Far"] := by decide +kernel
  have hsize : byteLength source = offsetLimit :=
    (byteLength_replicate offsetLimit 'a').trans (Nat.mul_one offsetLimit)
  have hrefused (s : ParserState) : parse s = ⟨.fault (.sourceTooLong offsetLimit), s, []⟩ := by
    rw [← hsize]
    exact Parser.run_eq_of_long (by rw [hsize]; exact Nat.lt_irrefl _) s
  rw [hrefused, hrefused]
  refine ⟨rfl, rfl, hopen, rfl, fun hsame => ?_⟩
  have hrules := congrArg ParserState.rules hsame
  rw [show before.rules = ["Far"] from hopen] at hrules
  cases hrules

end PredictiveParsing
