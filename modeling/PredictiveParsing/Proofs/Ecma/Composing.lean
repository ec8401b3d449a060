import PredictiveParsing.Ecma.Grammar
import PredictiveParsing.Proofs.Parse.Composing

/-!
# What holds of the grammar

A property of actions that a parser carries, and that holds of its commitments, holds of every
function of the grammar.

* `program_carried`: it holds of whole programs.
-/

namespace PredictiveParsing.Ecma

open PredictiveParsing.Parser

variable {μ : Type} {P : ∀ {α : Type}, ParseAction μ α → Prop} {parser : Parser}
  (h : parser.Carries P) (hconsume : ∀ kind, P (parser.consume kind))

include h hconsume

theorem primary_carried {nested : ParseAction μ Expr} (hnested : P nested) :
    P (primary parser nested) := by
  refine h.rule "Primary" (h.bind (h.alternatives primaryChoice) fun branch => ?_)
  split
  · exact h.bind (hconsume _) fun _ => h.pure _
  · exact h.bind (hconsume _) fun _ => h.pure _
  · exact h.bind (hconsume _) fun _ => h.pure _
  · exact h.bind (hconsume _) fun _ => h.bind hnested fun _ => h.bind (hconsume _) fun _ => h.pure _

theorem operator_carried (choice : AlternativeLookahead) (first second : KindId × BinaryOp) :
    P (operator parser choice first second) :=
  h.bind (h.alternatives choice) fun _ => h.bind (hconsume _) fun _ => h.pure _

omit hconsume in
theorem chained_carried {start : OptionalLookahead} {operator : ParseAction μ BinaryOp}
    {operand : ParseAction μ Expr} (hoperator : P operator) (hoperand : P operand) :
    P (chained parser start operator operand) := by
  refine h.bind hoperand fun first => h.bind (h.rounds (h.check start) ?_ _) fun rest => h.pure _
  exact h.bind hoperator fun op => h.bind hoperand fun e => h.pure (op, e)

theorem expression_carried (depth : Nat) : P (expression parser depth) := by
  induction depth with
  | zero => exact h.stop _
  | succ depth ih =>
    have hoperand : P (multiplicative parser (expression parser depth)) :=
      h.rule "Multiplicative"
        (chained_carried h (operator_carried h hconsume _ _ _) (primary_carried h hconsume ih))
    exact h.rule "Expression" (chained_carried h (operator_carried h hconsume _ _ _) hoperand)

theorem statement_carried (depth : Nat) : P (statement parser depth) := by
  have hexpression := expression_carried h hconsume depth
  refine h.rule "Statement" (h.bind (h.alternatives statementChoice) fun branch => ?_)
  split
  · refine h.rule "ReturnStatement" (h.bind (hconsume _) fun keyword => ?_)
    refine h.bind (h.optional (h.check _) hexpression) fun _ => ?_
    exact h.bind (hconsume _) fun _ => h.pure _
  · refine h.rule "VarStatement" (h.bind (hconsume _) fun keyword => ?_)
    refine h.bind (hconsume _) fun name => h.bind (h.optional (h.check _) ?_) fun _ => ?_
    · exact h.bind (hconsume _) fun _ => hexpression
    · exact h.bind (hconsume _) fun _ => h.pure _
  · refine h.rule "ExpressionStatement" (h.bind hexpression fun expr => ?_)
    exact h.bind (hconsume _) fun _ => h.pure _

theorem program_carried : P (program parser) := by
  refine h.rule "Program" (h.bind h.get fun s => ?_)
  refine h.bind (h.rounds (h.check _) (statement_carried h hconsume _) _) fun body => ?_
  exact h.bind h.expectEnd fun _ => h.pure _

end PredictiveParsing.Ecma
