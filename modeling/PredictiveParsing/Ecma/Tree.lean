import PredictiveParsing.Token.Span
import PredictiveParsing.Text.Basic

/-!
# Syntax trees

Programs are lists of statements; expressions have numbers, names, regular expressions, four
operators and parentheses. Every node has the span of its text. The written form of a node
leaves out the given parentheses and puts its own around every operator.
-/

namespace PredictiveParsing.Ecma

/-- An operator between two expressions. -/
inductive BinaryOp where
  | add
  | sub
  | mul
  | div
  deriving DecidableEq

/-- The sign of an operator. -/
def BinaryOp.sign : BinaryOp → Char
  | .add => '+'
  | .sub => '-'
  | .mul => '*'
  | .div => '/'

/-- An expression. -/
inductive Expr where
  | number (text : Text) (span : Span)
  | regex (pattern flags : Text) (span : Span)
  | ident (name : Text) (span : Span)
  | binary (op : BinaryOp) (left right : Expr) (span : Span)
  | paren (inner : Expr) (span : Span)
  deriving DecidableEq

namespace Expr

/-- The span of an expression. -/
def span : Expr → Span
  | .number _ span => span
  | .regex _ _ span => span
  | .ident _ span => span
  | .binary _ _ _ span => span
  | .paren _ span => span

/-- The written form of an expression. -/
def render : Expr → Text
  | .number text _ => text
  | .regex pattern flags _ => '/' :: pattern ++ '/' :: flags
  | .ident name _ => name
  | .binary op left right _ => '(' :: left.render ++ [' ', op.sign, ' '] ++ right.render ++ [')']
  | .paren inner _ => inner.render

/-- The expression of operators that are applied from left to right. -/
def chain (first : Expr) (rest : List (BinaryOp × Expr)) : Expr :=
  rest.foldl (fun left (op, right) => .binary op left right (left.span.merge right.span)) first

end Expr

/-- A statement. -/
inductive Statement where
  | returned (value : Option Expr) (span : Span)
  | declared (name : Text) (init : Option Expr) (span : Span)
  | evaluated (expr : Expr) (span : Span)
  deriving DecidableEq

namespace Statement

/-- The span of a statement. -/
def span : Statement → Span
  | .returned _ span => span
  | .declared _ _ span => span
  | .evaluated _ span => span

/-- The written form of a statement. -/
def render : Statement → Text
  | .returned none _ => "return;".toList
  | .returned (some value) _ => "return ".toList ++ value.render ++ [';']
  | .declared name none _ => "var ".toList ++ name ++ [';']
  | .declared name (some init) _ => "var ".toList ++ name ++ " = ".toList ++ init.render ++ [';']
  | .evaluated expr _ => expr.render ++ [';']

end Statement

/-- A program. -/
structure Program where
  body : List Statement
  span : Span
  deriving DecidableEq

end PredictiveParsing.Ecma
