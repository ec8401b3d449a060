import PredictiveParsing.Ecma.Lexicon
import PredictiveParsing.Ecma.Tree
import PredictiveParsing.Parse.Parser

/-!
# The grammar of the language

A program is a sequence of statements; multiplication binds tighter than addition, and both
group to the left. Every choice is made by the next token, so a slash is an operator behind an
operand and begins a regular expression elsewhere.

* `parse`: the program of a source, or the error that stands in its way.
-/

namespace PredictiveParsing.Ecma

variable {μ : Type}

/-- The body and the flags of a regular expression, which its last slash divides. -/
def splitRegex (text : Text) : Text × Text :=
  match text.reverse.dropWhile (· != '/') with
  | _ :: body@(_ :: _) => (body.reverse.drop 1, (text.reverse.takeWhile (· != '/')).reverse)
  | _ => (text, [])

/-- An operand; `nested` parses what stands between parentheses. -/
def primary (parser : Parser) (nested : ParseAction μ Expr) : ParseAction μ Expr :=
  Parser.rule "Primary" do
    match ← parser.alternatives primaryChoice with
    | 0 =>
      let token ← parser.consume numericLiteral
      return .number token.text token.span
    | 1 =>
      let token ← parser.consume regexLiteral
      let (pattern, flags) := splitRegex token.text
      return .regex pattern flags token.span
    | 2 =>
      let token ← parser.consume identifier
      return .ident token.text token.span
    | _ =>
      let first ← parser.consume leftParen
      let inner ← nested
      let last ← parser.consume rightParen
      return .paren inner (first.span.merge last.span)

/-- The first of two operators if the choice falls on the first branch, and else the second. -/
def operator (parser : Parser) (choice : AlternativeLookahead)
    (first second : KindId × BinaryOp) : ParseAction μ BinaryOp := do
  let (kind, op) := if (← parser.alternatives choice) = 0 then first else second
  let _ ← parser.consume kind
  return op

/-- Operands with operators between them, grouped to the left. -/
def chained (parser : Parser) (start : OptionalLookahead) (operator : ParseAction μ BinaryOp)
    (operand : ParseAction μ Expr) : ParseAction μ Expr := do
  let first ← operand
  let rest ← parser.many start do
    let op ← operator
    return (op, ← operand)
  return first.chain rest

/-- Operands that are multiplied and divided. -/
def multiplicative (parser : Parser) (nested : ParseAction μ Expr) : ParseAction μ Expr :=
  Parser.rule "Multiplicative" <|
    chained parser multiplicativeStart
      (operator parser multiplicativeChoice (star, .mul) (slash, .div)) (primary parser nested)

/-- An expression in which parentheses may be nested less deep than the number says. -/
def expression (parser : Parser) : Nat → ParseAction μ Expr
  | 0 => Action.stop .endlessNesting
  | depth + 1 => fun s =>
    Parser.rule "Expression"
      (chained parser additiveStart
        (operator parser additiveChoice (plus, .add) (minus, .sub))
        (multiplicative parser (expression parser depth))) s

/-- A return statement. -/
def returnStatement (parser : Parser) (depth : Nat) : ParseAction μ Statement :=
  Parser.rule "ReturnStatement" do
    let keyword ← parser.consume returnKeyword
    let value ← parser.optional expressionStart (expression parser depth)
    let last ← parser.consume semicolon
    return .returned value (keyword.span.merge last.span)

/-- A declaration. -/
def varStatement (parser : Parser) (depth : Nat) : ParseAction μ Statement :=
  Parser.rule "VarStatement" do
    let keyword ← parser.consume varKeyword
    let name ← parser.consume identifier
    let init ← parser.optional initializerStart do
      let _ ← parser.consume equals
      expression parser depth
    let last ← parser.consume semicolon
    return .declared name.text init (keyword.span.merge last.span)

/-- An expression as a statement. -/
def expressionStatement (parser : Parser) (depth : Nat) : ParseAction μ Statement :=
  Parser.rule "ExpressionStatement" do
    let expr ← expression parser depth
    let last ← parser.consume semicolon
    return .evaluated expr (expr.span.merge last.span)

/-- A statement. -/
def statement (parser : Parser) (depth : Nat) : ParseAction μ Statement :=
  Parser.rule "Statement" do
    match ← parser.alternatives statementChoice with
    | 0 => returnStatement parser depth
    | 1 => varStatement parser depth
    | _ => expressionStatement parser depth

/-- A program. Parentheses cannot be nested deeper than the source is long. -/
def program (parser : Parser) : ParseAction μ Program :=
  Parser.rule "Program" do
    let s ← Action.get
    let depth := Text.byteLength s.store.source + 1
    let body ← parser.many statementStart (statement parser depth)
    parser.expectEnd
    return ⟨body, ⟨s.offset, body.getLast?.elim s.offset (·.span.stop)⟩⟩

/-- The parser of the language. -/
def parser (config : ScanConfig := {}) (messages : MessageBuilder := .standard) : Parser :=
  { scanner := { lexicon, config }, messages }

/-- The program of a source, by a parser of the language in whatever state. -/
def parseWith (parser : Parser) (source : Text) : ParseAction μ (ParseOutput Program) :=
  Parser.run source (program parser)

/-- The program of a source, by a new parser of the language. -/
def parse (source : Text) (config : ScanConfig := {}) (messages : MessageBuilder := .standard) :
    Run (Emission Empty) ParserState ParseError (ParseOutput Program) :=
  parseWith (parser config messages) source (ParserState.start [])

end PredictiveParsing.Ecma
