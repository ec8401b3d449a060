import PredictiveParsing.Lexicon.Basic
import PredictiveParsing.Report.Diagnostic

/-!
# Parse errors

A parse error says what was expected where, what was found there, and inside which rule. Its
message is made by a message builder, of which there are three.
-/

namespace PredictiveParsing

/-- Makes the message of a mismatch from the lexicon, what was expected, what was found, and the
rule. -/
abbrev MessageBuilder := Lexicon → List KindId → Token → Option String → String

namespace MessageBuilder

/-- The rule as the end of a sentence. -/
def whileParsing : Option String → String
  | none => ""
  | some rule => " while parsing " ++ rule

/-- A sentence that names what was expected and quotes what was found. -/
def standard : MessageBuilder := fun lexicon expected found rule =>
  "expected " ++ lexicon.describeExpected expected ++ ", found " ++
    (if found.isEndOfInput then "end of input" else "`" ++ found.string ++ "`") ++ whileParsing rule

/-- What was found and nothing else. -/
def terse : MessageBuilder := fun _ _ found _ => "bad `" ++ found.string ++ "`"

/-- All that is known, in the written forms of the parts. -/
def detailed : MessageBuilder := fun lexicon expected found rule =>
  String.intercalate "|"
    [toString lexicon.size,
     "[" ++ String.intercalate ", " (expected.map KindId.render) ++ "]",
     found.render,
     rule.elim "None" fun name => "Some(" ++ Text.quoted name.toList ++ ")"]

end MessageBuilder

/-- A token that was none of the expected ones. -/
structure ParseError where
  expected : List KindId
  found : Token
  rule : Option String
  message : String
  deriving DecidableEq

namespace ParseError

/-- The place of the error. -/
def span (e : ParseError) : Span := e.found.span

/-- Whether the input ended too early. -/
def isUnexpectedEnd (e : ParseError) : Bool := e.found.isEndOfInput

/-- The code of the error. -/
def code (e : ParseError) : ErrorCode :=
  if e.isUnexpectedEnd then .unexpectedEnd else .unexpectedToken

/-- The text of the error. -/
def display (e : ParseError) : String := e.message ++ " at " ++ e.span.render

/-- The diagnostic of the error, with the rule as a note. -/
def toDiagnostic (e : ParseError) (lexicon : Lexicon) : Diagnostic :=
  let expected := lexicon.describeExpected e.expected
  let bare :=
    if e.isUnexpectedEnd then Diagnostic.unexpectedEnd e.span expected
    else Diagnostic.unexpectedToken e.span expected e.found.string
  let told := bare.withMessage e.message
  match e.rule with
  | none => told
  | some rule => told.withNote ("while parsing " ++ rule)

end ParseError

end PredictiveParsing
