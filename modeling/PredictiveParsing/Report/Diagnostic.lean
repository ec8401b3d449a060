import PredictiveParsing.Text.Location
import PredictiveParsing.Token.Span

/-!
# Diagnostics

A diagnostic has a code, a message, labels at spans of the source, and notes. It is shown on one
line for the message, one for each label and one for each note, with spans either as they are or
as the line and column of their start.
-/

namespace PredictiveParsing

/-- What a diagnostic is about. -/
inductive ErrorCode where
  | unexpectedToken
  | unexpectedEnd
  deriving DecidableEq

namespace ErrorCode

/-- The code by which a kind of diagnostic is known. -/
def text : ErrorCode → String
  | .unexpectedToken => "E1001"
  | .unexpectedEnd => "E1002"

/-- The message if there is nothing more to say. -/
def title : ErrorCode → String
  | .unexpectedToken => "unexpected token"
  | .unexpectedEnd => "unexpected end of input"

end ErrorCode

/-- A remark about a part of the source. -/
structure Label where
  span : Span
  message : String
  deriving DecidableEq

/-- A report about a source. -/
structure Diagnostic where
  code : ErrorCode
  message : String
  labels : List Label := []
  notes : List String := []
  deriving DecidableEq

namespace Diagnostic

/-- The bare diagnostic of a code. -/
def ofCode (code : ErrorCode) : Diagnostic := { code, message := code.title }

/-- Replaces the message. -/
def withMessage (d : Diagnostic) (message : String) : Diagnostic := { d with message }

/-- Adds a label behind the others. -/
def withLabel (d : Diagnostic) (span : Span) (message : String) : Diagnostic :=
  { d with labels := d.labels ++ [⟨span, message⟩] }

/-- Adds a note behind the others. -/
def withNote (d : Diagnostic) (note : String) : Diagnostic :=
  { d with notes := d.notes ++ [note] }

/-- The diagnostic of a token that is none of the expected ones. -/
def unexpectedToken (span : Span) (expected found : String) : Diagnostic :=
  (ofCode .unexpectedToken).withMessage
      (ErrorCode.unexpectedToken.title ++ ": expected " ++ expected ++ ", found `" ++ found ++ "`")
    |>.withLabel span ("expected " ++ expected)

/-- The diagnostic of an input that ends too early. -/
def unexpectedEnd (span : Span) (expected : String) : Diagnostic :=
  (ofCode .unexpectedEnd).withMessage
      (ErrorCode.unexpectedEnd.title ++ ": expected " ++ expected)
    |>.withLabel span ("expected " ++ expected ++ " here")

/-- The first line. -/
def header (d : Diagnostic) : String :=
  "error [" ++ d.code.text ++ "]: " ++ d.message

/-- The lines of a diagnostic, given how a span is shown. -/
def lines (d : Diagnostic) (place : Span → String) : List String :=
  d.header :: d.labels.map (fun label => "  --> " ++ place label.span ++ ": " ++ label.message) ++
    d.notes.map ("  = note: " ++ ·)

/-- The text with spans as they are. -/
def display (d : Diagnostic) : String :=
  String.intercalate "\n" (d.lines Span.render)

/-- The text with the line and column at which each label starts. -/
def render (d : Diagnostic) (source : Text) : String :=
  let table := LineTable.ofText source
  String.intercalate "\n" <| d.lines fun span =>
    let location := table.locate source span.start
    s!"{location.line}:{location.column}"

end Diagnostic

end PredictiveParsing
