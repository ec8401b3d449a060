import PredictiveParsing.Token.Basic

/-!
# Events

Scanning and parsing report what they do as events. Each event has a level and named fields; the
field that says what happened comes first.
-/

namespace PredictiveParsing

/-- The weight of an event. -/
inductive Level where
  | warn
  | debug
  | trace
  deriving DecidableEq

/-- The written form of a level. -/
def Level.text : Level → String
  | .warn => "WARN"
  | .debug => "DEBUG"
  | .trace => "TRACE"

/-- The value of a field. -/
inductive FieldValue where
  | text (s : String)
  | number (n : Nat)
  | flag (b : Bool)
  deriving DecidableEq

/-- Something that happened. -/
inductive Event where
  /-- A kind that is not meant to hold line breaks matched one. -/
  | lineBreak (kind : String) (start : Nat)
  /-- A kind matched. -/
  | matched (kind : String) (span : Span)
  /-- The candidates at an offset were tried. -/
  | probed (offset : Nat) (candidate : Option KindId)
  /-- The branches at an offset were tried. -/
  | branched (offset : Nat) (branch : Option Nat)
  /-- A token was committed. -/
  | consumed (kind : String) (span : Span)
  /-- A rule began. -/
  | entered (rule : String) (offset : Nat)
  /-- A rule ended. -/
  | exited (rule : String) (ok : Bool)
  /-- A token was none of the expected ones. -/
  | mismatched (rule : Option String) (offset : Nat) (message : String)
  deriving DecidableEq

namespace Event

/-- The weight of an event. -/
def level : Event → Level
  | .lineBreak _ _ => .warn
  | .mismatched _ _ _ => .debug
  | _ => .trace

/-- The written form of something that may be missing. -/
def renderOption {α : Type} (render : α → String) : Option α → String
  | none => "None"
  | some a => "Some(" ++ render a ++ ")"

/-- The fields of an event, in order. -/
def fields : Event → List (String × FieldValue)
  | .lineBreak kind start =>
    [("message", .text "token kind without LINE_BREAKS matched a line break"),
     ("kind", .text kind), ("start", .number start)]
  | .matched kind span =>
    [("message", .text "match"), ("kind", .text kind),
     ("start", .number span.start), ("end", .number span.stop)]
  | .probed offset candidate =>
    [("message", .text "optional lookahead"), ("offset", .number offset),
     ("candidate", .text (renderOption KindId.render candidate))]
  | .branched offset branch =>
    [("message", .text "alternative lookahead"), ("offset", .number offset),
     ("branch", .text (renderOption toString branch))]
  | .consumed kind span =>
    [("message", .text "consume"), ("kind", .text kind),
     ("start", .number span.start), ("end", .number span.stop)]
  | .entered rule offset =>
    [("message", .text "enter"), ("rule", .text rule), ("offset", .number offset)]
  | .exited rule ok =>
    [("message", .text "exit"), ("rule", .text rule), ("ok", .flag ok)]
  | .mismatched rule offset message =>
    [("message", .text "mismatch"), ("rule", .text (rule.getD "<none>")),
     ("offset", .number offset), ("message", .text message)]

end Event

end PredictiveParsing
