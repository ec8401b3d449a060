import PredictiveParsing.Regex.Engine
import PredictiveParsing.Token.Basic

/-!
# Definitions of token kinds

A kind is defined by a name, a rule and two flags. The rule is a literal, a pattern, or a
keyword with a pattern for the characters of words: a keyword matches only where no longer word
does. Rules are written out as patterns, a literal with its special characters escaped, and matched
by an engine.
-/

namespace PredictiveParsing

/-- What the text of a token kind looks like. -/
inductive Rule where
  | literal (text : Text)
  | pattern (p : Text)
  | keyword (text word : Text)
  deriving DecidableEq

/-- Puts a backslash before each character that has a meaning in patterns. -/
def escapeText (text : Text) : Text :=
  text.flatMap fun c => if c ∈ "\\.+*?()|[]\x7b\x7d^$#&-~".toList then ['\\', c] else [c]

namespace Rule

/-- The rule as a pattern. A keyword also takes in the rest of a longer word. -/
def body : Rule → Text
  | .literal text => escapeText text
  | .pattern p => p
  | .keyword text word => escapeText text ++ "(?:".toList ++ word ++ ")*".toList

/-- The rule as a pattern that is to match at the front. -/
def anchored (rule : Rule) : Text :=
  "\\A(?:".toList ++ rule.body ++ ")".toList

/-- The text that has to be matched, if the rule gives it. -/
def fixedText : Rule → Option Text
  | .literal text => some text
  | .pattern _ => none
  | .keyword text _ => some text

/-- The length that a match has to have, if the rule gives one. -/
def exactLength : Rule → Option Nat
  | .keyword text _ => some (Text.byteLength text)
  | _ => none

end Rule

/-- How a kind is treated. -/
structure KindFlags where
  /-- Tokens of the kind are passed over between others. -/
  skipped : Bool := false
  /-- Tokens of the kind may hold line breaks. -/
  lineBreaks : Bool := false
  deriving DecidableEq

/-- The definition of a token kind. -/
structure KindDefinition where
  name : String
  rule : Rule
  flags : KindFlags := {}
  deriving DecidableEq

/-- A token kind of a lexicon: its definition, its number and what matches it. -/
structure Kind (M : Type := Matcher) extends KindDefinition where
  id : KindId
  matcher : M
  deriving DecidableEq

namespace Kind

/-- The bytes that a token of the kind takes at the front of a text. It takes at least one. -/
def matchLength {M : Type} [Engine M] (kind : Kind M) (text : Text) : Option Nat :=
  (Engine.find kind.matcher text).bind fun found =>
    if 0 < found.stop ∧ kind.rule.exactLength.all (· = found.stop) then some found.stop else none

end Kind

end PredictiveParsing
