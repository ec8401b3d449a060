import PredictiveParsing.Text.Basic
import PredictiveParsing.Text.Word

/-!
# Places and conditions on them

A cursor is a place in a text together with what can be seen from there. Expressions ask about the
start and the end of the text and of its lines, and about the edges of words.
-/

namespace PredictiveParsing

/-- A place in a text: the bytes and the character before it, and what follows. -/
structure Cursor where
  passed : Nat
  before : Option Char
  rest : Text
  deriving DecidableEq

namespace Cursor

/-- The cursor behind the next character `c`, which is followed by `rest`. -/
def past (p : Cursor) (c : Char) (rest : Text) : Cursor :=
  ⟨p.passed + c.utf8Size, some c, rest⟩

/-- Whether a word character stands directly before the cursor. -/
def wordBefore (p : Cursor) : Bool := p.before.any Text.isWordChar

/-- Whether a word character stands directly after the cursor. -/
def wordAfter (p : Cursor) : Bool := p.rest.head?.any Text.isWordChar

end Cursor

/-- A condition on a place. -/
inductive Assertion where
  | textStart
  | textEnd
  | lineStart
  | lineEnd
  | wordBoundary
  | noWordBoundary
  | wordStart
  | wordEnd
  deriving DecidableEq

/-- Whether a condition is met at a cursor. -/
def Assertion.holds : Assertion → Cursor → Bool
  | .textStart, p => p.before.isNone
  | .textEnd, p => p.rest.isEmpty
  | .lineStart, p => p.before.all (· == '\n')
  | .lineEnd, p => p.rest.head?.all (· == '\n')
  | .wordBoundary, p => p.wordBefore != p.wordAfter
  | .noWordBoundary, p => p.wordBefore == p.wordAfter
  | .wordStart, p => !p.wordBefore && p.wordAfter
  | .wordEnd, p => p.wordBefore && !p.wordAfter

end PredictiveParsing
