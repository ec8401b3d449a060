import PredictiveParsing.Text.Quoted
import PredictiveParsing.Token.Span

/-!
# Token kinds and tokens

A lexicon numbers its kinds from zero. The two greatest numbers are reserved for what is not in a
lexicon: text that no kind accounts for, and the end of the input as something expected.
-/

namespace PredictiveParsing

/-- The number of a token kind. -/
structure KindId where
  index : Nat
  deriving DecidableEq

namespace KindId

/-- The kind of text that no kind accounts for. -/
def error : KindId := ⟨0xffffffff⟩

/-- The end of the input, as something expected. -/
def eof : KindId := ⟨0xfffffffe⟩

/-- The number of the kind with an index. An index that is too large has a reserved one. -/
def ofIndex (index : Nat) : KindId := ⟨narrow index error.index⟩

/-- Whether a number is reserved. -/
def isReserved (k : KindId) : Bool := eof.index ≤ k.index

/-- The written form of a number. -/
def render (k : KindId) : String :=
  if k = error then "TokenKindId(<error>)"
  else if k = eof then "TokenKindId(<eof>)"
  else s!"TokenKindId({k.index})"

end KindId

/-- A piece of a source with its kind and place. -/
structure Token where
  kind : KindId
  text : Text
  span : Span
  deriving DecidableEq

namespace Token

/-- Whether no kind accounts for the text. -/
def isError (t : Token) : Bool := t.kind = KindId.error

/-- Whether the token stands for the end of the input, where there is no text left. -/
def isEndOfInput (t : Token) : Bool := t.isError && t.span.isEmpty

/-- The text as a string. -/
def string (t : Token) : String := String.ofList t.text

/-- The written form of a token. -/
def render (t : Token) : String :=
  t.kind.render ++ " " ++ Text.quoted t.text ++ " @ " ++ t.span.render

end Token

end PredictiveParsing
