import PredictiveParsing.Effect.Action
import PredictiveParsing.Token.Span
import PredictiveParsing.Text.Basic

/-!
# Positions in a source

A store holds a source and an offset into it. Positions are taken out of a store and put back;
one behind the end of the source is refused. An offset inside a character leaves no text to
read. A source has to be short enough for its offsets.
-/

namespace PredictiveParsing

/-- A source and the offset reached in it. -/
structure Store where
  source : Text
  offset : Nat := 0
  deriving DecidableEq

namespace Store

/-- The text from the offset on. -/
def remaining (s : Store) : Text := (Text.dropBytes? s.source s.offset).getD []

/-- Whether the offset has reached the end of the source. -/
def atEnd (s : Store) : Bool := Text.byteLength s.source ≤ s.offset

/-- The character at the offset. -/
def current? (s : Store) : Option Char := s.remaining.head?

variable {ρ ε : Type}

/-- Starts on a source. -/
def begin (source : Text) : Action ρ Store ε Unit := fun s =>
  if Text.byteLength source < offsetLimit then ⟨.ok (), { source }, []⟩
  else ⟨.fault (.sourceTooLong (Text.byteLength source)), s, []⟩

/-- Moves on by the bytes of text that was matched. -/
def advance (length : Nat) : Action ρ Store ε Unit := fun s =>
  if offsetLimit ≤ s.offset + length then ⟨.fault .offsetOverflow, s, []⟩
  else if Text.byteLength s.source < s.offset + length then ⟨.fault .advancePastEnd, s, []⟩
  else ⟨.ok (), { s with offset := s.offset + length }, []⟩

/-- Takes up a position in the source. -/
def seek (position : Nat) : Action ρ Store ε Unit := fun s =>
  if position ≤ Text.byteLength s.source then ⟨.ok (), { s with offset := position }, []⟩
  else ⟨.fault (.positionOutOfBounds position (Text.byteLength s.source)), s, []⟩

/-- Runs a body and then takes up the position from before it, however the body ended. -/
def keepingPosition {α : Type} (body : Action ρ Store ε α) : Action ρ Store ε α := fun s =>
  Action.ensuring body (seek s.offset) s

end Store

end PredictiveParsing
