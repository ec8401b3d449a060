/-!
# Faults

A fault ends the work in hand because an assumption of the library was broken. It is not an
error of the text being parsed and is never repaired on the way out, except that guarded
positions are put back.
-/

namespace PredictiveParsing

/-- A broken assumption. -/
inductive Fault where
  /-- A source that is too long for offsets was to be scanned. -/
  | sourceTooLong (length : Nat)
  /-- An offset grew beyond every bound. -/
  | offsetOverflow
  /-- The position was to be moved behind the end of the source. -/
  | advancePastEnd
  /-- A text was to be cut inside a character. -/
  | cutInsideCharacter (index : Nat)
  /-- A position behind the end of the source was to be taken up. -/
  | positionOutOfBounds (position length : Nat)
  /-- A round of a repetition ended where it began. -/
  | noProgress (offset : Nat)
  /-- The length of a span that ends before it starts was asked for. -/
  | reversedSpan
  /-- The kind that a scanner watches for was matched. -/
  | tripwire
  /-- Rules call each other beyond every bound. -/
  | endlessNesting
  deriving DecidableEq

/-- The text of a fault. -/
def Fault.message : Fault → String
  | .sourceTooLong length => s!"source of {length} bytes exceeds the u32 offset space"
  | .offsetOverflow => "attempt to add with overflow"
  | .advancePastEnd => "advance past end of source"
  | .cutInsideCharacter index => s!"byte index {index} is not a char boundary"
  | .positionOutOfBounds position length => s!"position {position} out of bounds (max {length})"
  | .noProgress offset => s!"repetition body made no progress at offset {offset}"
  | .reversedSpan => "attempt to subtract with overflow"
  | .tripwire => "poisoned kind matched"
  | .endlessNesting => "rules are nested without end"

end PredictiveParsing
