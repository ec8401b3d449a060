import PredictiveParsing.Effect.Fault

/-!
# Spans

A span is a pair of byte offsets. Nothing forces the end behind the start; only the length needs
that.

* `merge_self`, `merge_comm`, `merge_assoc`: covering is a semilattice.
-/

namespace PredictiveParsing

/-- Offsets are below this bound. -/
def offsetLimit : Nat := 0x100000000

/-- A number, or another one if it is too large for an offset. -/
def narrow (n other : Nat) : Nat := if n < offsetLimit then n else other

/-- The bytes from `start` up to `stop`. -/
structure Span where
  start : Nat
  stop : Nat
  deriving DecidableEq

/-- Why a range is no span: one of its ends is too large. -/
inductive RangeError where
  | start (value : Nat)
  | stop (value : Nat)
  deriving DecidableEq

/-- The text of a range error. -/
def RangeError.message : RangeError → String
  | .start value => s!"span start {value} exceeds u32::MAX"
  | .stop value => s!"span end {value} exceeds u32::MAX"

namespace Span

/-- The empty span at an offset. -/
def point (offset : Nat) : Span := ⟨offset, offset⟩

/-- The span of a range, whose ends have to be offsets; a start that is too large is found first. -/
def ofRange (start stop : Nat) : Except RangeError Span :=
  if offsetLimit ≤ start then .error (.start start)
  else if offsetLimit ≤ stop then .error (.stop stop)
  else .ok ⟨start, stop⟩

/-- The number of bytes; a span that ends before it starts has none. -/
def length (s : Span) : Except Fault Nat :=
  if s.stop < s.start then .error .reversedSpan else .ok (s.stop - s.start)

/-- Whether start and end coincide. -/
def isEmpty (s : Span) : Bool := s.start == s.stop

/-- The smallest span that covers both, if both end behind their starts. -/
def merge (s t : Span) : Span := ⟨min s.start t.start, max s.stop t.stop⟩

/-- The written form of a span. -/
def render (s : Span) : String := s!"{s.start}..{s.stop}"

@[simp] theorem merge_self (s : Span) : s.merge s = s := by simp [merge]

theorem merge_comm (s t : Span) : s.merge t = t.merge s := by
  simp [merge, Nat.min_comm, Nat.max_comm]

theorem merge_assoc (s t u : Span) : (s.merge t).merge u = s.merge (t.merge u) := by
  simp [merge, Nat.min_assoc, Nat.max_assoc]

end Span

end PredictiveParsing
