import PredictiveParsing.Regex.Basic

/-!
# The size of the automaton of an expression

An expression is refused if its automaton would take too much memory. The automaton reads bytes, so
a class counts by the sequences of byte ranges into which UTF-8 divides its ranges; sequences with
a common start share the states for it.

* `byteSequences`: the sequences of byte ranges for a range of code points.
* `Regex.footprint`: the bytes that an automaton takes.
-/

namespace PredictiveParsing

/-- Divides the numbers from `first` to `last` by their digits to the base 64. Each part is a list
of ranges of digits, highest digit first, and has all numbers with digits in these ranges. The
number tells how many digits there are besides the highest one. -/
def digitSequences : Nat → Nat → Nat → List (List (Nat × Nat))
  | 0, first, last => [[(first, last)]]
  | n + 1, first, last =>
    let unit := 64 ^ (n + 1)
    let low := first / unit
    let high := last / unit
    if low = high then
      (digitSequences n (first % unit) (last % unit)).map ((low, low) :: ·)
    else
      let fromStart := first % unit = 0
      let toEnd := last % unit = unit - 1
      let head :=
        if fromStart then []
        else (digitSequences n (first % unit) (unit - 1)).map ((low, low) :: ·)
      let tail :=
        if toEnd then [] else (digitSequences n 0 (last % unit)).map ((high, high) :: ·)
      let inner := (if fromStart then low else low + 1, if toEnd then high else high - 1)
      let middle :=
        if inner.1 ≤ inner.2 then [inner :: List.replicate (n + 1) (0, 63)] else []
      head ++ middle ++ tail

/-- The code points that take the same number of bytes in UTF-8, with the number of bytes behind the
first one and what is added to the highest digit in the first one. -/
def codeBlocks : List (Nat × Nat × Nat × Nat) :=
  [(0x0, 0x7f, 0, 0x0), (0x80, 0x7ff, 1, 0xc0), (0x800, 0xd7ff, 2, 0xe0), (0xe000, 0xffff, 2, 0xe0),
   (0x10000, 0x10ffff, 3, 0xf0)]

/-- The sequences of byte ranges that together are the UTF-8 forms of a range of code points. Bytes
behind the first one are given without their mark. -/
def byteSequences (range : Nat × Nat) : List (List (Nat × Nat)) :=
  codeBlocks.flatMap fun (low, high, following, mark) =>
    let first := max range.1 low
    let last := min range.2 high
    if last < first then []
    else (digitSequences following first last).map fun
      | (a, b) :: rest => (mark + a, mark + b) :: rest
      | [] => []

/-- How many places two lists have in common at their start. -/
def commonLength : List (Nat × Nat) → List (Nat × Nat) → Nat
  | a :: as, b :: bs => if a = b then commonLength as bs + 1 else 0
  | _, _ => 0

/-- The number of states for sequences in order, behind a sequence that has its states already. -/
def sequenceStates : List (Nat × Nat) → List (List (Nat × Nat)) → Nat
  | _, [] => 0
  | previous, next :: rest =>
    next.length - commonLength next previous + sequenceStates next rest

/-- The bytes that one state takes. -/
def stateSize : Nat := 32

/-- The bytes that the states for one character of a class take. Classes within ASCII need a single
state with a table. -/
def CharClass.footprint (k : CharClass) : Nat :=
  if k.ranges.all (·.2 < 0x80) then 2 * stateSize + 8 * k.ranges.length
  else
    let sequences := k.ranges.flatMap byteSequences
    2 * stateSize + stateSize * sequenceStates [] sequences + 4 * sequences.length

namespace Regex

/-- The bytes that the automaton of an expression takes. A state with several ways on takes four
bytes more for each of them. -/
def footprint : Regex → Nat
  | .empty => stateSize
  | .literal text => stateSize * Text.byteLength text
  | .chars k => k.footprint
  | .look _ => stateSize
  | .group _ r => r.footprint + 2 * stateSize
  | .seq r s => r.footprint + s.footprint
  | .alt r s =>
    r.footprint + s.footprint + (match s with | .alt _ _ => 4 | _ => 2 * stateSize + 8)
  | .repeat r low high _ =>
    let fork := stateSize + 8
    match low, high with
    | 0, none =>
      if r.minLength.any (0 < ·) then r.footprint + fork else r.footprint + 2 * fork + stateSize
    | low, none => low * r.footprint + fork
    | low, some high =>
      if low = high then low * r.footprint
      else high * r.footprint + (high - low) * fork + stateSize

/-- The states that every automaton has. -/
def frameFootprint : Nat := 4 * stateSize

/-- The greatest number of bytes that an automaton may take. -/
def footprintLimit : Nat := 10 * 1024 * 1024

/-- Whether the automaton of an expression is small enough. -/
def fits (r : Regex) : Bool := frameFootprint + r.footprint ≤ footprintLimit

end Regex

end PredictiveParsing
