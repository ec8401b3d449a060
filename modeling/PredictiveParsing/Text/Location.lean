import PredictiveParsing.Text.Basic
import PredictiveParsing.Token.Span

/-!
# Lines and columns

A line table holds the offsets at which lines start. An offset is located by the last line start
at or before it, which is found by halving the table; the column counts characters, not bytes.
Numbers of lines and columns are of the size of offsets, and so are the entries of the table: what
is too large is replaced by the greatest number that fits.
-/

namespace PredictiveParsing

/-! ## Searching -/

/-- Where a number stands among others that ascend. -/
inductive Standing where
  /-- It is the one at an index. -/
  | found (index : Nat)
  /-- It is none of them and would have to be inserted at an index. -/
  | missing (index : Nat)
  deriving DecidableEq

/-- Where a number stands among others that ascend, if it stands between two of their indices. -/
def search (numbers : List Nat) (n low high : Nat) (h : high ≤ numbers.length) : Standing :=
  if _hlt : low < high then
    let middle := low + (high - low) / 2
    have _hmiddle : middle < numbers.length := by omega
    if numbers[middle] = n then .found middle
    else if numbers[middle] < n then search numbers n (middle + 1) high h
    else search numbers n low middle (by omega)
  else .missing low
termination_by high - low

/-! ## Tables -/

/-- A line and a column, both counted from one. -/
structure Location where
  line : Nat
  column : Nat
  deriving DecidableEq

/-- The offsets at which the lines of a text start, in order. -/
structure LineTable where
  starts : List Nat
  deriving DecidableEq

namespace LineTable

/-- The offsets behind the line feeds of a text that starts at an offset. -/
def startsBehind (offset : Nat) : Text → List Nat
  | [] => []
  | c :: rest =>
    let next := offset + c.utf8Size
    if c = '\n' then next :: startsBehind next rest else startsBehind next rest

/-- The table of a text. -/
def ofText (text : Text) : LineTable :=
  ⟨0 :: (startsBehind 0 text).map (narrow · (offsetLimit - 1))⟩

/-- The table without lines. -/
def empty : LineTable := ⟨[]⟩

/-- The index of the line of an offset. What stands before the first line counts as part of it. -/
def lineIndex (table : LineTable) (offset : Nat) : Nat :=
  match search table.starts offset 0 table.starts.length (Nat.le_refl _) with
  | .found index => index
  | .missing index => index - 1

/-- The line of an offset. -/
def line (table : LineTable) (offset : Nat) : Nat :=
  narrow (table.lineIndex offset) (offsetLimit - 2) + 1

/-- The offset at which a line starts, or zero for a line that is not in the table. -/
def lineStart (table : LineTable) (line : Nat) : Nat :=
  table.starts[line - 1]?.getD 0

/-- The location of an offset in a source. An offset behind the end counts as the end. The column
is one if the line's text up to the offset cannot be cut out of the source. -/
def locate (table : LineTable) (source : Text) (offset : Nat) : Location :=
  let line := table.line offset
  let start := table.lineStart line
  let stop := max (min offset (Text.byteLength source)) start
  let text := (Text.slice source start stop).getD []
  ⟨line, narrow text.length (offsetLimit - 2) + 1⟩

end LineTable

end PredictiveParsing
