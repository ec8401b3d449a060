/-!
# Tables of code point ranges

A property of characters is stored as the list of the closed ranges of code points that have it.

* `inRanges_iff`: membership is membership in one of the ranges.
-/

namespace PredictiveParsing.Text

/-- Whether the code point of `c` lies in one of the closed ranges. -/
def inRanges (ranges : List (Nat × Nat)) (c : Char) : Bool :=
  ranges.any fun range => range.1 ≤ c.toNat && c.toNat ≤ range.2

theorem inRanges_iff {ranges : List (Nat × Nat)} {c : Char} :
    inRanges ranges c = true ↔
      ∃ range ∈ ranges, range.1 ≤ c.toNat ∧ c.toNat ≤ range.2 := by
  simp [inRanges]

end PredictiveParsing.Text
