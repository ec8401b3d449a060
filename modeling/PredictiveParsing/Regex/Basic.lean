import PredictiveParsing.Regex.Assertion
import PredictiveParsing.Regex.CharClass

/-!
# Regular expressions in reduced form

An expression is built up by functions that reduce it on the way. Sequences and choices are flat,
neighbouring literals are one literal, a choice between characters is a class, and a repetition of
the empty text is no repetition. The branches of a choice that all begin with the same expressions
are joined behind them: `x*a|x*b` becomes `x*(?:a|b)`.

The last rule is more than a matter of size. Branches are tried in order, so `x*a|x*b` as written
would try a shorter `x*` with `a` before a longer one with `b`; reduced, the longer one comes first.
Expressions are matched in reduced form.

* `concat`, `alternation`, `repeated`: the building functions.
* `minLength`, `maxLength`: bounds on the bytes of a match.
-/

namespace PredictiveParsing

/-- A regular expression. -/
inductive Regex where
  /-- The empty text. -/
  | empty
  /-- A text of at least one character. -/
  | literal (text : Text)
  /-- One character of a class. -/
  | chars (k : CharClass)
  /-- The empty text where a condition is met. -/
  | look (a : Assertion)
  /-- An expression in parentheses that count; no two groups have the same number. -/
  | group (number : Nat) (r : Regex)
  /-- One expression and then another. -/
  | seq (r s : Regex)
  /-- One expression or, less preferred, another. -/
  | alt (r s : Regex)
  /-- At least `low` rounds, and no more than `high` if there is such a bound. -/
  | repeat (r : Regex) (low : Nat) (high : Option Nat) (greedy : Bool)
  deriving DecidableEq

namespace Regex

/-! ## Bounds on the length of matches -/

/-- The bytes of a code point in UTF-8. -/
def codeLength (n : Nat) : Nat :=
  if n < 0x80 then 1 else if n < 0x800 then 2 else if n < 0x10000 then 3 else 4

/-- The least number of bytes that a match takes; nothing where an empty class is in the way. -/
def minLength : Regex → Option Nat
  | .empty => some 0
  | .literal text => some (Text.byteLength text)
  | .chars k => k.ranges.head?.map (codeLength ·.1)
  | .look _ => some 0
  | .group _ r => r.minLength
  | .seq r s => do return (← r.minLength) + (← s.minLength)
  | .alt r s => do return min (← r.minLength) (← s.minLength)
  | .repeat r low _ _ => r.minLength.map (low * ·)

/-- The greatest number of bytes that a match takes; nothing where there is no bound or an empty
class is in the way. -/
def maxLength : Regex → Option Nat
  | .empty => some 0
  | .literal text => some (Text.byteLength text)
  | .chars k => k.ranges.getLast?.map (codeLength ·.2)
  | .look _ => some 0
  | .group _ r => r.maxLength
  | .seq r s => do return (← r.maxLength) + (← s.maxLength)
  | .alt r s => do return max (← r.maxLength) (← s.maxLength)
  | .repeat r _ high _ => do return (← high) * (← r.maxLength)

/-! ## Sequences -/

/-- The expressions that a sequence consists of. -/
def factors : Regex → List Regex
  | .empty => []
  | .seq r s => r :: s.factors
  | r => [r]

/-- Puts an expression before others; two literals become one. -/
def prepend : Regex → List Regex → List Regex
  | .literal t, .literal u :: rest => .literal (t ++ u) :: rest
  | r, rest => r :: rest

/-- The sequence of some factors. -/
def ofFactors : List Regex → Regex
  | [] => .empty
  | [r] => r
  | r :: rest => .seq r (ofFactors rest)

/-- Expressions one after the other. -/
def concat (rs : List Regex) : Regex :=
  ofFactors ((rs.flatMap factors).foldr prepend [])

/-! ## Choices -/

/-- One character of a class, which is a literal if the class has just one. -/
def ofClass (k : CharClass) : Regex :=
  match k.single? with
  | some c => .literal [c]
  | none => .chars k

/-- The expressions that a choice is made between, most preferred first. -/
def branches : Regex → List Regex
  | .alt r s => r :: s.branches
  | r => [r]

/-- The choice between some branches; none of none. -/
def ofBranches : List Regex → Regex
  | [] => .chars CharClass.none
  | [r] => r
  | r :: rest => .alt r (ofBranches rest)

/-- The character of a literal of one character. -/
def char? : Regex → Option Char
  | .literal [c] => some c
  | _ => none

/-- The class of an expression that is one. -/
def class? : Regex → Option CharClass
  | .chars k => some k
  | _ => none

/-- The class of all characters that branches stand for, if each of them is a character or each of
them is a class. -/
def jointClass (rs : List Regex) : Option CharClass :=
  match rs.mapM char? with
  | some cs => some (cs.foldl (fun k c => k.union (CharClass.singleton c)) CharClass.none)
  | none => (rs.mapM class?).map fun ks => ks.foldl CharClass.union CharClass.none

/-- The choice between branches, none of which is a choice itself. -/
def choose (rs : List Regex) : Regex :=
  if rs.length < 2 then ofBranches rs
  else
    match jointClass rs with
    | some k => ofClass k
    | none => ofBranches rs

/-- The expressions with which two lists begin alike. -/
def commonStart : List Regex → List Regex → List Regex
  | r :: rs, s :: ss => if r = s then r :: commonStart rs ss else []
  | _, _ => []

/-- The factors of a sequence of two or more. -/
def sequence? : Regex → Option (List Regex)
  | .seq r s => some (r :: s.factors)
  | _ => none

/-- The factors with which all of two or more sequences begin, and how each of them goes on. -/
def liftStart (rs : List Regex) : Option (List Regex × List (List Regex)) :=
  match rs.mapM sequence? with
  | some (first :: second :: rest) =>
    let start := (second :: rest).foldl commonStart first
    if start.isEmpty then none
    else some (start, (first :: second :: rest).map (·.drop start.length))
  | _ => none

/-- The first of some expressions, or else a later one. -/
def alternation (rs : List Regex) : Regex :=
  let flat := rs.flatMap branches
  match jointClass flat, liftStart flat with
  | none, some (start, ends) =>
    concat (start ++ [choose ((ends.map concat).flatMap branches)])
  | _, _ => choose flat

/-! ## Repetitions -/

/-- At least `low` rounds, and no more than `high` if there is such a bound. Of rounds that cannot
match anything but the empty text one is enough. -/
def repeated (r : Regex) (low : Nat) (high : Option Nat) (greedy : Bool) : Regex :=
  let (low, high) :=
    if r.maxLength = some 0 then (min low 1, some ((high.map (min · 1)).getD 1)) else (low, high)
  if low = 0 ∧ high = some 0 then .empty
  else if low = 1 ∧ high = some 1 then r
  else .repeat r low high greedy

end Regex

end PredictiveParsing
