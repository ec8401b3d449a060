import PredictiveParsing.Regex.Basic

/-!
# Expressions with their choices numbered

Before an expression is matched its repetitions are written out: `x{2,4}` is `xx(?:x(?:x)?)?`, and
`x+` is `x` with a loop behind it that may go round again. Every place at which a match can go on
in more than one way, and every place at which it reads a character, has a label of its own.

* `ofRegex`: the code of an expression.
-/

namespace PredictiveParsing

/-- An expression in which repetitions are loops and places have labels. -/
inductive Code where
  | empty
  /-- One character of a class. -/
  | chars (label : Nat) (k : CharClass)
  /-- The empty text where a condition is met. -/
  | look (a : Assertion)
  /-- One part and then another. -/
  | seq (r s : Code)
  /-- One part or, less preferred, another. -/
  | fork (label : Nat) (r s : Code)
  /-- Any number of rounds; one more is preferred if the loop is greedy. -/
  | loop (label : Nat) (r : Code) (greedy : Bool)
  deriving DecidableEq

namespace Code

/-- The next label. -/
def fresh : StateM Nat Nat := modifyGet fun n => (n, n + 1)

/-- One part and then another. -/
def andThen : Code → Code → Code
  | .empty, s => s
  | r, .empty => r
  | r, s => .seq r s

/-- A part or nothing. -/
def optional (label : Nat) (r : Code) (greedy : Bool) : Code :=
  if greedy then .fork label r .empty else .fork label .empty r

/-- The characters of a text one after the other. -/
def ofText : Text → StateM Nat Code
  | [] => pure .empty
  | c :: rest => do
    let first := Code.chars (← fresh) (CharClass.singleton c)
    return first.andThen (← ofText rest)

/-- A number of copies before a last part. -/
def copies (body : StateM Nat Code) : Nat → Code → StateM Nat Code
  | 0, last => pure last
  | n + 1, last => do
    let first ← body
    copies body n (first.andThen last)

/-- At most a number of copies before a last part, each asked for only after the one before it. -/
def upTo (body : StateM Nat Code) (greedy : Bool) : Nat → Code → StateM Nat Code
  | 0, last => pure last
  | n + 1, last => do
    let label ← fresh
    let first ← body
    upTo body greedy n (optional label (first.andThen last) greedy)

/-- One or more rounds. -/
def rounds (body : StateM Nat Code) (greedy : Bool) : StateM Nat Code := do
  let label ← fresh
  let round ← body
  return .seq round (.loop label round greedy)

/-- The repetition of a body. A body that can match the empty text is not looped over from the
start: its first round is a choice of its own. -/
def repetition (body : StateM Nat Code) (consuming : Bool) (low : Nat) (high : Option Nat)
    (greedy : Bool) : StateM Nat Code :=
  match low, high with
  | 0, none => do
    let label ← fresh
    if consuming then return .loop label (← body) greedy
    else return optional label (← rounds body greedy) greedy
  | low + 1, none => do copies body low (← rounds body greedy)
  | low, some high => do copies body low (← upTo body greedy (high - low) .empty)

/-- The code of an expression. -/
def ofRegex : Regex → StateM Nat Code
  | .empty => pure .empty
  | .literal text => ofText text
  | .chars k => return .chars (← fresh) k
  | .look a => pure (.look a)
  | .group _ r => ofRegex r
  | .seq r s => do
    let first ← ofRegex r
    return first.andThen (← ofRegex s)
  | .alt r s => do
    let label ← fresh
    let first ← ofRegex r
    return .fork label first (← ofRegex s)
  | .repeat r low high greedy =>
    repetition (ofRegex r) (r.minLength.any (0 < ·)) low high greedy

/-- Whether a match can start at the start of a text only. -/
def isAnchored : Code → Bool
  | .look a => a = .textStart
  | .seq r _ => r.isAnchored
  | .fork _ r s => r.isAnchored && s.isAnchored
  | _ => false

end Code

end PredictiveParsing
