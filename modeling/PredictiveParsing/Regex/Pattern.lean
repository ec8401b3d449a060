import PredictiveParsing.Regex.Footprint
import PredictiveParsing.Regex.Lexeme
import PredictiveParsing.Regex.Search

/-!
# Reading patterns

The lexemes of a pattern build up an expression. A reader keeps the open groups, innermost
first; each holds the flags in force, its finished branches and the pieces of its last branch.
Flags that are set inside a group end with it. Groups are numbered in the order in which they are
opened.

The depth of a piece says how deep the parts of a pattern are nested in it: every group, every
repetition, every class, and every branch or choice of two or more parts adds one.

* `Regex.read`: the expression that a text writes.
* `Matcher.read`: the matcher of that expression, unless it is too large.
-/

namespace PredictiveParsing

/-- The flags in force at a place of a pattern. -/
structure Flags where
  caseless : Bool := false
  multiline : Bool := false
  dotAll : Bool := false
  swapGreed : Bool := false
  extended : Bool := false
  deriving DecidableEq

namespace Flags

/-- Turns one flag on or off. -/
def set (flags : Flags) : Flag × Bool → Flags
  | (.caseless, on) => { flags with caseless := on }
  | (.multiline, on) => { flags with multiline := on }
  | (.dotAll, on) => { flags with dotAll := on }
  | (.swapGreed, on) => { flags with swapGreed := on }
  | (.extended, on) => { flags with extended := on }
  | (.allScripts, _) => flags

/-- The flags after some changes. -/
def change (flags : Flags) (changes : FlagChanges) : Flags :=
  changes.foldl set flags

end Flags

/-- A part of a branch. A change of flags is a part too; it matches the empty text and cannot be
repeated. -/
structure Piece where
  regex : Regex
  depth : Nat := 0
  repeatable : Bool := true
  deriving DecidableEq

namespace Piece

/-- The depth of parts side by side. -/
def jointDepth (pieces : List Piece) : Nat :=
  match pieces with
  | [] => 0
  | [only] => only.depth
  | many => 1 + (many.map (·.depth)).foldl max 0

/-- One part after the other. -/
def sequence (pieces : List Piece) : Piece :=
  ⟨Regex.concat (pieces.map (·.regex)), jointDepth pieces, true⟩

/-- The choice between branches. -/
def choice (branches : List Piece) : Piece :=
  ⟨Regex.alternation (branches.map (·.regex)), jointDepth branches, true⟩

end Piece

/-- An open group, with its number if it has one. Branches and pieces are kept latest first. -/
structure OpenGroup where
  number : Option Nat := none
  flags : Flags := {}
  branches : List Piece := []
  pieces : List Piece := []
  deriving DecidableEq

namespace OpenGroup

/-- The branch that is being read. -/
def branch (g : OpenGroup) : Piece :=
  Piece.sequence g.pieces.reverse

/-- What is in the group. -/
def content (g : OpenGroup) : Piece :=
  Piece.choice (g.branch :: g.branches).reverse

/-- The group as a part of what is around it. -/
def closed (g : OpenGroup) : Piece :=
  let inside := g.content
  ⟨g.number.elim inside.regex (Regex.group · inside.regex), inside.depth + 1, true⟩

/-- Adds a part to the branch that is being read. -/
def push (g : OpenGroup) (piece : Piece) : OpenGroup :=
  { g with pieces := piece :: g.pieces }

/-- Begins another branch. -/
def nextBranch (g : OpenGroup) : OpenGroup :=
  { g with branches := g.branch :: g.branches, pieces := [] }

/-- Changes the flags for the rest of the group. -/
def change (g : OpenGroup) (changes : FlagChanges) : OpenGroup :=
  { g.push ⟨.empty, 0, false⟩ with flags := g.flags.change changes }

/-- Repeats the last piece. -/
def repeatLast (g : OpenGroup) (low : Nat) (high : Option Nat) (marked : Bool) :
    Except PatternError OpenGroup :=
  match g.pieces with
  | ⟨r, depth, true⟩ :: pieces =>
    let repeated := r.repeated low high (marked == g.flags.swapGreed)
    .ok { g with pieces := ⟨repeated, depth + 1, true⟩ :: pieces }
  | _ => .error .nothingToRepeat

end OpenGroup

/-- A pattern that has been read in part: the innermost open group, the groups around it from the
inside out, the number of the next group, and the names given to groups. -/
structure PatternReader where
  inner : OpenGroup := {}
  outer : List OpenGroup := []
  nextGroup : Nat := 1
  names : List Text := []
  deriving DecidableEq

namespace PatternReader

/-- Adds a part to the innermost group. -/
def push (s : PatternReader) (r : Regex) (depth : Nat := 0) : PatternReader :=
  { s with inner := s.inner.push ⟨r, depth, true⟩ }

/-- Opens a group that does not count. -/
def openPlain (s : PatternReader) (changes : FlagChanges) : PatternReader :=
  { s with
    inner := { flags := s.inner.flags.change changes }
    outer := s.inner :: s.outer }

/-- Opens a group that counts; names may not be given twice. -/
def openCounted (s : PatternReader) (name : Option Text) : Except PatternError PatternReader :=
  let opened : PatternReader :=
    { s with
      inner := { number := some s.nextGroup, flags := s.inner.flags }
      outer := s.inner :: s.outer
      nextGroup := s.nextGroup + 1 }
  match name with
  | none => .ok opened
  | some name =>
    if name ∈ s.names then .error (.repeatedGroupName name)
    else .ok { opened with names := name :: s.names }

/-- Closes the innermost group, which becomes a piece of the group around it. -/
def closeGroup (s : PatternReader) : Except PatternError PatternReader :=
  match s.outer with
  | [] => .error .unopenedGroup
  | group :: outer => .ok { s with inner := group.push s.inner.closed, outer }

/-- One character as it is written, up to letter case or not. -/
def literal (c : Char) (caseless : Bool) : Regex :=
  if caseless then Regex.ofClass (CharClass.singleton c).closeCase else .literal [c]

/-- Takes in one lexeme. -/
def take (s : PatternReader) : Lexeme → Except PatternError PatternReader
  | .literal c => .ok (s.push (literal c s.inner.flags.caseless))
  | .dot => .ok (s.push (.chars (if s.inner.flags.dotAll then .any else .notNewline)))
  | .caret => .ok (s.push (.look (if s.inner.flags.multiline then .lineStart else .textStart)))
  | .dollar => .ok (s.push (.look (if s.inner.flags.multiline then .lineEnd else .textEnd)))
  | .set items negated =>
    let k := CharClass.ofItems items s.inner.flags.caseless negated
    .ok (s.push (.ofClass k) (if items.length < 2 then 1 else 2))
  | .property which negated => .ok (s.push (.chars (ClassItem.property which negated).charClass))
  | .look a => .ok (s.push (.look a))
  | .repeat low high marked => do
    return { s with inner := ← s.inner.repeatLast low high marked }
  | .bar => .ok { s with inner := s.inner.nextBranch }
  | .openGroup changes => .ok (s.openPlain changes)
  | .openCounted name => s.openCounted name
  | .closeGroup => s.closeGroup
  | .directive changes => .ok { s with inner := s.inner.change changes }

/-- Takes in the lexemes of a text, at most as many as the number says. -/
def takeAll : Nat → PatternReader → Text → Except PatternError PatternReader
  | 0, s, _ => .ok s
  | n + 1, s, text => do
    match ← Lexeme.read? s.inner.flags.extended text with
    | none => .ok s
    | some (lexeme, rest) => takeAll n (← s.take lexeme) rest

/-- The greatest depth of a pattern. -/
def depthLimit : Nat := 250

/-- The expression of a pattern that has been read to its end. -/
def finish (s : PatternReader) : Except PatternError Regex :=
  if !s.outer.isEmpty then .error .unclosedGroup
  else if s.inner.content.depth ≤ depthLimit then .ok s.inner.content.regex
  else .error .tooDeep

end PatternReader

/-- The expression that a pattern writes. Each lexeme takes at least one character. -/
def Regex.read (pattern : Text) : Except PatternError Regex := do
  (← PatternReader.takeAll (pattern.length + 1) {} pattern).finish

/-- The matcher of a pattern. -/
def Matcher.read (pattern : Text) : Except PatternError Matcher := do
  let r ← Regex.read pattern
  if r.fits then .ok (Matcher.ofRegex r) else .error .tooLarge

end PredictiveParsing
