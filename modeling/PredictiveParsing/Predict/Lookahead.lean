import PredictiveParsing.Scan.Scanner

/-!
# Lookaheads

A lookahead decides from the next token alone. An optional lookahead is a list of candidate
kinds; an alternative lookahead has a list of candidates for each branch. Both are made from
sequences of kinds, each of which has to be a single kind that the lexicon defines and does not
pass over.

* `Candidates.ofSequences`, `AlternativeLookahead.ofSequences`: a lookahead or the first fault
  in it.
* `OptionalLookahead.matchingCandidate`, `AlternativeLookahead.matchingBranch`: the decisions,
  which leave the position as it was.
-/

namespace PredictiveParsing

/-- Why sequences make no lookahead. -/
inductive LookaheadError where
  | notSingleToken (branch index length : Nat)
  | unknownKind (kind : KindId)
  | skippedKind (kind : KindId)
  | noCandidates (branch : Nat)
  | noBranches
  deriving DecidableEq

/-- The text of an error. -/
def LookaheadError.message : LookaheadError → String
  | .notSingleToken branch index length =>
    s!"lookahead sequence {index} of branch {branch} has {length} tokens; " ++
      "only single-token lookahead is supported"
  | .unknownKind kind =>
    "lookahead candidate " ++ kind.render ++ " is not defined by the vocabulary"
  | .skippedKind kind =>
    "lookahead candidate " ++ kind.render ++ " is a skipped kind and can never match"
  | .noCandidates branch => s!"lookahead branch {branch} has no candidates"
  | .noBranches => "alternative lookahead has no branches"

/-! ## Candidates -/

/-- The kinds that a decision looks for, in the order in which they are tried. -/
structure Candidates where
  kinds : List KindId
  deriving DecidableEq

namespace Candidates

/-- The kind of the sequence with the given index of a branch. -/
def ofSequence (lexicon : Lexicon) (branch index : Nat) :
    List KindId → Except LookaheadError KindId
  | [id] =>
    match lexicon.get? id with
    | none => .error (.unknownKind id)
    | some kind => if kind.flags.skipped then .error (.skippedKind id) else .ok id
  | sequence => .error (.notSingleToken branch index sequence.length)

/-- The kinds of sequences, the first of which has the given index. -/
def kindsOfSequences (lexicon : Lexicon) (branch : Nat) :
    Nat → List (List KindId) → Except LookaheadError (List KindId)
  | _, [] => .ok []
  | index, sequence :: rest => do
    let id ← ofSequence lexicon branch index sequence
    return id :: (← kindsOfSequences lexicon branch (index + 1) rest)

/-- The candidates of a branch, of which there has to be one. -/
def ofSequences (lexicon : Lexicon) (branch : Nat) (sequences : List (List KindId)) :
    Except LookaheadError Candidates := do
  let kinds ← kindsOfSequences lexicon branch 0 sequences
  if kinds.isEmpty then .error (.noCandidates branch) else .ok ⟨kinds⟩

/-- Whether a kind is a candidate. -/
def contains (candidates : Candidates) (id : KindId) : Bool := id ∈ candidates.kinds

/-- The number of candidates. -/
def size (candidates : Candidates) : Nat := candidates.kinds.length

end Candidates

/-! ## One decision -/

/-- Decides whether one of some kinds comes next. -/
structure OptionalLookahead where
  candidates : Candidates
  deriving DecidableEq

namespace OptionalLookahead

/-- The lookahead of some sequences, or the first fault in them. -/
def ofSequences (lexicon : Lexicon) (sequences : List (List KindId)) :
    Except LookaheadError OptionalLookahead := do
  return ⟨← Candidates.ofSequences lexicon 0 sequences⟩

/-- The lookahead of some kinds. -/
def ofKinds (lexicon : Lexicon) (kinds : List KindId) : Except LookaheadError OptionalLookahead :=
  ofSequences lexicon (kinds.map ([·]))

variable {ε : Type}

/-- The first candidate that comes next. -/
def matchingCandidate (lookahead : OptionalLookahead) (scanner : Scanner) :
    Action Event Store ε (Option KindId) := do
  let saved := (← Action.get).offset
  Store.keepingPosition do
    let _ ← scanner.skip
    let hit ← scanner.firstMatch lookahead.candidates.kinds
    Action.emit (.probed saved hit)
    pure hit

/-- Whether a candidate comes next. -/
def holds (lookahead : OptionalLookahead) (scanner : Scanner) : Action Event Store ε Bool := do
  return (← lookahead.matchingCandidate scanner).isSome

end OptionalLookahead

/-! ## A choice between branches -/

/-- Decides which of some branches comes next. -/
structure AlternativeLookahead where
  branches : List Candidates
  deriving DecidableEq

namespace AlternativeLookahead

/-- The candidates of branches, the first of which has the given index. -/
def branchesOfSequences (lexicon : Lexicon) :
    Nat → List (List (List KindId)) → Except LookaheadError (List Candidates)
  | _, [] => .ok []
  | index, sequences :: rest => do
    let branch ← Candidates.ofSequences lexicon index sequences
    return branch :: (← branchesOfSequences lexicon (index + 1) rest)

/-- The lookahead of branches of sequences, or the first fault in them. -/
def ofSequences (lexicon : Lexicon) (branches : List (List (List KindId))) :
    Except LookaheadError AlternativeLookahead := do
  let branches ← branchesOfSequences lexicon 0 branches
  if branches.isEmpty then .error .noBranches else .ok ⟨branches⟩

/-- The lookahead of branches of kinds. -/
def ofKinds (lexicon : Lexicon) (branches : List (List KindId)) :
    Except LookaheadError AlternativeLookahead :=
  ofSequences lexicon (branches.map (·.map ([·])))

/-- The kinds of all branches, each where it occurs first. -/
def expected (lookahead : AlternativeLookahead) : List KindId :=
  (lookahead.branches.flatMap (·.kinds)).eraseDups

variable {ε : Type}

/-- The index of the first branch with a candidate at the very position, the first of the branches
having the given index. -/
def firstBranch (scanner : Scanner) :
    Nat → List Candidates → Action Event Store ε (Option Nat)
  | _, [] => pure none
  | index, branch :: rest => do
    match ← scanner.firstMatch branch.kinds with
    | some _ => pure (some index)
    | none => firstBranch scanner (index + 1) rest

/-- The index of the first branch with a candidate that comes next. -/
def matchingBranch (lookahead : AlternativeLookahead) (scanner : Scanner) :
    Action Event Store ε (Option Nat) := do
  let saved := (← Action.get).offset
  Store.keepingPosition do
    let _ ← scanner.skip
    let hit ← firstBranch scanner 0 lookahead.branches
    Action.emit (.branched saved hit)
    pure hit

end AlternativeLookahead

end PredictiveParsing
