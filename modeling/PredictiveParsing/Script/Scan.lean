import PredictiveParsing.Predict.Lookahead

/-!
# Scripts of scanner operations

A script is a list of operations on one scanner. Each operation is one step: it answers with a
value or faults, and the next one goes on from the position that it left. A guard is a step
around a script of its own, behind which it takes up the position it started from.

* `ScanOp.perform`, `Script.run`: the steps of an operation and of a script.
-/

namespace PredictiveParsing

/-- An operation on a scanner. -/
inductive ScanOp where
  | begin (text : Text)
  | skip
  | tryMatch (kind : KindId)
  | consume (kind : KindId)
  | seek (offset : Nat)
  | atEnd
  | found
  | remaining
  | source
  | config
  | candidate (lookahead : OptionalLookahead)
  | check (lookahead : OptionalLookahead)
  | branch (lookahead : AlternativeLookahead)
  | guard (script : List ScanOp)

/-- The answer of an operation. -/
inductive ScanAnswer where
  | done
  | count (n : Nat)
  | token (t : Option Token)
  | mismatch (m : Mismatch)
  | flag (b : Bool)
  | found (t : Token)
  | text (s : Text)
  | config (c : ScanConfig)
  | kind (k : Option KindId)
  | branch (i : Option Nat)
  | guarded (saved : Nat)
  deriving DecidableEq

/-- One step of a script: the answer or the fault, the offset behind it, and the steps of the script
that it guards, if it does. -/
inductive ScanStep where
  | mk (answer : Except Fault ScanAnswer) (offset : Nat) (inner : Option (List ScanStep))

namespace ScanStep

/-- The answer or the fault. -/
def answer : ScanStep → Except Fault ScanAnswer
  | .mk answer _ _ => answer

/-- The offset behind the step. -/
def offset : ScanStep → Nat
  | .mk _ offset _ => offset

/-- The steps of the script that the step guards. -/
def inner : ScanStep → Option (List ScanStep)
  | .mk _ _ inner => inner

end ScanStep

/-- The steps of a script or operation, with the state and the events behind them. -/
structure ScanRun (α : Type) where
  result : α
  store : Store
  events : List Event

namespace ScanOp

/-- The answer of an action that may find a mismatch. -/
def answerOf {α : Type} (value : α → ScanAnswer) : Exit Mismatch α → Except Fault ScanAnswer
  | .ok a => .ok (value a)
  | .error m => .ok (.mismatch m)
  | .fault f => .error f

/-- The step of an action. -/
def step {α : Type} (value : α → ScanAnswer) (action : Action Event Store Mismatch α) (s : Store) :
    ScanRun ScanStep :=
  let r := action s
  ⟨.mk (answerOf value r.exit) r.state.offset none, r.state, r.records⟩

/-- The step of a query that leaves everything as it is. -/
def query (answer : ScanAnswer) (s : Store) : ScanRun ScanStep :=
  ⟨.mk (.ok answer) s.offset none, s, []⟩

mutual

/-- The step of an operation. -/
def perform (scanner : Scanner) : ScanOp → Store → ScanRun ScanStep
  | .begin text, s => step (fun () => .done) (Store.begin text) s
  | .skip, s => step .count scanner.skip s
  | .tryMatch kind, s => step .token (scanner.tryMatch kind) s
  | .consume kind, s => step (fun t => .token (some t)) (scanner.consume kind) s
  | .seek offset, s => step (fun () => .done) (Store.seek offset) s
  | .atEnd, s => query (.flag s.atEnd) s
  | .found, s => step .found scanner.found s
  | .remaining, s => query (.text s.remaining) s
  | .source, s => query (.text s.source) s
  | .config, s => query (.config scanner.config) s
  | .candidate lookahead, s => step .kind (lookahead.matchingCandidate scanner) s
  | .check lookahead, s => step .flag (lookahead.holds scanner) s
  | .branch lookahead, s => step .branch (lookahead.matchingBranch scanner) s
  | .guard script, s =>
    let body := performAll scanner script s
    let back := Store.seek (ρ := Event) (ε := Mismatch) s.offset body.store
    ⟨.mk (answerOf (fun () => .guarded s.offset) back.exit) back.state.offset (some body.result),
      back.state, body.events ++ back.records⟩

/-- The steps of a script. -/
def performAll (scanner : Scanner) : List ScanOp → Store → ScanRun (List ScanStep)
  | [], s => ⟨[], s, []⟩
  | op :: rest, s =>
    let first := perform scanner op s
    let others := performAll scanner rest first.store
    ⟨first.result :: others.result, others.store, first.events ++ others.events⟩

end

end ScanOp

end PredictiveParsing
