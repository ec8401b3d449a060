import PredictiveParsing.Parse.Parser

/-!
# Scripts of parser operations

A script is a list of operations on one parser, some of which hold further lists. The first
error ends the list that it arises in and goes outward. An operation that finishes, by an error
or not, is reported with the state behind it; a fault leaves the operations that it ends
unreported.

* `ParseOp.perform`: an operation as an action.
* `ParseScript.steps`: the operations of a list one after the other, each on its own.
-/

namespace PredictiveParsing

/-- An operation on a parser. -/
inductive ParseOp where
  | consume (kind : KindId)
  | expectEnd
  | alternatives (lookahead : AlternativeLookahead)
  | check (lookahead : OptionalLookahead)
  | rule (name : String) (body : List ParseOp)
  | call (name : String)
  | optional (lookahead : OptionalLookahead) (body : List ParseOp)
  | many (lookahead : OptionalLookahead) (body : List ParseOp)
  | switch (lookahead : AlternativeLookahead) (branches : List (List ParseOp))
  | attempt (body : List ParseOp)
  | begin (text : Text)
  | run (text : Text) (body : List ParseOp)
  | tryMatch (kind : KindId)
  | skip
  | seek (offset : Nat)
  | remaining

/-- How an operation finished. Where a body can pass an error on, nothing stands for that. -/
inductive OpReport where
  | consume (result : Except ParseError Token)
  | expectEnd (result : Except ParseError Unit)
  | alternatives (result : Except ParseError Nat)
  | check (holds : Bool)
  | rule (result : Option Unit)
  | call (result : Option Unit)
  | optional (entered : Option Bool)
  | many (items : Option Nat)
  | switch (result : Except ParseError Nat)
  | attempt (succeeded : Bool)
  | begin
  | run (text : Text) (output : ParseOutput Unit) (pending : Nat)
  | tryMatch (token : Option Token)
  | skip (length : Nat)
  | seek
  | remaining (text : Text)

/-- The report of an operation, with the state behind it. -/
structure Finished where
  report : OpReport
  offset : Nat
  consumed : Nat
  rules : List String

/-- The innermost open rule behind the operation. -/
def Finished.activeRule (f : Finished) : Option String := f.rules.head?

namespace ParseOp

/-- An action of a script. -/
abbrev ScriptAction := ParseAction Finished

/-- Reports that an operation finished. -/
def finish (report : OpReport) : ScriptAction Unit := do
  let s ← Action.get
  Action.emit (.mark ⟨report, s.offset, s.consumed, s.rules⟩)

/-- Runs an action, reports how it ended, and passes its end on. -/
def reporting {α : Type} (report : Except ParseError α → OpReport) (action : ScriptAction α) :
    ScriptAction α := do
  match ← Action.attempt action with
  | .ok a =>
    finish (report (.ok a))
    return a
  | .error e =>
    finish (report (.error e))
    Action.raise e

/-- Runs an action with a body and reports whether it went through, but not the error if not. -/
def holding {α : Type} (report : Option α → OpReport) (action : ScriptAction α) :
    ScriptAction Unit := do
  let _ ← reporting (fun r => report r.toOption) action
  return ()

mutual

/-- An operation as an action, given the actions of the rules that can be called. -/
def perform (parser : Parser) (called : String → ScriptAction Unit) : ParseOp → ScriptAction Unit
  | .consume kind => do
    let _ ← reporting .consume (parser.consume kind)
  | .expectEnd => reporting .expectEnd parser.expectEnd
  | .alternatives lookahead => do
    let _ ← reporting .alternatives (parser.alternatives lookahead)
  | .check lookahead => do
    finish (.check (← parser.check lookahead))
  | .rule name body => holding .rule (Parser.rule name (performAll parser called body))
  | .call name => holding .call (Parser.rule name (called name))
  | .optional lookahead body =>
    holding .optional do
      return (← parser.optional lookahead (performAll parser called body)).isSome
  | .many lookahead body =>
    holding .many do
      return (← parser.many lookahead (performAll parser called body)).length
  | .switch lookahead branches => do
    let branch ← reporting .switch (parser.alternatives lookahead)
    performBranch parser called branch branches
  | .attempt body => do
    let result ← Action.attempt (performAll parser called body)
    finish (.attempt result.toOption.isSome)
  | .begin text => do
    Parser.begin text
    finish .begin
  | .run text body => do
    let output ← Parser.run text (performAll parser called body)
    finish (.run text output (← Action.get).errors.length)
  | .tryMatch kind => do
    finish (.tryMatch (← Parser.scan (parser.scanner.tryMatch kind)))
  | .skip => do
    finish (.skip (← Parser.scan parser.scanner.skip))
  | .seek offset => do
    Parser.scan (Store.seek offset)
    finish .seek
  | .remaining => do
    finish (.remaining (← Action.get).store.remaining)

/-- A list of operations as an action. -/
def performAll (parser : Parser) (called : String → ScriptAction Unit) :
    List ParseOp → ScriptAction Unit
  | [] => return ()
  | op :: rest => do
    perform parser called op
    performAll parser called rest

/-- The operations of one branch as an action. -/
def performBranch (parser : Parser) (called : String → ScriptAction Unit) :
    Nat → List (List ParseOp) → ScriptAction Unit
  | _, [] => return ()
  | 0, body :: _ => performAll parser called body
  | n + 1, _ :: rest => performBranch parser called n rest

end

end ParseOp

/-- One step of a script: how the operation ended, what it emitted, and the state behind it. -/
structure ParseStep where
  exit : Exit ParseError Unit
  emissions : List (Emission Finished)
  state : ParserState

/-- A parser and the rules that its operations can call. -/
structure ParseScript where
  parser : Parser
  rules : List (String × List ParseOp) := []

namespace ParseScript

/-- The depth to which rules may call each other. -/
def callLimit : Nat := 0x10000

/-- The action of a rule in which calls may be nested as deep as the number says. A name without a
rule stands for no operations. -/
def called (script : ParseScript) : Nat → String → ParseOp.ScriptAction Unit
  | 0, _ => Action.stop .endlessNesting
  | n + 1, name => fun s =>
    ParseOp.performAll script.parser (script.called n) ((script.rules.lookup name).getD []) s

/-- An operation as an action. -/
def perform (script : ParseScript) (op : ParseOp) : ParseOp.ScriptAction Unit :=
  op.perform script.parser (script.called callLimit)

/-- Operations one after the other, each going on from where the one before it ended in whichever
way. -/
def steps (script : ParseScript) : List ParseOp → ParserState → List ParseStep
  | [], _ => []
  | op :: rest, s =>
    let r := script.perform op s
    ⟨r.exit, r.records, r.state⟩ :: script.steps rest r.state

end ParseScript

end PredictiveParsing
