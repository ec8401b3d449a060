import PredictiveParsing.Predict.Lookahead
import PredictiveParsing.Report.ParseError

/-!
# Parsing with predictions

A parser commits tokens one by one and decides by lookaheads where to go on. It keeps the open
rules, innermost first, and the number of tokens committed. Every mismatch says inside which
rule it arose.

A parser program is an action. Besides events it can emit marks of a type of its own.

* `Parser.consume`, `Parser.alternatives`, `Parser.expectEnd`: the operations that can mismatch.
* `Parser.rule`, `Parser.optional`, `Parser.many`, `Parser.run`: the operations with a body.
-/

namespace PredictiveParsing

/-- What a parser emits: an event, or a mark set by the program that it runs. -/
inductive Emission (μ : Type) where
  | event (e : Event)
  | mark (m : μ)
  deriving DecidableEq

/-- The event of an emission, if it is one. -/
def Emission.event? {μ : Type} : Emission μ → Option Event
  | .event e => some e
  | .mark _ => none

/-- The mark of an emission, if it is one. -/
def Emission.mark? {μ : Type} : Emission μ → Option μ
  | .event _ => none
  | .mark m => some m

/-- A scanner and the builder of messages. -/
structure Parser where
  scanner : Scanner
  messages : MessageBuilder := MessageBuilder.standard

/-- How far a parse has come. -/
structure ParserState where
  store : Store
  /-- The open rules, innermost first. -/
  rules : List String := []
  /-- The errors that have not been handed out. -/
  errors : List ParseError := []
  /-- The number of tokens committed. -/
  consumed : Nat := 0
  deriving DecidableEq

namespace ParserState

/-- The state before anything is parsed. -/
def start (source : Text) : ParserState := { store := { source } }

/-- The innermost open rule. -/
def activeRule (s : ParserState) : Option String := s.rules.head?

/-- The offset reached. -/
def offset (s : ParserState) : Nat := s.store.offset

end ParserState

/-- What a whole parse gives: a value, if there is one, and the errors on the way. -/
structure ParseOutput (α : Type) where
  value : Option α
  errors : List ParseError
  deriving DecidableEq

namespace ParseOutput

variable {α : Type}

/-- Whether there are errors. -/
def hasErrors (o : ParseOutput α) : Bool := !o.errors.isEmpty

/-- The value, unless it is missing or there are errors. -/
def toExcept (o : ParseOutput α) : Except (List ParseError) α :=
  match o.value, o.errors with
  | some a, [] => .ok a
  | _, errors => .error errors

end ParseOutput

/-- A program for a parser. -/
abbrev ParseAction (μ α : Type) := Action (Emission μ) ParserState ParseError α

namespace Parser

variable {μ α : Type}

/-! ## Scanning -/

/-- Runs an action of the scanner; what it does about a mismatch is for the caller to say. -/
def scanOr {ε : Type} (onError : ε → ParseAction μ α) (action : Action Event Store ε α) :
    ParseAction μ α := fun s =>
  let r := action s.store
  let after := { s with store := r.state }
  let seen := r.records.map Emission.event
  match r.exit with
  | .ok a => ⟨.ok a, after, seen⟩
  | .fault f => ⟨.fault f, after, seen⟩
  | .error e =>
    let t := onError e after
    ⟨t.exit, t.state, seen ++ t.records⟩

/-- Runs an action of the scanner that finds no mismatch. -/
def scan (action : Action Event Store Empty α) : ParseAction μ α :=
  scanOr Empty.elim action

/-! ## Operations that can mismatch -/

/-- Ends with the error of a token that is none of the expected ones. -/
def mismatch (parser : Parser) (expected : List KindId) (found : Token) : ParseAction μ α := do
  let rule := (← Action.get).activeRule
  let message := parser.messages parser.scanner.lexicon expected found rule
  Action.emit (.event (.mismatched rule found.span.start message))
  Action.raise ⟨expected, found, rule, message⟩

/-- Passes over what does not count and gives what stands behind it. -/
def nextFound (parser : Parser) : ParseAction μ Token := do
  let _ ← scan parser.scanner.skip
  scan parser.scanner.found

/-- Commits a token of a kind. -/
def consume (parser : Parser) (kind : KindId) : ParseAction μ Token := do
  let token ← scanOr (fun m => parser.mismatch [m.expected] m.found) (parser.scanner.consume kind)
  Action.modify fun s => { s with consumed := s.consumed + 1 }
  Action.emit (.event (.consumed (parser.scanner.lexicon.name kind) token.span))
  return token

/-- Decides between branches; one of them has to come next. -/
def alternatives (parser : Parser) (lookahead : AlternativeLookahead) : ParseAction μ Nat := do
  match ← scan (lookahead.matchingBranch parser.scanner) with
  | some branch => return branch
  | none => parser.mismatch lookahead.expected (← parser.nextFound)

/-- Requires that nothing that counts comes next. -/
def expectEnd (parser : Parser) : ParseAction μ Unit := do
  let _ ← scan parser.scanner.skip
  if (← Action.get).store.atEnd then
    return ()
  else
    parser.mismatch [KindId.eof] (← scan parser.scanner.found)

/-! ## Operations with a body -/

/-- Whether a candidate comes next. -/
def check (parser : Parser) (lookahead : OptionalLookahead) : ParseAction μ Bool :=
  scan (lookahead.holds parser.scanner)

/-- Opens a rule. -/
def enter (name : String) : ParseAction μ Unit := do
  Action.emit (.event (.entered name (← Action.get).offset))
  Action.modify fun s => { s with rules := name :: s.rules }

/-- Closes the innermost rule, if one is open. -/
def leave (name : String) (ok : Bool) : ParseAction μ Unit := do
  Action.modify fun s => { s with rules := s.rules.tail }
  Action.emit (.event (.exited name ok))

/-- Runs a body as a rule. The rule is closed unless a fault ends the body. -/
def rule (name : String) (body : ParseAction μ α) : ParseAction μ α := do
  enter name
  match ← Action.attempt body with
  | .ok a =>
    leave name true
    return a
  | .error e =>
    leave name false
    Action.raise e

/-- Runs a body if a candidate comes next. -/
def optional (parser : Parser) (lookahead : OptionalLookahead) (body : ParseAction μ α) :
    ParseAction μ (Option α) := do
  if ← parser.check lookahead then
    return some (← body)
  else
    return none

/-- At most as many rounds of a repetition as the number says. -/
def rounds (parser : Parser) (lookahead : OptionalLookahead) (body : ParseAction μ α) :
    Nat → ParseAction μ (List α)
  | 0 => do
    Action.stop (.noProgress (← Action.get).offset)
  | n + 1 => do
    if ← parser.check lookahead then
      let before := (← Action.get).offset
      let item ← body
      if (← Action.get).offset ≤ before then
        Action.stop (.noProgress before)
      else
        return item :: (← parser.rounds lookahead body n)
    else
      return []

/-- Runs a body as long as a candidate comes next. Each round has to move on, so there are at most
as many as there are offsets. -/
def many (parser : Parser) (lookahead : OptionalLookahead) (body : ParseAction μ α) :
    ParseAction μ (List α) :=
  parser.rounds lookahead body (offsetLimit + 1)

/-! ## Whole parses -/

/-- Starts on a source, with no rule open and nothing committed. -/
def begin (source : Text) : ParseAction μ Unit := do
  scan (Store.begin source)
  Action.modify fun s => { s with rules := [], errors := [], consumed := 0 }

/-- Keeps an error. -/
def keepError (e : ParseError) : ParseAction μ Unit :=
  Action.modify fun s => { s with errors := s.errors ++ [e] }

/-- Hands out the errors that were kept. -/
def takeErrors : ParseAction μ (List ParseError) := do
  let errors := (← Action.get).errors
  Action.modify fun s => { s with errors := [] }
  return errors

/-- Parses a source from its start. Errors become part of the output. -/
def run (source : Text) (entry : ParseAction μ α) : ParseAction μ (ParseOutput α) := do
  begin source
  match ← Action.attempt entry with
  | .ok a => return ⟨some a, ← takeErrors⟩
  | .error e =>
    keepError e
    return ⟨none, ← takeErrors⟩

end Parser

end PredictiveParsing
