import PredictiveParsing.Effect.Event
import PredictiveParsing.Lexicon.Basic
import PredictiveParsing.Scan.Store

/-!
# Scanning on demand

A scanner does not cut a source into tokens beforehand. It is asked, at a position, for a token
of one kind, and answers with it or says what stands there instead.
-/

namespace PredictiveParsing

/-- How a source is scanned. -/
structure ScanConfig where
  /-- Runs of the kinds to be passed over are passed over. -/
  skipping : Bool := true
  /-- The text of the token that stands for the end of the input. -/
  endMarker : Text := "<eof>".toList
  deriving DecidableEq

/-- A lexicon and how to scan with it. A match of the kind given as tripwire is a fault. -/
structure Scanner where
  lexicon : Lexicon
  config : ScanConfig := {}
  tripwire : Option KindId := none
  deriving DecidableEq

/-- A token that was not of the kind asked for. -/
structure Mismatch where
  expected : KindId
  found : Token
  deriving DecidableEq

namespace Scanner

variable {ε : Type}

/-- Passes over what does not count and gives its length. A run whose length is no offset is not
passed over. -/
def skip (scanner : Scanner) : Action Event Store ε Nat := do
  if scanner.config.skipping then
    let length := scanner.lexicon.skipLength (← Action.get).remaining
    let skipped := if length < offsetLimit then length else 0
    if 0 < skipped then
      Store.advance skipped
    return skipped
  else
    return 0

/-- The token of a kind at the very position, without moving. One that ends beyond all offsets is
none. -/
def tokenAt (scanner : Scanner) (id : KindId) (s : Store) : Except Fault (Option (Kind × Token)) :=
  match scanner.lexicon.get? id with
  | none => .ok none
  | some kind =>
    match kind.matchLength s.remaining with
    | none => .ok none
    | some length =>
      match Text.takeBytes? s.remaining length, Span.ofRange s.offset (s.offset + length) with
      | none, _ => .error (.cutInsideCharacter length)
      | some _, .error _ => .ok none
      | some text, .ok span => .ok (some (kind, ⟨id, text, span⟩))

/-- What is reported of a match. -/
def matchEvents (kind : Kind) (token : Token) : List Event :=
  (if '\n' ∈ token.text ∧ ¬ kind.flags.lineBreaks then [.lineBreak kind.name token.span.start]
   else []) ++ [.matched kind.name token.span]

/-- Moves over a token of a kind, if one stands at the very position. -/
def tryMatch (scanner : Scanner) (id : KindId) : Action Event Store ε (Option Token) := do
  match ← Action.ofExcept (scanner.tokenAt id (← Action.get)) with
  | none => return none
  | some (kind, token) =>
    Store.advance (← Action.ofExcept token.span.length)
    Action.emitAll (matchEvents kind token)
    if scanner.tripwire = some id then
      Action.stop .tripwire
    else
      return some token

/-- What stands at the position if no kind is asked for: the next character, or the end marker. -/
def foundAt (scanner : Scanner) (s : Store) : Token :=
  match s.current? with
  | some c => ⟨KindId.error, [c], ⟨s.offset, s.offset + c.utf8Size⟩⟩
  | none => ⟨KindId.error, scanner.config.endMarker, Span.point s.offset⟩

/-- What stands at the position. Its end has to be an offset. -/
def found (scanner : Scanner) : Action Event Store ε Token := do
  let token := scanner.foundAt (← Action.get)
  if offsetLimit ≤ token.span.stop then
    Action.stop .offsetOverflow
  else
    return token

/-- The first of some kinds that a token at the very position has; the position moves over it. -/
def firstMatch (scanner : Scanner) : List KindId → Action Event Store ε (Option KindId)
  | [] => pure none
  | id :: rest => do
    match ← scanner.tryMatch id with
    | some _ => pure (some id)
    | none => scanner.firstMatch rest

/-- Passes over what does not count and then moves over a token of a kind. -/
def consume (scanner : Scanner) (id : KindId) : Action Event Store Mismatch Token := do
  let _ ← scanner.skip
  match ← scanner.tryMatch id with
  | some token => pure token
  | none => Action.raise ⟨id, ← scanner.found⟩

end Scanner

end PredictiveParsing
