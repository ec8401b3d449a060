import PredictiveParsing.Lexicon.Definition

/-!
# Lexicons

A lexicon is a numbered list of token kinds. The kinds to be passed over are also joined into one
expression, which matches a whole run of them. The engine that compiles the patterns of a lexicon is
the one that matches with it.

* `Lexicon.build`: the lexicon of some definitions, or the first fault in them.
-/

namespace PredictiveParsing

/-- Why definitions make no lexicon. Each error has the name of the kind at fault. -/
inductive LexiconError where
  | duplicateName (name : String)
  | emptyLiteral (name : String)
  | invalidPattern (name : String) (cause : PatternError)
  | matchesEmpty (name : String)
  deriving DecidableEq

namespace LexiconError

/-- The name of the kind at fault. -/
def name : LexiconError → String
  | .duplicateName name => name
  | .emptyLiteral name => name
  | .invalidPattern name _ => name
  | .matchesEmpty name => name

/-- The text of an error. -/
def message (e : LexiconError) : String :=
  "token kind `" ++ e.name ++ "` " ++
    match e with
    | .duplicateName _ => "is defined more than once"
    | .emptyLiteral _ => "has an empty literal"
    | .invalidPattern _ _ => "has an invalid pattern"
    | .matchesEmpty _ => "matches the empty string"

end LexiconError

/-- The kinds of tokens of a language. -/
structure Lexicon (M : Type := Matcher) where
  kinds : List (Kind M)
  /-- The numbers of the kinds by their names. -/
  numbers : List (String × KindId)
  skip : Option M
  deriving DecidableEq

namespace Lexicon

variable {M : Type}

/-! ## Building -/

/-- What has been compiled: the kinds, their numbers by name, and the patterns of the kinds that are
passed over. -/
structure Draft (M : Type) where
  kinds : List (Kind M) := []
  numbers : List (String × KindId) := []
  skipBodies : List Text := []

namespace Draft

/-- Adds a kind behind the others. -/
def push (draft : Draft M) (kind : Kind M) : Draft M where
  kinds := draft.kinds ++ [kind]
  numbers := draft.numbers ++ [(kind.name, kind.id)]
  skipBodies := draft.skipBodies ++ if kind.flags.skipped then [kind.rule.body] else []

/-- Compiles the next definition, or finds its first fault. -/
def add [Engine M] (draft : Draft M) (d : KindDefinition) : Except LexiconError (Draft M) :=
  if (draft.numbers.lookup d.name).isSome then .error (.duplicateName d.name)
  else if d.rule.fixedText = some [] then .error (.emptyLiteral d.name)
  else
    match Engine.read d.rule.anchored with
    | .error cause => .error (.invalidPattern d.name cause)
    | .ok matcher =>
      if (Engine.find matcher []).isSome then .error (.matchesEmpty d.name)
      else .ok (draft.push { d with id := .ofIndex draft.kinds.length, matcher })

/-- Compiles definitions in order, up to the first fault. -/
def addAll [Engine M] (draft : Draft M) :
    List KindDefinition → Except LexiconError (Draft M)
  | [] => .ok draft
  | d :: definitions => do (← draft.add d).addAll definitions

end Draft

/-- The pattern that matches a run of tokens given by their own patterns. -/
def runPattern (bodies : List Text) : Text :=
  "\\A(?:".toList ++
    "|".toList.intercalate (bodies.map fun body => "(?:".toList ++ body ++ ")".toList) ++
    ")+".toList

/-- The name under which faults of the joined expression are reported. -/
def skipName : String := "<skip>"

/-- The expression for runs of kinds with some patterns, if there are any. -/
def compileSkip [Engine M] : List Text → Except LexiconError (Option M)
  | [] => .ok none
  | body :: bodies =>
    match Engine.read (runPattern (body :: bodies)) with
    | .error cause => .error (.invalidPattern skipName cause)
    | .ok matcher => .ok (some matcher)

/-- The lexicon of some definitions, numbered in order, or the first fault in them. -/
def build [Engine M] (definitions : List KindDefinition) : Except LexiconError (Lexicon M) := do
  let draft ← ({} : Draft M).addAll definitions
  return { kinds := draft.kinds, numbers := draft.numbers, skip := ← compileSkip draft.skipBodies }

/-! ## Looking up -/

/-- The number of kinds. -/
def size (lexicon : Lexicon M) : Nat := lexicon.kinds.length

/-- The kind of a number. -/
def get? (lexicon : Lexicon M) (id : KindId) : Option (Kind M) :=
  lexicon.kinds[id.index]?

/-- The number of the kind of a name. -/
def lookup (lexicon : Lexicon M) (name : String) : Option KindId :=
  lexicon.numbers.lookup name

/-- Whether some kinds are passed over. -/
def hasSkip (lexicon : Lexicon M) : Bool := lexicon.skip.isSome

/-- The name of a number, reserved and unused ones included. -/
def name (lexicon : Lexicon M) (id : KindId) : String :=
  if id = KindId.error then "<error>"
  else if id = KindId.eof then "<eof>"
  else (lexicon.get? id).elim "<unknown>" (·.name)

/-- The bytes at the front of a text that are passed over. -/
def skipLength [Engine M] (lexicon : Lexicon M) (text : Text) : Nat :=
  (lexicon.skip.bind (Engine.find · text)).elim 0 (·.stop)

/-! ## Naming what is expected -/

/-- The name of something expected. -/
def expectedName (lexicon : Lexicon M) (id : KindId) : String :=
  if id = KindId.eof then "end of input" else lexicon.name id

/-- Names what is expected. -/
def describeExpected (lexicon : Lexicon M) : List KindId → String
  | [] => "nothing"
  | [only] => lexicon.expectedName only
  | [first, second] => lexicon.expectedName first ++ " or " ++ lexicon.expectedName second
  | many => "one of " ++ String.intercalate ", " (many.map lexicon.expectedName)

end Lexicon

end PredictiveParsing
