import PredictiveParsing.Lexicon.Basic

/-!
# Collecting definitions

Definitions are collected one by one. Each gets its number at once, so that a grammar can refer to
it; whether there are too many of them, and whether there is a fault in them, shows in the end.

* `Builder.define`: adds a definition and hands out its number.
* `Builder.build`: the lexicon of all of them.
-/

namespace PredictiveParsing

/-- Why definitions that were collected make no lexicon. -/
inductive BuildError where
  | tooManyKinds (count : Nat)
  | fault (e : LexiconError)
  deriving DecidableEq

/-- The text of an error. -/
def BuildError.message : BuildError → String
  | .tooManyKinds count =>
    s!"vocabulary defines {count} token kinds, more than the id space allows"
  | .fault e => e.message

/-- Definitions that have been collected, in order. -/
structure Builder where
  definitions : List KindDefinition := []
  deriving DecidableEq

namespace Builder

/-- Adds a definition behind the others and gives its number. -/
def define (builder : Builder) (d : KindDefinition) : KindId × Builder :=
  (.ofIndex builder.definitions.length, ⟨builder.definitions ++ [d]⟩)

/-- Adds definitions one after the other and gives their numbers. -/
def defineAll (builder : Builder) : List KindDefinition → List KindId × Builder
  | [] => ([], builder)
  | d :: definitions =>
    let (id, builder) := builder.define d
    let (ids, builder) := builder.defineAll definitions
    (id :: ids, builder)

/-- The lexicon of the definitions. A number that is not reserved has to be left behind theirs. -/
def build {M : Type} [Engine M] (builder : Builder) : Except BuildError (Lexicon M) :=
  let count := builder.definitions.length
  if (KindId.ofIndex count).isReserved then .error (.tooManyKinds count)
  else (Lexicon.build builder.definitions).mapError .fault

end Builder

end PredictiveParsing
