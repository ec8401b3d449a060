import PredictiveParsing.Regex.Pattern

/-!
# Engines

A lexicon asks two things of patterns: that they are read, and that what has been read is found in a
text. Whatever does both is an engine; its matchers are of a type of its own.

* `Engine`: reading and finding.
* `Matcher.engine`: the engine of this library, which serves where no other one is named.
-/

namespace PredictiveParsing

/-- An engine with matchers of some type. -/
class Engine (M : Type) where
  /-- The matcher of a pattern, or what is wrong with the pattern. -/
  read : Text → Except PatternError M
  /-- What a matcher finds in a text. -/
  find : M → Text → Option Match

@[default_instance]
instance Matcher.engine : Engine Matcher := ⟨Matcher.read, Matcher.find⟩

theorem Matcher.engine_find (m : Matcher) (text : Text) : Engine.find m text = m.find text := rfl

end PredictiveParsing
