import PredictiveParsing.Proofs.Parse.Steps

/-!
# What holds of all that is put together

The operations of a parser are put together from scanning, from mismatches, and from one another, in
sequence and in rules. A property of actions that goes over sequences holds of a repetition if it
holds of its decisions and its rounds. If it goes over rules as well, and holds of what scans and
mismatches, it holds of every operation that commits nothing.

* `Parser.Sequential`, `Parser.Carries`: such properties.
-/

namespace PredictiveParsing.Parser

variable {μ α : Type}

/-- A property of actions that goes over sequences. -/
structure Sequential (P : ∀ {α : Type}, ParseAction μ α → Prop) : Prop where
  pure {α : Type} (a : α) : P (Pure.pure a : ParseAction μ α)
  get : P (Action.get : ParseAction μ ParserState)
  stop {α : Type} (f : Fault) : P (Action.stop f : ParseAction μ α)
  bind {α β : Type} {x : ParseAction μ α} {f : α → ParseAction μ β} :
    P x → (∀ a, P (f a)) → P (x >>= f)

namespace Sequential

variable {P : ∀ {α : Type}, ParseAction μ α → Prop} (h : Sequential P) {parser : Parser}
  {lookahead : OptionalLookahead} {x : ParseAction μ α}

include h

theorem optional (hcheck : P (parser.check lookahead)) (hx : P x) :
    P (parser.optional lookahead x) := by
  refine h.bind hcheck fun entered => ?_
  split
  · exact h.bind hx fun a => h.pure (some a)
  · exact h.pure none

theorem progressing (hx : P x) : P (Parser.progressing x) := by
  refine h.bind h.get fun s => h.bind hx fun item => h.bind h.get fun t => ?_
  split
  · exact h.stop _
  · exact h.pure item

theorem rounds (hcheck : P (parser.check lookahead)) (hx : P x) (n : Nat) :
    P (parser.rounds lookahead x n) := by
  induction n with
  | zero => exact h.bind h.get fun _ => h.stop _
  | succ n ih =>
    rw [rounds_succ]
    refine h.bind hcheck fun entered => ?_
    split
    · exact h.bind (h.progressing hx) fun item => h.bind ih fun items => h.pure (item :: items)
    · exact h.pure []

end Sequential

/-- A property of actions that goes over sequences and rules and holds of what a parser scans and of
its mismatches. -/
structure Carries (parser : Parser) (P : ∀ {α : Type}, ParseAction μ α → Prop) : Prop extends
    Sequential P where
  rule {α : Type} (name : String) {x : ParseAction μ α} : P x → P (Parser.rule name x)
  skip : P (scan parser.scanner.skip : ParseAction μ Nat)
  found : P (scan parser.scanner.found : ParseAction μ Token)
  branch (lookahead : AlternativeLookahead) :
    P (scan (lookahead.matchingBranch parser.scanner) : ParseAction μ (Option Nat))
  check (lookahead : OptionalLookahead) : P (parser.check lookahead : ParseAction μ Bool)
  mismatch {α : Type} (expected : List KindId) (found : Token) :
    P (parser.mismatch expected found : ParseAction μ α)

namespace Carries

variable {P : ∀ {α : Type}, ParseAction μ α → Prop} {parser : Parser} (h : parser.Carries P)

include h

theorem alternatives (lookahead : AlternativeLookahead) : P (parser.alternatives lookahead) := by
  refine h.bind (h.branch lookahead) ?_
  rintro (_ | branch)
  · exact h.bind (h.bind h.skip fun _ => h.found) fun found => h.mismatch _ found
  · exact h.pure branch

theorem expectEnd : P parser.expectEnd := by
  refine h.bind h.skip fun _ => h.bind h.get fun s => ?_
  split
  · exact h.pure ()
  · exact h.bind h.found fun found => h.mismatch _ found

end Carries

end PredictiveParsing.Parser
