import PredictiveParsing.Proofs.Parse.Following
import PredictiveParsing.Proofs.Parse.Steps

/-!
# Errors are reported

Where an operation fails it reports a mismatch, and its error ends everything around it. So a run
reports as many mismatches as it has errors: the one that it ends with, or none.

* `notices`: the mismatches among what was emitted.
* `Parser.Reveals`: every run of an action reports its error and no other.
* `Parser.carries_reveals`: it holds of what scans and mismatches and goes over sequences and rules.
-/

namespace PredictiveParsing

variable {μ α β : Type}

/-! ## Notices -/

/-- The rule, the place and the message of a mismatch that is reported. -/
def Event.mismatch? : Event → Option (Option String × Nat × String)
  | .mismatched rule offset message => some (rule, offset, message)
  | _ => none

/-- What is reported of an error when it arises. -/
def ParseError.notice (e : ParseError) : Option String × Nat × String :=
  (e.rule, e.found.span.start, e.message)

/-- The error of a run that ends with one. -/
def Exit.errors : Exit ParseError α → List ParseError
  | .error e => [e]
  | _ => []

/-- The mismatches that are reported among some records. -/
def notices (records : List (Emission μ)) : List (Option String × Nat × String) :=
  records.filterMap fun record => record.event?.bind Event.mismatch?

theorem notices_append (a b : List (Emission μ)) : notices (a ++ b) = notices a ++ notices b :=
  List.filterMap_append

/-- The scanner reports no mismatches. -/
theorem notices_scanned {events : List Event} (h : ∀ e ∈ events, e.ofParser = false) :
    notices (events.map Emission.event : List (Emission μ)) = [] := by
  rw [notices, List.filterMap_map, List.filterMap_eq_nil_iff]
  intro e he
  have hscanned := h e he
  cases e with
  | mismatched rule offset message => cases hscanned
  | _ => rfl

theorem notices_rule (name : String) (offset : Nat) (ok : Bool) (records : List (Emission μ)) :
    notices (.event (.entered name offset) :: records ++ [.event (.exited name ok)]) =
      notices records := by
  rw [notices_append]
  exact List.append_nil _

namespace Parser

/-- The error with which a run of an action ends is reported, and no other mismatch is. -/
def Reveals (x : ParseAction μ α) : Prop :=
  ∀ s, notices (x s).records = (x s).exit.errors.map ParseError.notice

namespace Reveals

variable {x : ParseAction μ α}

theorem pure (a : α) : Reveals (Pure.pure a : ParseAction μ α) := fun _ => rfl

theorem get : Reveals (Action.get : ParseAction μ ParserState) := fun _ => rfl

theorem stop (f : Fault) : Reveals (Action.stop f : ParseAction μ α) := fun _ => rfl

theorem bind {f : α → ParseAction μ β} (hx : Reveals x) (hf : ∀ a, Reveals (f a)) :
    Reveals (x >>= f) := by
  intro s
  have hfirst := hx s
  rw [Action.bind_apply]
  cases hexit : (x s).exit with
  | ok a =>
    rw [hexit] at hfirst
    dsimp only
    rw [notices_append, hfirst]
    exact hf a _
  | error e =>
    rw [hexit] at hfirst
    exact hfirst
  | fault g =>
    rw [hexit] at hfirst
    exact hfirst

theorem scan {action : Action Event Store Empty α} (h : action.Follows Forward) :
    Reveals (scan action : ParseAction μ α) := by
  intro s
  rw [scan_records, notices_scanned (h s.store).scanned, Parser.scan, scanOr]
  cases (action s.store).exit with
  | error e => exact e.elim
  | _ => rfl

theorem mismatch (parser : Parser) (expected : List KindId) (found : Token) :
    Reveals (parser.mismatch expected found : ParseAction μ α) := fun _ => rfl

theorem consume (parser : Parser) (kind : KindId) :
    Reveals (parser.consume kind : ParseAction μ Token) := by
  intro s
  rcases parser.consume_cases (μ := μ) kind s with
    ⟨f, hrun⟩ | ⟨e, hrun⟩ | ⟨found, token, -, -, -, -, -, hrun⟩
  · rw [hrun]
    exact notices_scanned (parser.scanner.consume_follows (T := Forward) kind s.store).scanned
  · rw [hrun]
    rfl
  · rw [hrun]
    dsimp only
    rw [notices_append, notices_scanned (Scanner.scanned_matchEvents found token)]
    rfl

theorem rule (name : String) (hx : Reveals x) : Reveals (Parser.rule name x) := by
  intro s
  have hbody := hx { s with rules := name :: s.rules }
  rcases hrun : x { s with rules := name :: s.rules } with ⟨a | e | f, s', records⟩
  · rw [hrun] at hbody
    rw [rule_of_ok name hrun, notices_rule, hbody]
  · rw [hrun] at hbody
    rw [rule_of_error name hrun, notices_rule, hbody]
  · rw [hrun] at hbody
    rw [rule_of_fault name hrun]
    exact hbody

end Reveals

theorem carries_reveals (parser : Parser) : parser.Carries (μ := μ) Reveals where
  pure := .pure
  get := .get
  stop := .stop
  bind := .bind
  rule name _ hx := .rule name hx
  skip := .scan Scanner.Obeys.skip
  found := .scan parser.scanner.found_follows
  branch lookahead := .scan (lookahead.matchingBranch_follows parser.scanner)
  check lookahead := .scan (lookahead.holds_follows parser.scanner)
  mismatch := .mismatch parser

end Parser

end PredictiveParsing
