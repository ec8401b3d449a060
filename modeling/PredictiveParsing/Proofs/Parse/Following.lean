import PredictiveParsing.Proofs.Parse.Composing
import PredictiveParsing.Proofs.Parse.Programs
import PredictiveParsing.Proofs.Predict.Probing

/-!
# What the runs of a parser follow

The operations of a parser are put together from scanning, from opening and closing rules, and from
events of their own. What holds of all these holds of every operation that commits nothing and
begins no source.

* `Scans`, `Steady`: relations that hold of scanning, and of rules and events as well.
* `Parser.consume_cases`: all that a commitment can do.
* `Parser.sequential_follows`, `Parser.carries_follows`: the operations that follow such relations.
-/

namespace PredictiveParsing

open PredictiveParsing.Action

variable {μ α : Type} {T : ParserState → List (Emission μ) → ParserState → Prop}

/-- A relation that holds where the scanner follows a relation of its own. -/
class Scans (S : outParam (Store → List Event → Store → Prop))
    (T : ParserState → List (Emission μ) → ParserState → Prop) : Prop extends Composes T where
  scan {s : ParserState} {events : List Event} {t : Store} :
    S s.store events t → T s (events.map .event) { s with store := t }

/-- A relation that also holds where rules are opened or closed and where a parser reports. -/
class Steady (S : outParam (Store → List Event → Store → Prop))
    (T : ParserState → List (Emission μ) → ParserState → Prop) : Prop extends Scans S T where
  rules (s : ParserState) (rules : List String) : T s [] { s with rules }
  emit (s : ParserState) {event : Event} : event.ofParser = true → T s [.event event] s

namespace Parser

/-! ## Scanning -/

theorem scan_state (action : Action Event Store Empty α) (s : ParserState) :
    (scan action s : Run (Emission μ) ParserState ParseError α).state =
      { s with store := (action s.store).state } := by
  rw [scan, scanOr]
  cases (action s.store).exit with
  | error e => exact e.elim
  | _ => rfl

theorem scan_records (action : Action Event Store Empty α) (s : ParserState) :
    (scan action s : Run (Emission μ) ParserState ParseError α).records =
      (action s.store).records.map .event := by
  rw [scan, scanOr]
  cases (action s.store).exit with
  | error e => exact e.elim
  | _ => rfl

/-- A commitment faults while it scans, or it mismatches and reports that, or it reports the match
of a token of the kind that lies ahead and its commitment. -/
theorem consume_cases (parser : Parser) (kind : KindId) (s : ParserState) :
    let scanned := parser.scanner.consume kind s.store
    let after : ParserState := { s with store := scanned.state }
    (∃ f, (parser.consume kind s : Run (Emission μ) ParserState ParseError Token) =
      ⟨.fault f, after, scanned.records.map .event⟩) ∨
    (∃ e, (parser.consume kind s : Run (Emission μ) ParserState ParseError Token) =
      ⟨.error e, after, [.event (.mismatched e.rule e.found.span.start e.message)]⟩) ∨
    ∃ found token, parser.scanner.lexicon.get? kind = some found ∧ token.kind = kind ∧
      s.offset ≤ token.span.start ∧ token.span.start < token.span.stop ∧
      after.offset = token.span.stop ∧
      (parser.consume kind s : Run (Emission μ) ParserState ParseError Token) =
        ⟨.ok token, { after with consumed := s.consumed + 1 },
          (Scanner.matchEvents found token).map .event ++
            [.event (.consumed (parser.scanner.lexicon.name kind) token.span)]⟩ := by
  intro scanned after
  rcases parser.scanner.consume_cases kind s.store with
    ⟨f, hfault⟩ | ⟨m, t, hrun⟩ | ⟨found, token, hfound, hkind, hstart, hspan, -, hrun⟩
  · refine Or.inl ⟨f, ?_⟩
    simp only [Parser.consume, scanOr, Action.bind_apply, hfault]
    rfl
  · let e : ParseError := ⟨[m.expected], m.found, s.activeRule,
      parser.messages parser.scanner.lexicon [m.expected] m.found s.activeRule⟩
    refine Or.inr (Or.inl ⟨e, ?_⟩)
    simp only [Parser.consume, scanOr, Action.bind_apply, mismatch, after, scanned, hrun]
    rfl
  · refine Or.inr (Or.inr ⟨found, token, hfound, hkind, hstart, hspan, ?_, ?_⟩)
    · simp only [ParserState.offset, after, scanned, hrun]
    · simp only [Parser.consume, scanOr, Action.bind_apply, after, scanned, hrun]
      rfl

/-! ## Sequences -/

theorem sequential_follows [Composes T] : Sequential (μ := μ) (Follows T) where
  pure := .pure
  get := .get
  stop := .stop
  bind := .bind

/-! ## Scanning ahead -/

variable {S : Store → List Event → Store → Prop}

section scans

variable [Scans S T]

theorem scanOr_follows {ε : Type} {onError : ε → ParseAction μ α} {action : Action Event Store ε α}
    (honError : ∀ e, Follows T (onError e)) (haction : action.Follows S) :
    Follows T (scanOr onError action) := by
  intro s
  have hscan := Scans.scan (T := T) (haction s.store)
  rw [scanOr]
  cases (action s.store).exit with
  | ok a => exact hscan
  | fault f => exact hscan
  | error e => exact Composes.trans hscan (honError e _)

theorem scan_follows {action : Action Event Store Empty α} (haction : action.Follows S) :
    Follows T (scan action : ParseAction μ α) :=
  scanOr_follows (fun e => e.elim) haction

theorem check_follows (parser : Parser) [parser.scanner.Obeys S] (lookahead : OptionalLookahead) :
    Follows T (parser.check lookahead : ParseAction μ Bool) :=
  scan_follows (lookahead.holds_follows parser.scanner)

end scans

/-! ## Operations that commit nothing -/

section steady

variable [Steady S T]
include S

theorem emit_follows {event : Event} (h : event.ofParser = true) :
    Follows T (Action.emit (.event event) : ParseAction μ Unit) := fun s => Steady.emit s h

theorem rule_follows (name : String) {x : ParseAction μ α} (hx : Follows T x) :
    Follows T (rule name x) := by
  have hrules (f : ParserState → List String) :
      Follows T (Action.modify fun s => { s with rules := f s } : ParseAction μ Unit) :=
    fun s => Steady.rules s (f s)
  have hleave (ok : Bool) : Follows T (leave name ok : ParseAction μ Unit) :=
    .bind (hrules fun s => s.rules.tail) fun _ => emit_follows rfl
  refine .bind (.bind .get fun _ => .bind (emit_follows rfl) fun _ => hrules _) fun _ => ?_
  refine .bind hx.attempt ?_
  rintro (e | a)
  · exact .bind (hleave false) fun _ => .raise e
  · exact .bind (hleave true) fun _ => .pure a

variable (parser : Parser)

theorem mismatch_follows (expected : List KindId) (found : Token) :
    Follows T (parser.mismatch expected found : ParseAction μ α) :=
  .bind .get fun _ => .bind (emit_follows rfl) fun _ => .raise _

theorem carries_follows [parser.scanner.Obeys S] : parser.Carries (μ := μ) (Follows T) where
  toSequential := sequential_follows
  rule := rule_follows
  skip := scan_follows Scanner.Obeys.skip
  found := scan_follows parser.scanner.found_follows
  branch lookahead := scan_follows (lookahead.matchingBranch_follows parser.scanner)
  check := parser.check_follows
  mismatch := mismatch_follows parser

end steady

end Parser

end PredictiveParsing
