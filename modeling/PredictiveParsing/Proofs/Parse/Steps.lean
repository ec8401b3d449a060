import PredictiveParsing.Parse.Parser
import PredictiveParsing.Proofs.Scan.Places

/-!
# Steps of a parser

An action of a parser succeeds from one place to another: it commits the tokens read between them
and leaves the open rules and the kept errors as they are. Or it fails: it commits some tokens and
stops behind the gap that follows them, with the error of what stands there.

* `Succeeds.bind`, `Succeeds.bind_fails`, `Fails.bind`: actions in sequence.
* `consume_succeeds`, `consume_fails`, `alternatives_succeeds`, `alternatives_fails`: what is
  offered at a place decides.
* `many_succeeds`, `many_fails`: a repetition is the sequence of its rounds.
-/

namespace PredictiveParsing

open Text

variable {μ α β : Type}

/-- The names and spans of the tokens that emissions report as committed. -/
def commits (records : List (Emission μ)) : List (String × Span) :=
  records.filterMap fun record => record.event?.bind Event.commit?

theorem commits_append (a b : List (Emission μ)) : commits (a ++ b) = commits a ++ commits b :=
  List.filterMap_append

theorem commits_cons_event {e : Event} (h : e.commit? = none) (records : List (Emission μ)) :
    commits (.event e :: records) = commits records :=
  List.filterMap_cons_none h

theorem commits_map_event (events : List Event) :
    commits (events.map Emission.event : List (Emission μ)) =
      events.filterMap Event.commit? := by
  rw [commits, List.filterMap_map]
  rfl

namespace Parser

/-- What is reported of tokens that are committed. -/
def named (parser : Parser) (tokens : List Token) : List (String × Span) :=
  tokens.map fun t => (parser.scanner.lexicon.name t.kind, t.span)

theorem named_append (parser : Parser) (a b : List Token) :
    parser.named (a ++ b) = parser.named a ++ parser.named b :=
  List.map_append

/-- The error of what stands at a place. -/
def errorAt (parser : Parser) (expected : List KindId) (rule : Option String) (p : Place) :
    ParseError :=
  let found := parser.scanner.foundOf p.before p.rest
  ⟨expected, found, rule, parser.messages parser.scanner.lexicon expected found rule⟩

/-- A state behind tokens that lead to a place. -/
def advanced (s : ParserState) (tokens : List Token) (q : Place) : ParserState :=
  { s with store := q.store, consumed := s.consumed + tokens.length }

theorem advanced_append (s : ParserState) (a b : List Token) (q r : Place) :
    advanced (advanced s a q) b r = advanced s (a ++ b) r := by
  simp [advanced, Nat.add_assoc]

theorem advanced_nil {s : ParserState} {p : Place} (h : s.store = p.store) :
    advanced s [] p = s := by
  rw [advanced, ← h]
  rfl

/-- Inside some rules an action succeeds from one place to another, where it commits the tokens
between. -/
structure Succeeds (parser : Parser) (rules : List String) (x : ParseAction μ α) (p : Place)
    (tokens : List Token) (q : Place) (a : α) : Prop where
  reads : parser.scanner.Reads p tokens q
  run : p.Fits → ∀ s : ParserState, s.store = p.store → s.rules = rules →
    ∃ records, x s = ⟨.ok a, advanced s tokens q, records⟩ ∧
      commits records = parser.named tokens

/-- Inside some rules an action commits the tokens up to a place and fails behind the gap there. -/
structure Fails (parser : Parser) (rules : List String) (x : ParseAction μ α) (p : Place)
    (tokens : List Token) (q : Place) (expected : List KindId) (rule : Option String) : Prop where
  reads : parser.scanner.Reads p tokens q
  run : p.Fits → ∀ s : ParserState, s.store = p.store → s.rules = rules →
    ∃ records, x s =
        ⟨.error (parser.errorAt expected rule (parser.scanner.behind q)),
          advanced s tokens (parser.scanner.behind q), records⟩ ∧
      commits records = parser.named tokens

variable {parser : Parser} {rules : List String} {p q r : Place} {tokens a b : List Token}
  {expected : List KindId} {active : Option String}

/-! ## Sequences -/

theorem succeeds_pure (v : α) : Succeeds parser rules (pure v : ParseAction μ α) p [] p v where
  reads := .nil
  run := by
    intro _ s hstore _
    exact ⟨[], by rw [advanced_nil hstore]; rfl, rfl⟩

theorem Succeeds.bind {x : ParseAction μ α} {f : α → ParseAction μ β} {v : α} {w : β}
    (hx : Succeeds parser rules x p a q v) (hf : Succeeds parser rules (f v) q b r w) :
    Succeeds parser rules (x >>= f) p (a ++ b) r w where
  reads := hx.reads.append hf.reads
  run := by
    intro hfit s hstore hrules
    obtain ⟨records, hrun, hcommits⟩ := hx.run hfit s hstore hrules
    obtain ⟨records', hrun', hcommits'⟩ :=
      hf.run (hx.reads.fits hfit) (advanced s a q) rfl hrules
    refine ⟨records ++ records', ?_, ?_⟩
    · rw [Action.bind_of_ok hrun, hrun', advanced_append]
    · rw [commits_append, hcommits, hcommits', named_append]

theorem Succeeds.bind_pure {x : ParseAction μ α} {v : α} (g : α → β)
    (hx : Succeeds parser rules x p tokens q v) :
    Succeeds parser rules (x >>= fun v => pure (g v)) p tokens q (g v) := by
  have h := Succeeds.bind (f := fun v => pure (g v)) hx (succeeds_pure (g v))
  rwa [List.append_nil] at h

theorem Succeeds.bind_fails {x : ParseAction μ α} {f : α → ParseAction μ β} {v : α}
    (hx : Succeeds parser rules x p a q v)
    (hf : Fails parser rules (f v) q b r expected active) :
    Fails parser rules (x >>= f) p (a ++ b) r expected active where
  reads := hx.reads.append hf.reads
  run := by
    intro hfit s hstore hrules
    obtain ⟨records, hrun, hcommits⟩ := hx.run hfit s hstore hrules
    obtain ⟨records', hrun', hcommits'⟩ :=
      hf.run (hx.reads.fits hfit) (advanced s a q) rfl hrules
    refine ⟨records ++ records', ?_, ?_⟩
    · rw [Action.bind_of_ok hrun, hrun', advanced_append]
    · rw [commits_append, hcommits, hcommits', named_append]

theorem Fails.bind {x : ParseAction μ α} {f : α → ParseAction μ β}
    (hx : Fails parser rules x p tokens q expected active) :
    Fails parser rules (x >>= f) p tokens q expected active where
  reads := hx.reads
  run := by
    intro hfit s hstore hrules
    obtain ⟨records, hrun, hcommits⟩ := hx.run hfit s hstore hrules
    exact ⟨records, by rw [Action.bind_apply, hrun], hcommits⟩

/-- A decision commits nothing. -/
theorem Succeeds.decide {x : ParseAction μ α} {f : α → ParseAction μ β} {v : α} {w : β}
    (hx : Succeeds parser rules x p [] p v) (hf : Succeeds parser rules (f v) p tokens q w) :
    Succeeds parser rules (x >>= f) p tokens q w :=
  hx.bind hf

theorem Succeeds.decide_fails {x : ParseAction μ α} {f : α → ParseAction μ β} {v : α}
    (hx : Succeeds parser rules x p [] p v)
    (hf : Fails parser rules (f v) p tokens q expected active) :
    Fails parser rules (x >>= f) p tokens q expected active :=
  hx.bind_fails hf

/-! ## Rules -/

theorem rule_of_ok {x : ParseAction μ α} {v : α} {s s' : ParserState}
    {records : List (Emission μ)} (name : String)
    (h : x { s with rules := name :: s.rules } = ⟨.ok v, s', records⟩) :
    Parser.rule name x s =
      ⟨.ok v, { s' with rules := s'.rules.tail },
        .event (.entered name s.offset) :: records ++ [.event (.exited name true)]⟩ := by
  simp [Parser.rule, enter, leave, Action.bind_apply, Action.map_apply, Action.attempt, h]

theorem rule_of_error {x : ParseAction μ α} {e : ParseError} {s s' : ParserState}
    {records : List (Emission μ)} (name : String)
    (h : x { s with rules := name :: s.rules } = ⟨.error e, s', records⟩) :
    Parser.rule name x s =
      ⟨.error e, { s' with rules := s'.rules.tail },
        .event (.entered name s.offset) :: records ++ [.event (.exited name false)]⟩ := by
  simp [Parser.rule, enter, leave, Action.bind_apply, Action.attempt, h]

theorem rule_of_fault {x : ParseAction μ α} {f : Fault} {s s' : ParserState}
    {records : List (Emission μ)} (name : String)
    (h : x { s with rules := name :: s.rules } = ⟨.fault f, s', records⟩) :
    Parser.rule name x s = ⟨.fault f, s', .event (.entered name s.offset) :: records⟩ := by
  simp [Parser.rule, enter, Action.bind_apply, Action.attempt, h]

/-- A rule runs its body in one state only. -/
theorem rule_congr {x y : ParseAction μ α} {name : String} {s : ParserState}
    (h : x { s with rules := name :: s.rules } = y { s with rules := name :: s.rules }) :
    Parser.rule name x s = Parser.rule name y s := by
  simp [Parser.rule, enter, Action.bind_apply, Action.attempt, h]

theorem commits_rule (name : String) (s : ParserState) (ok : Bool)
    (records : List (Emission μ)) :
    commits (.event (.entered name s.offset) :: records ++ [.event (.exited name ok)]) =
      commits records := by
  rw [commits_append, commits_cons_event rfl]
  exact List.append_nil _

theorem Succeeds.rule {x : ParseAction μ α} {v : α} (name : String)
    (hx : Succeeds parser (name :: rules) x p tokens q v) :
    Succeeds parser rules (Parser.rule name x) p tokens q v where
  reads := hx.reads
  run := by
    intro hfit s hstore hrules
    obtain ⟨records, hrun, hcommits⟩ :=
      hx.run hfit { s with rules := name :: s.rules } hstore (by rw [hrules])
    exact ⟨_, rule_of_ok name hrun, by rw [commits_rule, hcommits]⟩

theorem Fails.rule {x : ParseAction μ α} (name : String)
    (hx : Fails parser (name :: rules) x p tokens q expected active) :
    Fails parser rules (Parser.rule name x) p tokens q expected active where
  reads := hx.reads
  run := by
    intro hfit s hstore hrules
    obtain ⟨records, hrun, hcommits⟩ :=
      hx.run hfit { s with rules := name :: s.rules } hstore (by rw [hrules])
    exact ⟨_, rule_of_error name hrun, by rw [commits_rule, hcommits]⟩

/-! ## Scanning -/

theorem succeeds_scan {action : Action Event Store Empty α} {v : α}
    (h : p.Fits → ∃ records, action p.store = ⟨.ok v, p.store, records⟩ ∧
      records.filterMap Event.commit? = []) :
    Succeeds parser rules (scan action : ParseAction μ α) p [] p v where
  reads := .nil
  run := by
    intro hfit s hstore _
    obtain ⟨records, hrun, hquiet⟩ := h hfit
    refine ⟨records.map .event, ?_, ?_⟩
    · rw [advanced_nil hstore]
      rw [← hstore] at hrun
      simp [scan, scanOr, hrun]
    · rw [commits_map_event, hquiet]
      rfl

/-- The place behind the gap, as the scanner gets there. -/
theorem skip_store (parser : Parser) (ε : Type) (hfit : p.Fits) :
    ∃ n, (parser.scanner.skip : Action Event Store ε Nat) p.store =
      ⟨.ok n, (parser.scanner.behind p).store, []⟩ := by
  obtain ⟨gap, rest, hrest, hgap, hbehind⟩ := parser.scanner.exists_behind p
  refine ⟨byteLength gap, ?_⟩
  rw [Place.Fits, Place.source, hrest, ← List.append_assoc] at hfit
  rw [hbehind, Place.store, hrest, Scanner.skip_between hgap hfit]
  rfl

theorem found_store (parser : Parser) (ε : Type) (hfit : p.Fits) :
    (parser.scanner.found : Action Event Store ε Token) p.store =
      ⟨.ok (parser.scanner.foundOf p.before p.rest), p.store, []⟩ :=
  Scanner.found_between hfit

theorem mismatch_run (parser : Parser) (expected : List KindId) (found : Place)
    {s : ParserState} (hrules : s.rules = rules) :
    ∃ records, (parser.mismatch expected (parser.scanner.foundOf found.before found.rest) :
        ParseAction μ α) s =
        ⟨.error (parser.errorAt expected rules.head? found), s, records⟩ ∧
      commits records = [] := by
  have hrule : s.activeRule = rules.head? := by rw [ParserState.activeRule, hrules]
  let e := parser.errorAt expected rules.head? found
  refine ⟨[.event (.mismatched rules.head? e.found.span.start e.message)], ?_, rfl⟩
  simp only [mismatch, Action.bind_apply, Action.get_apply, Action.emit_apply,
    Action.raise_apply, hrule]
  rfl

/-! ## Operations that can mismatch -/

theorem consume_succeeds (htrip : parser.scanner.tripwire = none) {t : Token}
    (h : parser.scanner.Reads p [t] q) :
    Succeeds parser rules (parser.consume t.kind : ParseAction μ Token) p [t] q t where
  reads := h
  run := by
    intro hfit s hstore _
    cases h with
    | @cons _ _ _ gap rest _ hrest hgap htakes hstart hstop hnil =>
      cases hnil
      rw [Place.Fits, Place.source, hrest, ← List.append_assoc] at hfit
      have htoken : t = Scanner.tokenOf t.kind (p.before ++ gap) t.text := by
        rw [byteLength_append _ t.text] at hstop
        rw [Scanner.tokenOf, ← hstop, ← hstart]
      obtain ⟨kind, hmatch⟩ := Scanner.tryMatch_between (ε := Mismatch) htrip htakes
        (by rwa [List.append_assoc])
      rw [← htoken] at hmatch
      have hconsume : parser.scanner.consume t.kind s.store =
          ⟨.ok t, Store.between (p.before ++ gap ++ t.text) rest, Scanner.matchEvents kind t⟩ := by
        rw [hstore, Place.store, hrest, Scanner.consume,
          Action.bind_of_ok (Scanner.skip_between hgap hfit), Action.bind_of_ok hmatch]
        simp
      refine ⟨(Scanner.matchEvents kind t).map .event ++
        [.event (.consumed (parser.scanner.lexicon.name t.kind) t.span)], ?_, ?_⟩
      · simp [Parser.consume, Action.bind_apply, Action.map_apply, scanOr, hconsume, advanced,
          Place.store]
      · rw [commits_append, commits_map_event, filterMap_commit?_matchEvents]
        rfl

theorem consume_fails {id : KindId} (h : parser.scanner.offers p id = false) :
    Fails parser rules (parser.consume id : ParseAction μ Token) p [] p [id] rules.head? where
  reads := .nil
  run := by
    intro hfit s hstore hrules
    obtain ⟨n, hskip⟩ := skip_store parser Mismatch hfit
    have hbehind : (parser.scanner.behind p).Fits := by
      rw [Place.Fits, Scanner.source_behind]
      exact hfit
    have hconsume : parser.scanner.consume id s.store =
        ⟨.error ⟨id, parser.scanner.foundOf (parser.scanner.behind p).before
          (parser.scanner.behind p).rest⟩, (parser.scanner.behind p).store, []⟩ := by
      rw [hstore, Scanner.consume, Action.bind_of_ok hskip, Place.store,
        Action.bind_of_ok (Scanner.tryMatch_between_none h)]
      simp only [Action.bind_of_ok (Scanner.found_between hbehind), Action.raise_apply]
      rfl
    have hadvanced : (advanced s [] (parser.scanner.behind p)).rules = rules := hrules
    obtain ⟨records, hmismatch, hquiet⟩ :=
      mismatch_run (μ := μ) (α := Token) parser [id] (parser.scanner.behind p) hadvanced
    refine ⟨records, ?_, hquiet⟩
    have hscan : (scanOr (fun m => parser.mismatch [m.expected] m.found)
        (parser.scanner.consume id) : ParseAction μ Token) s =
        ⟨.error (parser.errorAt [id] rules.head? (parser.scanner.behind p)),
          advanced s [] (parser.scanner.behind p), records⟩ := by
      simp only [scanOr, hconsume]
      exact hmismatch ▸ rfl
    rw [Parser.consume, Action.bind_apply, hscan]

theorem alternatives_succeeds (htrip : parser.scanner.tripwire = none)
    {lookahead : AlternativeLookahead} {branch : Nat}
    (h : (lookahead.branches.findIdx? fun branch => branch.kinds.any (parser.scanner.offers p)) =
      some branch) :
    Succeeds parser rules (parser.alternatives lookahead : ParseAction μ Nat) p [] p branch := by
  obtain ⟨gap, rest, hrest, hgap, hbehind⟩ := parser.scanner.exists_behind p
  have hscan : Succeeds parser rules
      (scan (lookahead.matchingBranch parser.scanner) : ParseAction μ (Option Nat)) p [] p
      (some branch) := by
    refine succeeds_scan fun hfit => ?_
    rw [Place.Fits, Place.source, hrest, ← List.append_assoc] at hfit
    have hrun := AlternativeLookahead.matchingBranch_between (ε := Empty) htrip hgap hfit lookahead
    rw [Scanner.offers_of_behind hbehind] at h
    rw [h] at hrun
    rw [Place.store, hrest]
    exact hrun
  exact hscan.decide (succeeds_pure branch)

theorem alternatives_fails (htrip : parser.scanner.tripwire = none)
    {lookahead : AlternativeLookahead}
    (h : (lookahead.branches.findIdx? fun branch => branch.kinds.any (parser.scanner.offers p)) =
      none) :
    Fails parser rules (parser.alternatives lookahead : ParseAction μ Nat) p [] p
      lookahead.expected rules.head? := by
  obtain ⟨gap, rest, hrest, hgap, hbehind⟩ := parser.scanner.exists_behind p
  have hscan : Succeeds parser rules
      (scan (lookahead.matchingBranch parser.scanner) : ParseAction μ (Option Nat)) p [] p
      none := by
    refine succeeds_scan fun hfit => ?_
    rw [Place.Fits, Place.source, hrest, ← List.append_assoc] at hfit
    have hrun := AlternativeLookahead.matchingBranch_between (ε := Empty) htrip hgap hfit lookahead
    rw [Scanner.offers_of_behind hbehind] at h
    rw [h] at hrun
    rw [Place.store, hrest]
    exact hrun
  refine hscan.decide_fails ⟨.nil, ?_⟩
  intro hfit s hstore hrules
  obtain ⟨n, hskip⟩ := skip_store parser Empty hfit
  have hfit' : (parser.scanner.behind p).Fits := by
    rw [Place.Fits, Scanner.source_behind]
    exact hfit
  have hfound := found_store parser Empty hfit'
  have hadvanced : (advanced s [] (parser.scanner.behind p)).rules = rules := hrules
  obtain ⟨records, hmismatch, hquiet⟩ :=
    mismatch_run (μ := μ) (α := Nat) parser lookahead.expected (parser.scanner.behind p) hadvanced
  refine ⟨records, ?_, hquiet⟩
  have hnext : (parser.nextFound : ParseAction μ Token) s =
      ⟨.ok (parser.scanner.foundOf (parser.scanner.behind p).before (parser.scanner.behind p).rest),
        advanced s [] (parser.scanner.behind p), []⟩ := by
    rw [← hstore] at hskip
    simp [nextFound, scan, scanOr, Action.bind_apply, hskip, hfound, advanced]
  simp only [Action.bind_of_ok hnext, hmismatch, List.nil_append]

/-! ## Bodies -/

theorem check_succeeds (htrip : parser.scanner.tripwire = none) {lookahead : OptionalLookahead}
    {more : Bool} (h : lookahead.candidates.kinds.any (parser.scanner.offers p) = more) :
    Succeeds parser rules (parser.check lookahead : ParseAction μ Bool) p [] p more := by
  obtain ⟨gap, rest, hrest, hgap, hbehind⟩ := parser.scanner.exists_behind p
  refine succeeds_scan fun hfit => ?_
  rw [Place.Fits, Place.source, hrest, ← List.append_assoc] at hfit
  have hrun := OptionalLookahead.holds_between (ε := Empty) htrip hgap hfit lookahead
  rw [← h, Scanner.offers_of_behind hbehind, Place.store, hrest]
  exact hrun

theorem optional_absent (htrip : parser.scanner.tripwire = none) {lookahead : OptionalLookahead}
    (h : lookahead.candidates.kinds.any (parser.scanner.offers p) = false)
    (body : ParseAction μ α) :
    Succeeds parser rules (parser.optional lookahead body) p [] p none := by
  unfold Parser.optional
  apply (check_succeeds htrip h).decide
  exact succeeds_pure none

theorem optional_present (htrip : parser.scanner.tripwire = none) {lookahead : OptionalLookahead}
    (h : lookahead.candidates.kinds.any (parser.scanner.offers p) = true)
    {body : ParseAction μ α} {v : α} (hbody : Succeeds parser rules body p tokens q v) :
    Succeeds parser rules (parser.optional lookahead body) p tokens q (some v) := by
  unfold Parser.optional
  apply (check_succeeds htrip h).decide
  exact hbody.bind_pure some

theorem optional_fails (htrip : parser.scanner.tripwire = none) {lookahead : OptionalLookahead}
    (h : lookahead.candidates.kinds.any (parser.scanner.offers p) = true)
    {body : ParseAction μ α} (hbody : Fails parser rules body p tokens q expected active) :
    Fails parser rules (parser.optional lookahead body) p tokens q expected active := by
  unfold Parser.optional
  apply (check_succeeds htrip h).decide_fails
  exact hbody.bind

theorem expectEnd_ends (h : (parser.scanner.behind p).rest = []) (hfit : p.Fits)
    {s : ParserState} (hstore : s.store = p.store) :
    (parser.expectEnd : ParseAction μ Unit) s =
      ⟨.ok (), advanced s [] (parser.scanner.behind p), []⟩ := by
  obtain ⟨n, hskip⟩ := skip_store parser Empty hfit
  have hend : (parser.scanner.behind p).store.atEnd = true := by
    rw [Place.store, Store.atEnd_between, h]
    rfl
  rw [← hstore] at hskip
  simp [expectEnd, scan, scanOr, Action.bind_apply, hskip, hend, advanced]

theorem expectEnd_fails (h : (parser.scanner.behind p).rest ≠ []) :
    Fails parser rules (parser.expectEnd : ParseAction μ Unit) p [] p [KindId.eof] rules.head? where
  reads := .nil
  run := by
    intro hfit s hstore hrules
    obtain ⟨n, hskip⟩ := skip_store parser Empty hfit
    have hfit' : (parser.scanner.behind p).Fits := by
      rw [Place.Fits, Scanner.source_behind]
      exact hfit
    have hfound := found_store parser Empty hfit'
    have hend : (parser.scanner.behind p).store.atEnd = false := by
      rw [Place.store, Store.atEnd_between, List.isEmpty_eq_false_iff]
      exact h
    have hadvanced : (advanced s [] (parser.scanner.behind p)).rules = rules := hrules
    obtain ⟨records, hmismatch, hquiet⟩ :=
      mismatch_run (μ := μ) (α := Unit) parser [KindId.eof] (parser.scanner.behind p) hadvanced
    refine ⟨records, ?_, hquiet⟩
    rw [← hstore] at hskip
    have hscan : (scan parser.scanner.skip : ParseAction μ Nat) s =
        ⟨.ok n, advanced s [] (parser.scanner.behind p), []⟩ := by
      simp [scan, scanOr, hskip, advanced]
    have hscan' : (scan parser.scanner.found : ParseAction μ Token)
        (advanced s [] (parser.scanner.behind p)) =
        ⟨.ok (parser.scanner.foundOf (parser.scanner.behind p).before
          (parser.scanner.behind p).rest), advanced s [] (parser.scanner.behind p), []⟩ := by
      simp [scan, scanOr, advanced, hfound]
    have hstate : (advanced s [] (parser.scanner.behind p)).store.atEnd = false := hend
    rw [expectEnd, Action.bind_of_ok hscan, Action.bind_of_ok (Action.get_apply _)]
    simp only [hstate, Bool.false_eq_true, if_false, Action.bind_of_ok hscan', hmismatch,
      List.nil_append]

/-! ## Repetitions -/

/-- A body that has to move on. -/
def progressing (body : ParseAction μ α) : ParseAction μ α := do
  let before := (← Action.get).offset
  let item ← body
  if (← Action.get).offset ≤ before then
    Action.stop (.noProgress before)
  else
    return item

theorem progressing_of_ok {x : ParseAction μ α} {v : α} {s s' : ParserState}
    {records : List (Emission μ)} (h : x s = ⟨.ok v, s', records⟩) :
    progressing x s =
      ⟨if s'.offset ≤ s.offset then .fault (.noProgress s.offset) else .ok v, s', records⟩ := by
  simp only [progressing, Action.bind_of_ok (Action.get_apply _), Action.bind_of_ok h,
    Action.ite_apply]
  split <;> simp

theorem progressing_of_error {x : ParseAction μ α} {e : ParseError} {s s' : ParserState}
    {records : List (Emission μ)} (h : x s = ⟨.error e, s', records⟩) :
    progressing x s = ⟨.error e, s', records⟩ := by
  rw [progressing, Action.bind_of_ok (Action.get_apply _), Action.bind_apply, h]
  rfl

theorem progressing_of_fault {x : ParseAction μ α} {f : Fault} {s s' : ParserState}
    {records : List (Emission μ)} (h : x s = ⟨.fault f, s', records⟩) :
    progressing x s = ⟨.fault f, s', records⟩ := by
  rw [progressing, Action.bind_of_ok (Action.get_apply _), Action.bind_apply, h]
  rfl

theorem rounds_succ (lookahead : OptionalLookahead) (body : ParseAction μ α) (n : Nat) :
    parser.rounds lookahead body (n + 1) =
      parser.check lookahead >>= fun more =>
        if more then
          progressing body >>= fun item =>
            parser.rounds lookahead body n >>= fun items => pure (item :: items)
        else pure [] := by
  rw [Parser.rounds]
  congr 1
  funext more
  split
  · simp only [progressing, bind_assoc]
    congr 1
    funext s
    congr 1
    funext item
    congr 1
    funext s'
    split
    · rfl
    · rw [pure_bind]
  · rfl

theorem Succeeds.progressing {x : ParseAction μ α} {v : α}
    (hx : Succeeds parser rules x p tokens q v) (hne : tokens ≠ []) :
    Succeeds parser rules (Parser.progressing x) p tokens q v where
  reads := hx.reads
  run := by
    intro hfit s hstore hrules
    obtain ⟨records, hrun, hcommits⟩ := hx.run hfit s hstore hrules
    have hmoved : ¬ (advanced s tokens q).offset ≤ s.offset := by
      have hlen := hx.reads.length_le
      have hsource := congrArg byteLength hx.reads.source_eq
      have hpos := List.length_pos_iff.2 hne
      simp only [Place.source, byteLength_append] at hsource
      simp only [ParserState.offset, advanced, hstore, Place.store, Store.offset_between]
      omega
    exact ⟨records, by rw [progressing_of_ok hrun, if_neg hmoved], hcommits⟩

theorem Fails.progressing {x : ParseAction μ α}
    (hx : Fails parser rules x p tokens q expected active) :
    Fails parser rules (Parser.progressing x) p tokens q expected active where
  reads := hx.reads
  run := by
    intro hfit s hstore hrules
    obtain ⟨records, hrun, hcommits⟩ := hx.run hfit s hstore hrules
    exact ⟨records, progressing_of_error hrun, hcommits⟩

/-- Rounds of a repetition that succeed one after the other, each with its tokens and its value. -/
inductive Repeats (parser : Parser) (rules : List String) (lookahead : OptionalLookahead)
    (body : ParseAction μ α) : Place → List (List Token × α) → Place → Prop where
  | nil {p : Place} : Repeats parser rules lookahead body p [] p
  | cons {p q r : Place} {tokens : List Token} {v : α} {items : List (List Token × α)} :
      lookahead.candidates.kinds.any (parser.scanner.offers p) = true →
      Succeeds parser rules body p tokens q v → tokens ≠ [] →
      Repeats parser rules lookahead body q items r →
      Repeats parser rules lookahead body p ((tokens, v) :: items) r

variable {lookahead : OptionalLookahead} {body : ParseAction μ α}
  {items : List (List Token × α)}

theorem Repeats.reads (h : Repeats parser rules lookahead body p items q) :
    parser.scanner.Reads p (items.flatMap Prod.fst) q := by
  induction h with
  | nil => exact .nil
  | cons _ hbody _ _ ih => exact hbody.reads.append ih

theorem Repeats.rounds_succeeds (htrip : parser.scanner.tripwire = none)
    (h : Repeats parser rules lookahead body p items q)
    (hlast : lookahead.candidates.kinds.any (parser.scanner.offers q) = false) {n : Nat}
    (hn : byteLength p.rest < n) :
    Succeeds parser rules (parser.rounds lookahead body n) p (items.flatMap Prod.fst) q
      (items.map Prod.snd) := by
  induction h generalizing n with
  | @nil p =>
    obtain ⟨n, rfl⟩ : ∃ m, n = m + 1 := ⟨n - 1, by omega⟩
    rw [rounds_succ]
    apply (check_succeeds htrip hlast).decide
    exact succeeds_pure []
  | @cons p q r tokens v items hmore hbody hne _ ih =>
    obtain ⟨n, rfl⟩ : ∃ m, n = m + 1 := ⟨n - 1, by omega⟩
    have hpos := List.length_pos_iff.2 hne
    have hlen := hbody.reads.length_le
    rw [rounds_succ]
    apply (check_succeeds htrip hmore).decide
    apply Succeeds.bind (hbody.progressing hne)
    exact (ih hlast (by omega)).bind_pure (v :: ·)

theorem Repeats.rounds_fails (htrip : parser.scanner.tripwire = none)
    (h : Repeats parser rules lookahead body p items q)
    (hlast : lookahead.candidates.kinds.any (parser.scanner.offers q) = true)
    (hfails : Fails parser rules body q tokens r expected active) {n : Nat}
    (hn : byteLength p.rest < n) :
    Fails parser rules (parser.rounds lookahead body n) p (items.flatMap Prod.fst ++ tokens) r
      expected active := by
  induction h generalizing n with
  | @nil p =>
    obtain ⟨n, rfl⟩ : ∃ m, n = m + 1 := ⟨n - 1, by omega⟩
    rw [rounds_succ]
    apply (check_succeeds htrip hlast).decide_fails
    exact hfails.progressing.bind
  | @cons p q r tokens v items hmore hbody hne _ ih =>
    obtain ⟨n, rfl⟩ : ∃ m, n = m + 1 := ⟨n - 1, by omega⟩
    have hpos := List.length_pos_iff.2 hne
    have hlen := hbody.reads.length_le
    rw [rounds_succ, List.flatMap_cons, List.append_assoc]
    apply (check_succeeds htrip hmore).decide_fails
    apply Succeeds.bind_fails (hbody.progressing hne)
    exact (ih hlast hfails (by omega)).bind

/-- A repetition whose rounds succeed up to where no other is offered. -/
theorem many_succeeds (htrip : parser.scanner.tripwire = none)
    (h : Repeats parser rules lookahead body p items q)
    (hlast : lookahead.candidates.kinds.any (parser.scanner.offers q) = false) :
    Succeeds parser rules (parser.many lookahead body) p (items.flatMap Prod.fst) q
      (items.map Prod.snd) where
  reads := h.reads
  run := by
    intro hfit
    refine (h.rounds_succeeds htrip hlast ?_).run hfit
    rw [Place.Fits, Place.source, byteLength_append] at hfit
    omega

/-- A repetition whose rounds succeed up to one that fails. -/
theorem many_fails (htrip : parser.scanner.tripwire = none)
    (h : Repeats parser rules lookahead body p items q)
    (hlast : lookahead.candidates.kinds.any (parser.scanner.offers q) = true)
    (hfails : Fails parser rules body q tokens r expected active) :
    Fails parser rules (parser.many lookahead body) p (items.flatMap Prod.fst ++ tokens) r
      expected active where
  reads := h.reads.append hfails.reads
  run := by
    intro hfit
    refine (h.rounds_fails htrip hlast hfails ?_).run hfit
    rw [Place.Fits, Place.source, byteLength_append] at hfit
    omega

/-! ## Whole parses -/

/-- The state in which the source of a whole parse is begun. -/
def started (source : Text) : ParserState := { store := Store.between [] source }

theorem begin_run {source : Text} (hlen : byteLength source < offsetLimit) (s : ParserState) :
    (Parser.begin source : ParseAction μ Unit) s = ⟨.ok (), started source, []⟩ := by
  simp [Parser.begin, scan, scanOr, Action.bind_apply, Store.begin_of_lt hlen, started]

/-- A source that is too long for its offsets is not begun. -/
theorem begin_of_long {source : Text} (hlen : ¬ byteLength source < offsetLimit)
    (s : ParserState) :
    (Parser.begin source : ParseAction μ Unit) s =
      ⟨.fault (.sourceTooLong (byteLength source)), s, []⟩ := by
  simp [Parser.begin, scan, scanOr, Action.bind_apply, Store.begin, hlen]

theorem run_eq_of_long {entry : ParseAction μ α} {source : Text}
    (hlen : ¬ byteLength source < offsetLimit) (s : ParserState) :
    Parser.run source entry s = ⟨.fault (.sourceTooLong (byteLength source)), s, []⟩ := by
  rw [Parser.run, Action.bind_apply, begin_of_long hlen]

theorem run_of_long {entry : ParseAction μ α} {source : Text}
    (hlen : ¬ byteLength source < offsetLimit) (s : ParserState) :
    (Parser.run source entry s).exit = .fault (.sourceTooLong (byteLength source)) :=
  congrArg Run.exit (run_eq_of_long hlen s)

theorem run_of_ok {entry : ParseAction μ α} {v : α} {source : Text} {s' : ParserState}
    {records : List (Emission μ)} (hlen : byteLength source < offsetLimit)
    (h : entry (started source) = ⟨.ok v, s', records⟩) (s : ParserState) :
    Parser.run source entry s = ⟨.ok ⟨some v, s'.errors⟩, { s' with errors := [] }, records⟩ := by
  have hattempt : (Action.attempt entry : ParseAction μ (Except ParseError α)) (started source) =
      ⟨.ok (.ok v), s', records⟩ := by
    rw [Action.attempt, h]
  rw [Parser.run, Action.bind_of_ok (begin_run hlen s), Action.bind_of_ok hattempt]
  simp [takeErrors, Action.bind_apply, Action.map_apply]

theorem run_of_error {entry : ParseAction μ α} {e : ParseError} {source : Text}
    {s' : ParserState} {records : List (Emission μ)} (hlen : byteLength source < offsetLimit)
    (h : entry (started source) = ⟨.error e, s', records⟩) (s : ParserState) :
    Parser.run source entry s =
      ⟨.ok ⟨none, s'.errors ++ [e]⟩, { s' with errors := [] }, records⟩ := by
  have hattempt : (Action.attempt entry : ParseAction μ (Except ParseError α)) (started source) =
      ⟨.ok (.error e), s', records⟩ := by
    rw [Action.attempt, h]
  rw [Parser.run, Action.bind_of_ok (begin_run hlen s), Action.bind_of_ok hattempt]
  simp [keepError, takeErrors, Action.bind_apply, Action.map_apply]

theorem run_of_fault {entry : ParseAction μ α} {f : Fault} {source : Text}
    {s' : ParserState} {records : List (Emission μ)} (hlen : byteLength source < offsetLimit)
    (h : entry (started source) = ⟨.fault f, s', records⟩) (s : ParserState) :
    Parser.run source entry s = ⟨.fault f, s', records⟩ := by
  have hattempt : (Action.attempt entry : ParseAction μ (Except ParseError α)) (started source) =
      ⟨.fault f, s', records⟩ := by
    rw [Action.attempt, h]
  rw [Parser.run, Action.bind_of_ok (begin_run hlen s), Action.bind_apply, hattempt]
  rfl

/-! ## Outcomes -/

/-- An action succeeds, and its tokens and its value are related in one way, or it fails, and its
tokens and what was expected are related in another. -/
def Parses (parser : Parser) (rules : List String) (x : ParseAction μ α) (p : Place)
    (Ok : List Token → α → Prop) (Stuck : List Token → List KindId → Option String → Prop) : Prop :=
  (∃ tokens q v, Succeeds parser rules x p tokens q v ∧ Ok tokens v) ∨
    ∃ tokens q expected active, Fails parser rules x p tokens q expected active ∧
      Stuck tokens expected active

/-- Where rounds read tokens, a repetition goes round until no round is offered or one fails. -/
theorem parses_many (htrip : parser.scanner.tripwire = none) {Item : List Token → α → Prop}
    {Stuck : List Token → List KindId → Option String → Prop}
    (hbody : ∀ p' : Place, byteLength p'.rest ≤ byteLength p.rest →
      lookahead.candidates.kinds.any (parser.scanner.offers p') = true →
      Parses parser rules body p' (fun tokens v => tokens ≠ [] ∧ Item tokens v) Stuck) :
    Parses parser rules (parser.many lookahead body) p
      (fun tokens vs => ∃ items : List (List Token × α), tokens = items.flatMap Prod.fst ∧
        vs = items.map Prod.snd ∧ ∀ item ∈ items, Item item.1 item.2)
      (fun tokens expected active => ∃ (items : List (List Token × α)) (last : List Token),
        tokens = items.flatMap Prod.fst ++ last ∧ (∀ item ∈ items, Item item.1 item.2) ∧
          Stuck last expected active) := by
  have hrounds : ∃ items q, Repeats parser rules lookahead body p items q ∧
      (∀ item ∈ items, Item item.1 item.2) ∧
      (lookahead.candidates.kinds.any (parser.scanner.offers q) = false ∨
        lookahead.candidates.kinds.any (parser.scanner.offers q) = true ∧
          ∃ last r expected active, Fails parser rules body q last r expected active ∧
            Stuck last expected active) := by
    -- Each round leaves less text.
    induction hn : byteLength p.rest using Nat.strongRecOn generalizing p with
    | ind n ih =>
      cases hmore : lookahead.candidates.kinds.any (parser.scanner.offers p) with
      | false => exact ⟨[], p, .nil, fun _ h => absurd h List.not_mem_nil, Or.inl hmore⟩
      | true =>
        rcases hbody p (Nat.le_refl _) hmore with
          ⟨tokens, q, v, hround, hne, hitem⟩ | ⟨last, r, expected, active, hfails, hstuck⟩
        · have hlen := hround.reads.length_le
          have hpos := List.length_pos_iff.2 hne
          obtain ⟨items, r, hitems, hall, hend⟩ := ih (byteLength q.rest) (by omega)
            (fun p' hp' => hbody p' (by omega)) rfl
          refine ⟨(tokens, v) :: items, r, .cons hmore hround hne hitems, ?_, hend⟩
          intro item hmem
          rcases List.mem_cons.1 hmem with rfl | hmem
          · exact hitem
          · exact hall item hmem
        · exact ⟨[], p, .nil, fun _ h => absurd h List.not_mem_nil,
            Or.inr ⟨hmore, last, r, expected, active, hfails, hstuck⟩⟩
  obtain ⟨items, q, hitems, hall, hend | ⟨hmore, last, r, expected, active, hfails, hstuck⟩⟩ :=
    hrounds
  · exact Or.inl ⟨_, q, _, many_succeeds htrip hitems hend, items, rfl, rfl, hall⟩
  · exact Or.inr ⟨_, r, expected, active, many_fails htrip hitems hmore hfails, items, last, rfl,
      hall, hstuck⟩

end Parser

end PredictiveParsing
