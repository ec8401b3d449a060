import Mathlib.Algebra.Group.Nat.Defs
import PredictiveParsing.Proofs.Ecma.Soundness

/-!
# The outcome of a whole parse

A source short enough for its offsets is either accepted or rejected. It is accepted with the
program that its tokens spell, when nothing but a gap is left behind them. It is rejected with one
error, behind tokens that can be completed by each of the kinds it expects.

* `parse_outcome`: either is the case, for every configuration and in every state.
* `parsed_program_spelled`: a program that is parsed is spelled by the tokens of its source.
* `parse_total`: no parse ends with a fault.
-/

namespace PredictiveParsing.Ecma

open Text PredictiveParsing.Parser Scanner

variable {μ : Type}

/-! ## Accepted and rejected sources -/

/-- The tokens of a source spell statements, and only a gap is left. -/
structure Accepted (parser : Parser) (source : Text) (tokens : List Token) (q : Place)
    (body : List Statement) : Prop where
  reads : parser.scanner.Reads ⟨[], source⟩ tokens q
  rest : (parser.scanner.behind q).rest = []
  spells : SpellsAll body tokens
  stands : ∀ s ∈ body, s.Grouped ∧ s.Proper

/-- The tokens of a source up to a place can be completed by every kind that is expected there. -/
structure Rejected (parser : Parser) (source : Text) (tokens : List Token) (q : Place)
    (expected : List KindId) (active : Option String) : Prop where
  reads : parser.scanner.Reads ⟨[], source⟩ tokens q
  mem_missing : (active, expected) ∈ missing
  completes : (expected = [KindId.eof] ∧ SpellsProgram tokens) ∨
    Completes 3 SpellsProgram tokens expected

theorem Accepted.offset_eq {parser : Parser} {source : Text} {tokens : List Token} {q : Place}
    {body : List Statement} (h : Accepted parser source tokens q body) :
    byteLength (parser.scanner.behind q).before = byteLength source := by
  have hsource : (parser.scanner.behind q).source = source := by
    rw [source_behind, h.reads.source_eq]
    rfl
  rw [← hsource, Place.source, h.rest, List.append_nil]

/-- What is left behind the tokens is a gap. -/
theorem Accepted.gap {parser : Parser} {source : Text} {tokens : List Token} {q : Place}
    {body : List Statement} (h : Accepted parser source tokens q body) :
    parser.scanner.Gap q.rest [] := by
  obtain ⟨gap, rest, hrest, hgap, hbehind⟩ := parser.scanner.exists_behind q
  have hnil : rest = [] := by
    have hend := h.rest
    rwa [hbehind] at hend
  rw [hnil, List.append_nil] at hrest
  rw [hrest, ← hnil]
  exact hgap

/-- The statements of a source are parsed up to its end, or its program fails. -/
theorem program_parses {parser : Parser} (hstd : Standard parser) (source : Text) :
    (∃ tokens q body, Accepted parser source tokens q body ∧
      Succeeds parser ["Program"]
        (statements parser ⟨[], source⟩ : ParseAction μ (List Statement)) ⟨[], source⟩ tokens q
        body) ∨
    ∃ tokens q expected active, Rejected parser source tokens q expected active ∧
      Fails parser [] (program parser : ParseAction μ Program) ⟨[], source⟩ tokens q expected
        active := by
  have hstatements : Parses parser ["Program"]
      (statements parser ⟨[], source⟩ : ParseAction μ (List Statement)) ⟨[], source⟩ _ _ :=
    statements_parse hstd
  rcases hstatements with
    ⟨tokens, q, body, hbody, hspells, hall⟩ |
      ⟨tokens, q, expected, active, hfails, hmem, hcompletes⟩
  · by_cases hend : (parser.scanner.behind q).rest = []
    · exact Or.inl ⟨tokens, q, body, ⟨hbody.reads, hend, hspells, hall⟩, hbody⟩
    · have hrejected : Rejected parser source tokens q [KindId.eof] (some "Program") :=
        ⟨hbody.reads, by decide, Or.inl ⟨rfl, body, hspells, hall⟩⟩
      exact Or.inr ⟨tokens, q, _, _, hrejected, program_open hbody hend⟩
  · have hrejected : Rejected parser source tokens q expected active :=
      ⟨hfails.reads, hmem, Or.inr hcompletes⟩
    exact Or.inr ⟨tokens, q, expected, active, hrejected, program_fails hfails⟩

/-- A source is accepted with its program, or it is rejected with one error. -/
theorem parse_outcome {parser : Parser} (hstd : Standard parser) {source : Text}
    (hlen : byteLength source < offsetLimit) (s : ParserState) :
    (∃ tokens q body records, Accepted parser source tokens q body ∧
      (parseWith parser source : ParseAction μ (ParseOutput Program)) s =
        ⟨.ok ⟨some (programOf 0 body), []⟩,
          advanced (started source) tokens (parser.scanner.behind q), records⟩ ∧
      commits records = parser.named tokens) ∨
    ∃ tokens q expected active records, Rejected parser source tokens q expected active ∧
      (parseWith parser source : ParseAction μ (ParseOutput Program)) s =
        ⟨.ok ⟨none, [parser.errorAt expected active (parser.scanner.behind q)]⟩,
          advanced (started source) tokens (parser.scanner.behind q), records⟩ ∧
      commits records = parser.named tokens := by
  rcases program_parses (μ := μ) hstd source with
    ⟨tokens, q, body, haccepted, hbody⟩ | ⟨tokens, q, expected, active, hrejected, hfails⟩
  · obtain ⟨records, hrun, hcommits⟩ :=
      program_ends hbody haccepted.rest hlen (s := started source) rfl rfl
    exact Or.inl ⟨tokens, q, body, records, haccepted, run_of_ok hlen hrun s, hcommits⟩
  · obtain ⟨records, hrun, hcommits⟩ := hfails.run hlen (started source) rfl rfl
    exact Or.inr ⟨tokens, q, expected, active, records, hrejected, run_of_error hlen hrun s,
      hcommits⟩

/-- A source with a program is accepted, and there is no error. -/
theorem accepted_of_parse {source : Text} {program : Program} {errors : List ParseError}
    (h : (parse source).exit = .ok ⟨some program, errors⟩) :
    byteLength source < offsetLimit ∧ ∃ tokens q,
      Accepted (parser {} .standard) source tokens q program.body := by
  by_cases hlen : byteLength source < offsetLimit
  · refine ⟨hlen, ?_⟩
    rcases parse_outcome (Standard.of_config {} .standard) hlen (ParserState.start []) with
      ⟨tokens, q, body, records, haccepted, hrun, -⟩ | ⟨_, _, _, _, _, -, hrun, -⟩
    · rw [parse, hrun] at h
      cases Option.some.inj (ParseOutput.mk.inj (Exit.ok.inj h)).1
      exact ⟨tokens, q, haccepted⟩
    · rw [parse, hrun] at h
      cases (ParseOutput.mk.inj (Exit.ok.inj h)).1
  · have hlong : (parse source).exit = .fault (.sourceTooLong (byteLength source)) :=
      run_of_long hlen _
    cases hlong.symm.trans h

/-! ## Soundness -/

/-- A program that is parsed is spelled by tokens that are read from the start of the source, one
behind the other, with nothing but gaps between, before and behind them. Its operators are
grouped by rank. -/
theorem parsed_program_spelled {config : ScanConfig} {messages : MessageBuilder} {source : Text}
    {s s' : ParserState} {program : Program} {errors : List ParseError}
    {records : List (Emission μ)} (hlen : byteLength source < 2 ^ 32)
    (h : parseWith (parser config messages) source s =
      ⟨.ok ⟨some program, errors⟩, s', records⟩) :
    ∃ (tokens : List Token) (q : Place),
      SpellsAll program.body tokens ∧
      tokens.map Token.word = program.body.flatMap Statement.words ∧
      (parser config messages).scanner.Reads ⟨[], source⟩ tokens q ∧
      (∀ t ∈ tokens, slice source t.span.start t.span.stop = some t.text) ∧
      (parser config messages).scanner.Gap q.rest [] ∧
      s'.consumed = tokens.length ∧
      s'.offset = byteLength source ∧
      ∀ s ∈ program.body, s.Grouped := by
  rcases parse_outcome (Standard.of_config config messages) hlen s with
    ⟨tokens, q, body, records', haccepted, hrun, -⟩ | ⟨_, _, _, _, _, -, hrun, -⟩
  · rw [hrun] at h
    obtain ⟨hexit, rfl, rfl⟩ := Run.mk.inj h
    obtain ⟨hprogram, rfl⟩ := ParseOutput.mk.inj (Exit.ok.inj hexit)
    cases Option.some.inj hprogram
    refine ⟨tokens, q, haccepted.spells, haccepted.spells.map_word, haccepted.reads, ?_,
      haccepted.gap, Nat.zero_add _, haccepted.offset_eq, fun s hs => (haccepted.stands s hs).1⟩
    intro t ht
    exact haccepted.reads.slice ht
  · rw [hrun] at h
    obtain ⟨hexit, -, -⟩ := Run.mk.inj h
    cases (ParseOutput.mk.inj (Exit.ok.inj hexit)).1

/-- A sum is parsed from between comments. -/
theorem parsed_program_spelled_sum :
    ∃ (source : Text) (program : Program) (s' : ParserState) (records : List (Emission Empty)),
      byteLength source < 2 ^ 32 ∧
      parseWith (parser {} .standard) source (ParserState.start []) =
        ⟨.ok ⟨some program, []⟩, s', records⟩ ∧
      ∃ (tokens : List Token) (q : Place),
        SpellsAll program.body tokens ∧
        tokens.map Token.word = program.body.flatMap Statement.words ∧
        (parser {} .standard).scanner.Reads ⟨[], source⟩ tokens q ∧
        (∀ t ∈ tokens, slice source t.span.start t.span.stop = some t.text) ∧
        (parser {} .standard).scanner.Gap q.rest [] ∧
        s'.consumed = tokens.length ∧
        s'.offset = byteLength source ∧
        ∀ s ∈ program.body, s.Grouped := by
  let source : Text := "a/*+*/+/b/;".toList
  let program : Program :=
    ⟨[.evaluated (.binary .add (.ident ['a'] ⟨0, 1⟩) (.regex ['b'] [] ⟨7, 10⟩) ⟨0, 10⟩) ⟨0, 11⟩],
      ⟨0, 11⟩⟩
  let run : Run (Emission Empty) ParserState ParseError (ParseOutput Program) :=
    parseWith (parser {} .standard) source (ParserState.start [])
  have hlen : byteLength source < 2 ^ 32 := by decide
  have hexit : run.exit = .ok ⟨some program, []⟩ := by decide +kernel
  have hrun := Run.eq_of_exit hexit
  exact ⟨source, program, run.state, run.records, hlen, hrun, parsed_program_spelled hlen hrun⟩

/-! ## Totality -/

/-- What a rejected source shows: the character in the way, or that there is none left. -/
structure Shows (config : ScanConfig) (source : Text) (found : Token) : Prop where
  kind_eq : found.kind = KindId.error
  boundary : IsBoundary source found.span.start
  text_eq :
    (∃ c : Char, found.text = [c] ∧
      slice source found.span.start found.span.stop = some [c] ∧
        found.span.stop = found.span.start + c.utf8Size) ∨
    (found.text = config.endMarker ∧ found.span.start = byteLength source ∧
      found.span.stop = byteLength source)

theorem shows_found (config : ScanConfig) (messages : MessageBuilder) (p : Place) :
    Shows config p.source ((parser config messages).scanner.foundOf p.before p.rest) ∧
      ((parser config messages).scanner.foundOf p.before p.rest).span.start =
        byteLength p.before := by
  obtain ⟨before, rest⟩ := p
  cases rest with
  | nil =>
    have hsource : byteLength before = byteLength (⟨before, []⟩ : Place).source := by
      rw [Place.source, List.append_nil]
    have hcurrent : (Store.between before []).current? = none := by
      rw [Store.current?, Store.remaining_between, List.head?_nil]
    have hfound : (parser config messages).scanner.foundOf before [] =
        ⟨KindId.error, config.endMarker, Span.point (byteLength before)⟩ := by
      rw [foundOf, foundAt, hcurrent]
      rfl
    rw [hfound]
    exact ⟨⟨rfl, ⟨before, [], rfl, rfl⟩, Or.inr ⟨rfl, hsource, hsource⟩⟩, rfl⟩
  | cons c rest =>
    have hcurrent : (Store.between before (c :: rest)).current? = some c := by
      rw [Store.current?, Store.remaining_between, List.head?_cons]
    have hfound : (parser config messages).scanner.foundOf before (c :: rest) =
        ⟨KindId.error, [c], ⟨byteLength before, byteLength before + c.utf8Size⟩⟩ := by
      rw [foundOf, foundAt, hcurrent]
      rfl
    have hslice : slice (before ++ ([c] ++ rest)) (byteLength before)
        (byteLength before + byteLength [c]) = some [c] := by
      rw [← List.append_assoc, slice_append]
    rw [hfound]
    exact ⟨⟨rfl, ⟨before, c :: rest, rfl, rfl⟩, Or.inl ⟨c, rfl, hslice, rfl⟩⟩, rfl⟩

/-- Whatever was parsed before, a parse gives a program and no error, at the end of the source, or
one error and no program, where the error stands. -/
theorem parse_total (config : ScanConfig) (messages : MessageBuilder) {source : Text}
    (hlen : byteLength source < 2 ^ 32) (s : ParserState) :
    ∃ (output : ParseOutput Program) (s' : ParserState) (records : List (Emission μ)),
      parseWith (parser config messages) source s = ⟨.ok output, s', records⟩ ∧
      s'.rules = [] ∧ s'.errors = [] ∧
      ((∃ program, output = ⟨some program, []⟩ ∧ s'.offset = byteLength source) ∨
        ∃ e : ParseError, output = ⟨none, [e]⟩ ∧ s'.offset = e.found.span.start ∧
          Shows config source e.found) := by
  rcases parse_outcome (Standard.of_config config messages) hlen s with
    ⟨tokens, q, body, records, haccepted, hrun, -⟩ |
      ⟨tokens, q, expected, active, records, hrejected, hrun, -⟩
  · exact ⟨_, _, records, hrun, rfl, rfl, Or.inl ⟨_, rfl, haccepted.offset_eq⟩⟩
  · obtain ⟨hshows, hstart⟩ :=
      shows_found config messages ((parser config messages).scanner.behind q)
    rw [source_behind, hrejected.reads.source_eq] at hshows
    exact ⟨_, _, records, hrun, rfl, rfl, Or.inr ⟨_, rfl, hstart.symm, hshows⟩⟩

/-- A parenthesis that is not closed, where nothing is passed over. -/
theorem parse_total_unclosed :
    ∃ (output : ParseOutput Program) (s' : ParserState) (records : List (Emission Empty)),
      parseWith (parser ⟨false, ['$']⟩ .terse) "(a".toList (ParserState.start ['b']) =
        ⟨.ok output, s', records⟩ ∧
      s'.rules = [] ∧ s'.errors = [] ∧
      ((∃ program, output = ⟨some program, []⟩ ∧ s'.offset = byteLength "(a".toList) ∨
        ∃ e : ParseError, output = ⟨none, [e]⟩ ∧ s'.offset = e.found.span.start ∧
          Shows ⟨false, ['$']⟩ "(a".toList e.found) :=
  parse_total ⟨false, ['$']⟩ .terse (by decide) (ParserState.start ['b'])

end PredictiveParsing.Ecma
