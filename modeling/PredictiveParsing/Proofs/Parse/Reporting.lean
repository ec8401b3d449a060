import Mathlib.Data.List.Forall2
import PredictiveParsing.Proofs.Parse.Following
import PredictiveParsing.Proofs.Parse.RuleStack

/-!
# What is reported of a parse

The events of a parser tell its deeds. Every rule that is opened or closed, every token that is
committed and every mismatch has one event, in the order of the deeds. Between these events stand
those of the scanner below, which reports its matches while the parser looks ahead as well as while
it commits.

* `Event.Tells`: the fields that tell a deed.
* `Reported`: the events among some records tell the deeds among them; it goes over sequences.
* `deeds_reported`: the events of whole programs.
-/

namespace PredictiveParsing

open PredictiveParsing.Action

variable {μ α β : Type} {lexicon : Lexicon}

/-! ## Events -/

/-- The deed of an event that says that a rule began or ended. -/
def Event.bracket? : Event → Option Deed
  | .entered rule _ => some (.opened rule)
  | .exited rule ok => some (.closed rule ok)
  | _ => none

/-- Every commitment is reported right behind the match of its token. -/
def MatchedBefore (events : List Event) : Prop :=
  ∀ before kind span after, events = before ++ .consumed kind span :: after →
    ∃ earlier, before = earlier ++ [.matched kind span]

namespace MatchedBefore

theorem of_none {events : List Event} (h : ∀ e ∈ events, e.commit? = none) :
    MatchedBefore events := by
  intro before kind span after hevents
  have hcommit := h (.consumed kind span) (by rw [hevents]; simp)
  cases hcommit

theorem pair (kind : String) (span : Span) :
    MatchedBefore [.matched kind span, .consumed kind span] := by
  intro before kind' span' after hevents
  rcases before with _ | ⟨event, _ | ⟨event', before⟩⟩
  · cases hevents
  · cases hevents
    exact ⟨[], rfl⟩
  · simp at hevents

theorem append {a b : List Event} (ha : MatchedBefore a) (hb : MatchedBefore b) :
    MatchedBefore (a ++ b) := by
  intro before kind span after hevents
  rcases List.append_eq_append_iff.1 hevents with ⟨c, rfl, hc⟩ | ⟨c, hc, hrest⟩
  · obtain ⟨earlier, rfl⟩ := hb c kind span after hc
    exact ⟨a ++ earlier, by rw [List.append_assoc]⟩
  · cases c with
    | nil =>
      obtain ⟨earlier, hempty⟩ := hb [] kind span after hrest.symm
      simp at hempty
    | cons event c =>
      rw [List.cons_append, List.cons.injEq] at hrest
      obtain ⟨rfl, -⟩ := hrest
      exact ha before kind span c hc

end MatchedBefore

/-! ## Telling -/

/-- Whether an event tells a deed. No event says that a source was begun. -/
def Deed.isTold : Deed → Bool
  | .restarted => false
  | _ => true

/-- The fields of an event are those that tell a deed: which rule began somewhere; which rule ended
and whether it went through; kind and place of a token; rule, place and message of an error. -/
def Event.Tells (lexicon : Lexicon) (event : Event) : Deed → Prop
  | .opened rule => ∃ offset, event.fields =
    [("message", .text "enter"), ("rule", .text rule), ("offset", .number offset)]
  | .closed rule ok => event.fields =
    [("message", .text "exit"), ("rule", .text rule), ("ok", .flag ok)]
  | .committed t => event.fields =
    [("message", .text "consume"), ("kind", .text (lexicon.name t.kind)),
      ("start", .number t.span.start), ("end", .number t.span.stop)]
  | .refused e => event.fields =
    [("message", .text "mismatch"), ("rule", .text (e.rule.getD "<none>")),
      ("offset", .number e.found.span.start), ("message", .text e.message)]
  | .restarted => False

namespace Event.Tells

variable {event : Event} {deed : Deed}

theorem ofParser (h : event.Tells lexicon deed) : event.ofParser = true ∧ deed.isTold = true := by
  cases deed <;> cases event <;> simp_all [Tells, fields, Event.ofParser, Deed.isTold]

theorem bracket? (h : event.Tells lexicon deed) :
    event.bracket? = if deed.isBracket then some deed else none := by
  cases deed <;> cases event <;> simp_all [Tells, fields, Event.bracket?, Deed.isBracket]

theorem brackets {events : List Event} {deeds : List Deed}
    (h : List.Forall₂ (Event.Tells lexicon) events deeds) :
    events.filterMap Event.bracket? = deeds.filter Deed.isBracket := by
  induction h with
  | nil => rfl
  | @cons event deed _ _ htells _ ih =>
    rw [List.filterMap_cons, List.filter_cons, ih, htells.bracket?]
    cases deed.isBracket <;> rfl

end Event.Tells

/-- The events of the parser among some records tell the deeds among them, one by one, and every
commitment is reported right behind its match. -/
structure Reported (lexicon : Lexicon) (records : List (Emission Deed)) : Prop where
  told : List.Forall₂ (Event.Tells lexicon) ((reported records).filter Event.ofParser)
    ((journal records).filter Deed.isTold)
  matched : MatchedBefore (reported records)

namespace Reported

theorem append {a b : List (Emission Deed)} (ha : Reported lexicon a) (hb : Reported lexicon b) :
    Reported lexicon (a ++ b) where
  told := by
    rw [reported_append, journal_append, List.filter_append, List.filter_append]
    exact List.rel_append ha.told hb.told
  matched := by
    rw [reported_append]
    exact ha.matched.append hb.matched

/-- Only the scanner reports. -/
theorem of_scanned {events : List Event} (h : ∀ e ∈ events, e.ofParser = false) :
    Reported lexicon (events.map .event) where
  told := by
    rw [reported_map_event, journal_map_event, List.filter_eq_nil_iff.2 (by simpa using h)]
    exact .nil
  matched := by
    rw [reported_map_event]
    refine .of_none fun e he => ?_
    have hscanned := h e he
    cases e <;> first | rfl | cases hscanned

/-- Nothing is told. -/
theorem of_untold {records : List (Emission Deed)} (hreported : reported records = [])
    (huntold : (journal records).filter Deed.isTold = []) : Reported lexicon records where
  told := by
    rw [hreported, huntold]
    exact .nil
  matched := by
    rw [hreported]
    exact .of_none fun _ he => absurd he List.not_mem_nil

/-- One event tells one deed that is no commitment. -/
theorem of_tells {records : List (Emission Deed)} {event : Event} {deed : Deed}
    (hreported : reported records = [event]) (hjournal : journal records = [deed])
    (htells : event.Tells lexicon deed) (hcommit : event.commit? = none) :
    Reported lexicon records where
  told := by
    rw [hreported, hjournal, List.filter_singleton, List.filter_singleton, htells.ofParser.1,
      htells.ofParser.2]
    exact .cons htells .nil
  matched := by
    rw [hreported]
    exact .of_none (List.forall_mem_singleton.2 hcommit)

theorem of_commit {token : Token} {kind : String} (hkind : lexicon.name token.kind = kind) :
    Reported lexicon [.event (.matched kind token.span), .event (.consumed kind token.span),
      .mark (.committed token)] where
  told := .cons (by rw [Event.Tells, hkind]; rfl) .nil
  matched := .pair kind token.span

/-- The events that open and close rules are those that tell these deeds. -/
theorem brackets {records : List (Emission Deed)} (h : Reported lexicon records) :
    (reported records).filterMap Event.bracket? = (journal records).filter Deed.isBracket := by
  have hparser : Event.bracket? = fun e => if e.ofParser then e.bracket? else none := by
    funext e
    cases e <;> rfl
  have htold : Deed.isBracket = fun deed => deed.isBracket && deed.isTold := by
    funext deed
    cases deed <;> rfl
  rw [hparser, ← List.filterMap_filter, htold, ← List.filter_filter]
  exact Event.Tells.brackets h.told

end Reported

/-- What opens and closes rules is well nested by itself. -/
theorem WellNested.brackets {deeds : List Deed} (h : WellNested deeds) :
    WellNested (deeds.filter Deed.isBracket) := by
  induction h with
  | nil => exact .nil
  | deed hdeed =>
    rw [List.filter_singleton, hdeed]
    exact .nil
  | append _ _ iha ihb =>
    rw [List.filter_append]
    exact iha.append ihb
  | @rule deeds name ok _ ih =>
    rw [List.filter_append]
    exact ih.rule name ok

/-! ## Operations -/

/-- On the way from one state to another, the events tell the deeds. -/
def Reporting (lexicon : Lexicon) (_ : ParserState) (records : List (Emission Deed))
    (_ : ParserState) : Prop :=
  Reported lexicon records

instance : Scans Forward (Reporting lexicon) where
  refl _ := .of_untold rfl rfl
  trans := Reported.append
  scan h := .of_scanned h.scanned

/-- A kind of a lexicon that leaves the reserved numbers free goes by its own name. -/
theorem Lexicon.name_of_get? (hsize : lexicon.size ≤ KindId.eof.index) {id : KindId} {kind : Kind}
    (h : lexicon.get? id = some kind) : lexicon.name id = kind.name := by
  have hindex : id.index < lexicon.size := (List.getElem?_eq_some_iff.1 h).1
  have hfree : id.index < KindId.eof.index := Nat.lt_of_lt_of_le hindex hsize
  rw [name, if_neg, if_neg, h]
  · rfl
  · rintro rfl
    exact Nat.lt_irrefl _ hfree
  · rintro rfl
    exact absurd hfree (by decide)

namespace ParseProgram

section noting

variable {deeds : Except ParseError α → List Deed}

/-- What is noted of an action is noted behind its last part, if the others cannot mismatch. -/
theorem noting_bind {x : ParseAction Deed β} (hx : ∀ s e, (x s).exit ≠ .error e)
    (f : β → ParseAction Deed α) :
    noting deeds (x >>= f) = x >>= fun b => noting deeds (f b) := by
  funext s
  have hexit := hx s
  rcases hrun : x s with ⟨exit, s', records⟩
  rw [hrun] at hexit
  cases exit with
  | ok b =>
    rw [bind_of_ok hrun]
    rcases hnext : f b s' with ⟨exit', t, records'⟩
    have hboth : (x >>= f) s = ⟨exit', t, records ++ records'⟩ := by
      rw [bind_of_ok hrun, hnext]
    cases exit' with
    | ok a => rw [noting_of_ok hboth, noting_of_ok hnext, List.append_assoc]
    | error e => rw [noting_of_error hboth, noting_of_error hnext, List.append_assoc]
    | fault g => rw [noting_of_fault hboth, noting_of_fault hnext]
  | error e => exact absurd rfl (hexit e)
  | fault g =>
    have hboth : (x >>= f) s = ⟨.fault g, s', records⟩ := by rw [bind_apply, hrun]
    rw [noting_of_fault hboth, bind_apply, hrun]

theorem noting_scan (action : Action Event Store Empty β) (f : β → ParseAction Deed α) :
    noting deeds (Parser.scan action >>= f) =
      Parser.scan action >>= fun b => noting deeds (f b) := by
  refine noting_bind (fun s e => ?_) f
  rw [Parser.scan, Parser.scanOr]
  cases (action s.store).exit with
  | error e => exact e.elim
  | _ => simp

end noting

section operations

variable {parser : Parser} {committed : α → List Deed}

theorem mismatch_reporting (expected : List KindId) (found : Token) :
    Follows (Reporting lexicon)
      (noting (committing committed) (parser.mismatch expected found)) := by
  intro s
  let e : ParseError := ⟨expected, found, s.activeRule,
    parser.messages parser.scanner.lexicon expected found s.activeRule⟩
  have hrun : (parser.mismatch expected found : ParseAction Deed α) s =
      ⟨.error e, s, [.event (.mismatched e.rule e.found.span.start e.message)]⟩ := rfl
  rw [noting_of_error hrun]
  exact .of_tells rfl rfl rfl rfl

theorem alternatives_reporting (lookahead : AlternativeLookahead) :
    Follows (Reporting lexicon)
      (noting (committing fun _ => []) (parser.alternatives lookahead)) := by
  rw [Parser.alternatives, noting_scan]
  refine .bind (Parser.scan_follows (lookahead.matchingBranch_follows parser.scanner)) ?_
  rintro (_ | branch)
  · simp only [Parser.nextFound, bind_assoc, noting_scan]
    refine .bind (Parser.scan_follows parser.scanner.skip_forward) fun _ => ?_
    exact .bind (Parser.scan_follows parser.scanner.found_follows) fun found =>
      mismatch_reporting _ found
  · exact fun _ => .of_untold rfl rfl

theorem expectEnd_reporting :
    Follows (Reporting lexicon) (noting (committing fun _ => []) parser.expectEnd) := by
  rw [Parser.expectEnd, noting_scan]
  refine .bind (Parser.scan_follows parser.scanner.skip_forward) fun _ => ?_
  rw [noting_bind fun _ _ => by simp]
  refine .bind .get fun s => ?_
  split
  · exact fun _ => .of_untold rfl rfl
  · rw [noting_scan]
    exact .bind (Parser.scan_follows parser.scanner.found_follows) fun found =>
      mismatch_reporting _ found

theorem consume_reporting (hsize : parser.scanner.lexicon.size ≤ KindId.eof.index) (kind : KindId) :
    Follows (Reporting parser.scanner.lexicon)
      (noting (committing fun token => [.committed token]) (parser.consume kind)) := by
  intro s
  rcases parser.consume_cases (μ := Deed) kind s with
    ⟨f, hrun⟩ | ⟨e, hrun⟩ | ⟨found, token, hfound, hkind, -, -, -, hrun⟩
  · rw [noting_of_fault hrun]
    exact .of_scanned (parser.scanner.consume_follows (T := Forward) kind s.store).scanned
  · rw [noting_of_error hrun]
    exact .of_tells rfl rfl rfl rfl
  · have hname : parser.scanner.lexicon.name token.kind = found.name :=
      Lexicon.name_of_get? hsize (hkind.symm ▸ hfound)
    -- A line break may be reported before the match.
    have hfront := (List.forall_mem_append.1 (Scanner.scanned_matchEvents found token)).1
    rw [noting_of_ok hrun, ← hkind, hname]
    simpa [Reporting, Scanner.matchEvents, committing] using
      (Reported.of_scanned hfront).append (.of_commit hname)

theorem rule_reporting {x : ParseAction Deed α} (name : String)
    (hx : Follows (Reporting lexicon) x) :
    Follows (Reporting lexicon) (note (.opened name) >>= fun _ =>
      noting (fun result => [.closed name result.isOk]) (Parser.rule name x)) := by
  intro s
  have hopened : Reported lexicon [.mark (.opened name), .event (.entered name s.offset)] :=
    .of_tells rfl rfl ⟨s.offset, rfl⟩ rfl
  have hclosed (ok : Bool) :
      Reported lexicon [.event (.exited name ok), .mark (.closed name ok)] :=
    .of_tells rfl rfl rfl rfl
  have hbody := hopened.append (hx { s with rules := name :: s.rules })
  rw [bind_of_ok (note_apply _ s)]
  rcases hrun : x { s with rules := name :: s.rules } with ⟨exit, s', records⟩
  rw [hrun] at hbody
  cases exit with
  | ok a =>
    rw [noting_of_ok (Parser.rule_of_ok name hrun)]
    simpa [Reporting, Except.isOk, Except.toBool] using hbody.append (hclosed true)
  | error e =>
    rw [noting_of_error (Parser.rule_of_error name hrun)]
    simpa [Reporting, Except.isOk, Except.toBool] using hbody.append (hclosed false)
  | fault f =>
    rw [noting_of_fault (Parser.rule_of_fault name hrun)]
    exact hbody

theorem begin_reporting (source : Text) :
    Follows (Reporting lexicon) ((ParseProgram.begin source).perform parser) := by
  intro s
  rw [perform]
  by_cases hlen : Text.byteLength source < offsetLimit
  · rw [bind_of_ok (Parser.begin_run hlen s)]
    exact .of_untold rfl rfl
  · rw [bind_apply, Parser.begin_of_long hlen]
    exact .of_untold rfl rfl

theorem concluding_reporting (result : Except ParseError α) :
    Follows (Reporting lexicon) (concluding result : ParseAction Deed (ParseOutput α)) := by
  cases result <;> exact fun _ => .of_untold rfl rfl

end operations

/-- Whatever a program does, its events tell its deeds. -/
theorem perform_reporting {parser : Parser}
    (hsize : parser.scanner.lexicon.size ≤ KindId.eof.index) (program : ParseProgram α) :
    Follows (Reporting parser.scanner.lexicon) (program.perform parser) := by
  induction program with
  | done exit => exact fun s => Composes.refl s
  | bind _ _ ihFirst ihNext => exact .bind ihFirst ihNext
  | attempt _ ih => exact ih.attempt
  | state => exact .get
  | skip => exact Parser.scan_follows parser.scanner.skip_forward
  | tryMatch kind => exact Parser.scan_follows (parser.scanner.tryMatch_forward kind)
  | seek offset =>
    intro s
    have hquiet : (Store.seek offset s.store : Run Event Store Empty Unit).records = [] := by
      rw [Store.seek]
      split <;> rfl
    rw [perform, Parser.scan_records, hquiet]
    exact .of_untold rfl rfl
  | consume kind => exact consume_reporting hsize kind
  | expectEnd => exact expectEnd_reporting
  | alternatives lookahead => exact alternatives_reporting lookahead
  | check lookahead => exact parser.check_follows lookahead
  | rule name _ ih => exact rule_reporting name ih
  | optional lookahead _ ih =>
    exact Parser.sequential_follows.optional (parser.check_follows lookahead) ih
  | many lookahead _ ih =>
    exact Parser.sequential_follows.rounds (parser.check_follows lookahead) ih _
  | begin source => exact begin_reporting source
  | run source _ ih =>
    rw [perform_run]
    exact .bind (begin_reporting source) fun _ => .bind ih.attempt concluding_reporting

end ParseProgram

/-! ## Whole programs -/

/-- Whatever a program does, with a lexicon that leaves the reserved numbers free:
* The events of the parser tell, one by one and in order, which rules were opened and closed, which
  tokens were committed and which mismatches arose.
* If no fault ends the program, then its rules lie one inside the other, and so do the events that
  begin and end them.
* Right before the event of each commitment stands that of the match, with its kind and place. -/
theorem deeds_reported (parser : Parser)
    (hsize : parser.scanner.lexicon.size ≤ KindId.eof.index) (program : ParseProgram α)
    (s : ParserState) :
    let r := program.perform parser s
    let events := reported r.records
    let deeds := journal r.records
    List.Forall₂ (Event.Tells parser.scanner.lexicon) (events.filter Event.ofParser)
      (deeds.filter Deed.isTold) ∧
    ((∀ f, r.exit ≠ .fault f) →
      WellNested deeds ∧ WellNested (events.filterMap Event.bracket?)) ∧
    ∀ before kind span after, events = before ++ .consumed kind span :: after →
      ∃ earlier, before = earlier ++ [.matched kind span] := by
  intro r events deeds
  have h : Reported parser.scanner.lexicon r.records :=
    ParseProgram.perform_reporting hsize program s
  refine ⟨h.told, fun hexit => ?_, h.matched⟩
  have hwell : WellNested deeds := (KeepsDiscipline.perform program s).wellNested hexit
  exact ⟨hwell, h.brackets ▸ hwell.brackets⟩

/-- A rule ends with a mismatch that is dropped. The sign behind it is matched twice, once by a
lookahead and once to be committed. -/
theorem deeds_reported_dropped :
    let sum : ParseProgram Token := .rule "Sum" (.bind (.consume Ecma.numericLiteral) fun _ =>
      .bind (.attempt (.rule "Call" (.consume Ecma.leftParen))) fun _ =>
      .bind (.check Ecma.additiveStart) fun _ => .consume Ecma.plus)
    let r := sum.perform Ecma.parser (.start "1 +".toList)
    let message := "expected \'(\', found \x60+\x60 while parsing Call"
    let error : ParseError :=
      ⟨[Ecma.leftParen], ⟨.error, ['+'], ⟨2, 3⟩⟩, some "Call", message⟩
    let one : Token := ⟨Ecma.numericLiteral, ['1'], ⟨0, 1⟩⟩
    let plus : Token := ⟨Ecma.plus, ['+'], ⟨2, 3⟩⟩
    let told : List Event :=
      [.entered "Sum" 0, .consumed "NumericLiteral" ⟨0, 1⟩, .entered "Call" 1,
        .mismatched (some "Call") 2 message, .exited "Call" false, .consumed "\'+\'" ⟨2, 3⟩,
        .exited "Sum" true]
    let deeds : List Deed :=
      [.opened "Sum", .committed one, .opened "Call", .refused error, .closed "Call" false,
        .committed plus, .closed "Sum" true]
    Ecma.parser.scanner.lexicon.size ≤ KindId.eof.index ∧ r.exit = .ok plus ∧
      (reported r.records).filter (!·.ofParser) = [.matched "NumericLiteral" ⟨0, 1⟩,
        .matched "\'+\'" ⟨2, 3⟩, .probed 2 (some Ecma.plus), .matched "\'+\'" ⟨2, 3⟩] ∧
      journal r.records = deeds ∧ (reported r.records).filter Event.ofParser = told ∧
      List.Forall₂ (Event.Tells Ecma.parser.scanner.lexicon) told deeds ∧
      WellNested [.opened "Sum", .opened "Call", .closed "Call" false, .closed "Sum" true] := by
  intro sum r message error one plus told deeds
  have hrun : Ecma.parser.scanner.lexicon.size ≤ KindId.eof.index ∧ r.exit = .ok plus ∧
      (reported r.records).filter (!·.ofParser) = [.matched "NumericLiteral" ⟨0, 1⟩,
        .matched "\'+\'" ⟨2, 3⟩, .probed 2 (some Ecma.plus), .matched "\'+\'" ⟨2, 3⟩] ∧
      journal r.records = deeds ∧ (reported r.records).filter Event.ofParser = told ∧
      (reported r.records).filterMap Event.bracket? =
        [.opened "Sum", .opened "Call", .closed "Call" false, .closed "Sum" true] := by
    decide +kernel
  obtain ⟨hsize, hexit, hscanned, hdeeds, htold, hbrackets⟩ := hrun
  obtain ⟨htells, hnested, -⟩ := deeds_reported Ecma.parser hsize sum (.start "1 +".toList)
  have hfiltered : (journal r.records).filter Deed.isTold = deeds := by
    rw [hdeeds]
    rfl
  rw [htold, hfiltered] at htells
  rw [hbrackets] at hnested
  exact ⟨hsize, hexit, hscanned, hdeeds, htold, htells, (hnested (by rw [hexit]; simp)).2⟩

end PredictiveParsing
