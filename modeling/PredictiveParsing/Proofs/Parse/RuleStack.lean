import PredictiveParsing.Ecma.Grammar
import PredictiveParsing.Proofs.Parse.Programs

/-!
# The stack of open rules

Rules are opened and closed one inside the other, errors leave several of them at once, a new source
forgets all of them while they still have to be closed, and a fault closes none. Whatever a program
does, its journal tells the stack that it leaves and the rule of every mismatch.

* `openRules`: the rules that a journal leaves open.
* `Disciplined`: what the journal of a run tells; every operation keeps to it.
* `rules_disciplined`: the stack and the mismatches of whole programs.
-/

namespace PredictiveParsing

variable {μ α β : Type}

/-! ## Open rules -/

/-- The rules that are open behind deeds which are given last first: those opened, but not closed
again, since a source was begun. So many closings as the number says are still to be met with the
openings that they belong to. -/
def unclosed : Nat → List Deed → List String
  | _, [] => []
  | _, .restarted :: _ => []
  | closings, .closed _ _ :: before => unclosed (closings + 1) before
  | 0, .opened rule :: before => rule :: unclosed 0 before
  | closings + 1, .opened _ :: before => unclosed closings before
  | closings, _ :: before => unclosed closings before

/-- The rules opened and not closed again since the last source was begun, innermost first. -/
def openRules (deeds : List Deed) : List String := unclosed 0 deeds.reverse

/-- What a deed makes of the open rules. -/
def Deed.apply (rules : List String) : Deed → List String
  | .opened rule => rule :: rules
  | .closed _ _ => rules.tail
  | .restarted => []
  | _ => rules

/-- What deeds make of the open rules. -/
def replay (rules : List String) (deeds : List Deed) : List String := deeds.foldl Deed.apply rules

theorem replay_append (rules : List String) (a b : List Deed) :
    replay rules (a ++ b) = replay (replay rules a) b :=
  List.foldl_append

/-- Looking back over deeds finds the rules that are open after them. -/
theorem drop_replay_reverse (deeds : List Deed) (closings : Nat) :
    (replay [] deeds.reverse).drop closings = unclosed closings deeds := by
  induction deeds generalizing closings with
  | nil => exact List.drop_nil
  | cons deed before ih =>
    have hlast : replay [] (deed :: before).reverse = deed.apply (replay [] before.reverse) := by
      rw [List.reverse_cons, replay_append]
      rfl
    rw [hlast]
    cases deed with
    | opened rule =>
      cases closings with
      | zero => exact congrArg (rule :: ·) (ih 0)
      | succ closings => exact ih closings
    | closed rule ok =>
      -- Looking back, a closing is one more to be met with its opening.
      rw [Deed.apply, ← List.drop_one, List.drop_drop, Nat.add_comm]
      exact ih (closings + 1)
    | committed t => exact ih closings
    | refused e => exact ih closings
    | restarted => exact List.drop_nil

theorem openRules_eq_replay (deeds : List Deed) : openRules deeds = replay [] deeds := by
  rw [openRules, ← drop_replay_reverse, List.reverse_reverse, List.drop_zero]

/-- A rule that was open when a source was begun is forgotten, though it is closed later. -/
example : openRules [.opened "A", .restarted, .opened "B", .closed "B" true, .closed "A" true,
    .opened "C", .opened "D"] = ["D", "C"] := by
  decide

/-- Deeds that close all that they open leave the stack as it is, unless they begin a source. -/
theorem WellNested.replay_eq {deeds : List Deed} (h : WellNested deeds) (rules : List String) :
    replay rules deeds = if .restarted ∈ deeds then [] else rules := by
  induction h generalizing rules with
  | nil => rfl
  | @deed deed hdeed => cases deed <;> simp_all [replay, Deed.apply, Deed.isBracket]
  | @append a b _ _ iha ihb =>
    rw [replay_append, iha, ihb]
    by_cases hb : .restarted ∈ b <;> simp [hb]
  | @rule deeds name ok _ ih =>
    have hbody : replay rules (.opened name :: deeds ++ [.closed name ok]) =
        (replay (name :: rules) deeds).tail := by
      rw [replay_append]
      rfl
    rw [hbody, ih]
    by_cases hdeeds : .restarted ∈ deeds <;> simp [hdeeds]

/-- Deeds that leave rules open put them in front of the stack. -/
theorem Unfinished.replay_eq {deeds : List Deed} (h : Unfinished deeds) (rules : List String) :
    replay rules deeds = openRules deeds ++ if .restarted ∈ deeds then [] else rules := by
  rw [openRules_eq_replay]
  induction h generalizing rules with
  | wellNested h => simp [h.replay_eq]
  | @opened a b name ha _ ih =>
    have hopened (rules : List String) : replay rules (a ++ .opened name :: b) =
        replay (name :: replay rules a) b :=
      replay_append rules a (.opened name :: b)
    rw [hopened, hopened, ih (name :: replay rules a), ih (name :: replay [] a), ha.replay_eq,
      ha.replay_eq]
    by_cases hb : .restarted ∈ b <;> by_cases ha : .restarted ∈ a <;> simp [ha, hb]

/-- Every mismatch has the innermost rule that is open where it arises. -/
def Attributed (rules : List String) (deeds : List Deed) : Prop :=
  ∀ before e after, deeds = before ++ .refused e :: after → e.rule = (replay rules before).head?

theorem Attributed.nil (rules : List String) : Attributed rules [] := by
  intro before e after h
  simp at h

theorem Attributed.deed {rules : List String} {deed : Deed}
    (h : ∀ e, deed = .refused e → e.rule = rules.head?) : Attributed rules [deed] := by
  intro before e after heq
  cases before with
  | nil => exact h e (List.cons.inj heq).1
  | cons d before => simp at heq

theorem Attributed.append {rules : List String} {a b : List Deed} (ha : Attributed rules a)
    (hb : Attributed (replay rules a) b) : Attributed rules (a ++ b) := by
  intro before e after heq
  -- The mismatch stands in the second part, or in the first one, or it begins the second one.
  rcases List.append_eq_append_iff.1 heq with ⟨c, rfl, hc⟩ | ⟨c, rfl, hc⟩
  · rw [replay_append]
    exact hb c e after hc
  · cases c with
    | nil =>
      rw [List.append_nil] at hb
      exact hb [] e after hc.symm
    | cons d c =>
      obtain ⟨rfl, rfl⟩ := List.cons.inj hc
      exact ha before e c rfl

/-! ## Runs -/

/-- What the journal of a run that began with some open rules tells. -/
structure Disciplined (rules : List String)
    (r : Run (Emission Deed) ParserState ParseError α) : Prop where
  stack : r.state.rules = replay rules (journal r.records)
  attributed : Attributed rules (journal r.records)
  unfinished : Unfinished (journal r.records)
  wellNested : (∀ f, r.exit ≠ .fault f) → WellNested (journal r.records)

/-- An action is disciplined in every state. -/
def KeepsDiscipline (x : ParseAction Deed α) : Prop := ∀ s, Disciplined s.rules (x s)

/-- A run that notes deeds which open no rule. -/
theorem Disciplined.of_wellNested {rules : List String}
    {r : Run (Emission Deed) ParserState ParseError α} (hwell : WellNested (journal r.records))
    (hattributed : Attributed rules (journal r.records))
    (hstack : r.state.rules = replay rules (journal r.records)) : Disciplined rules r :=
  ⟨hstack, hattributed, .wellNested hwell, fun _ => hwell⟩

/-- A run that notes nothing. -/
theorem Disciplined.of_silent {rules : List String}
    {r : Run (Emission Deed) ParserState ParseError α} (hjournal : journal r.records = [])
    (hrules : r.state.rules = rules) : Disciplined rules r := by
  apply Disciplined.of_wellNested
  · exact hjournal ▸ .nil
  · exact hjournal ▸ .nil _
  · rw [hjournal, hrules]
    rfl

namespace KeepsDiscipline

theorem pure (a : α) : KeepsDiscipline (Pure.pure a : ParseAction Deed α) := fun _ =>
  .of_silent rfl rfl

theorem bind {x : ParseAction Deed α} {f : α → ParseAction Deed β} (hx : KeepsDiscipline x)
    (hf : ∀ a, KeepsDiscipline (f a)) : KeepsDiscipline (x >>= f) := by
  intro s
  have hfirst := hx s
  rw [Action.bind_apply]
  rcases hrun : x s with ⟨exit, s', records⟩
  rw [hrun] at hfirst
  cases exit with
  | ok a =>
    have hwell := hfirst.wellNested (by simp)
    have hnext := hf a s'
    -- The second action begins with the rules that the first journal leaves.
    rw [show s'.rules = _ from hfirst.stack] at hnext
    refine ⟨?_, ?_, ?_, ?_⟩
    · rw [journal_append, replay_append]
      exact hnext.stack
    · rw [journal_append]
      exact hfirst.attributed.append hnext.attributed
    · rw [journal_append]
      exact .append hwell hnext.unfinished
    · intro hexit
      rw [journal_append]
      exact hwell.append (hnext.wellNested hexit)
  | error e => exact ⟨hfirst.stack, hfirst.attributed, hfirst.unfinished, fun _ =>
      hfirst.wellNested (by simp)⟩
  | fault f => exact ⟨hfirst.stack, hfirst.attributed, hfirst.unfinished, fun h =>
      absurd rfl (h f)⟩

theorem ite {c : Prop} [Decidable c] {x y : ParseAction Deed α} (hx : KeepsDiscipline x)
    (hy : KeepsDiscipline y) : KeepsDiscipline (if c then x else y) := by
  split
  · exact hx
  · exact hy

theorem attempt {x : ParseAction Deed α} (hx : KeepsDiscipline x) :
    KeepsDiscipline (Action.attempt x : ParseAction Deed (Except ParseError α)) := by
  intro s
  have h := hx s
  rw [Action.attempt]
  rcases hrun : x s with ⟨exit, s', records⟩
  rw [hrun] at h
  cases exit with
  | ok a => exact ⟨h.stack, h.attributed, h.unfinished, fun _ => h.wellNested (by simp)⟩
  | error e => exact ⟨h.stack, h.attributed, h.unfinished, fun _ => h.wellNested (by simp)⟩
  | fault f => exact ⟨h.stack, h.attributed, h.unfinished, fun hexit => absurd rfl (hexit f)⟩

end KeepsDiscipline

/-! ## Operations -/

/-- An operation that notes nothing, leaves the open rules alone and errs inside the active rule. -/
def Plain (x : ParseAction μ α) : Prop :=
  ∀ s, (x s).state.rules = s.rules ∧ journal (x s).records = [] ∧
    ∀ e, (x s).exit = .error e → e.rule = s.activeRule

namespace Plain

theorem pure (a : α) : Plain (Pure.pure a : ParseAction μ α) := fun _ =>
  ⟨rfl, rfl, fun _ h => by cases h⟩

theorem get : Plain (Action.get : ParseAction μ ParserState) := fun _ =>
  ⟨rfl, rfl, fun _ h => by cases h⟩

theorem modify {f : ParserState → ParserState} (hf : ∀ s, (f s).rules = s.rules) :
    Plain (Action.modify f : ParseAction μ Unit) := fun s =>
  ⟨hf s, rfl, fun _ h => by cases h⟩

theorem emit (event : Event) : Plain (Action.emit (.event event) : ParseAction μ Unit) := fun _ =>
  ⟨rfl, rfl, fun _ h => by cases h⟩

theorem stop (f : Fault) : Plain (Action.stop f : ParseAction μ α) := fun _ =>
  ⟨rfl, rfl, fun _ h => by cases h⟩

theorem bind {x : ParseAction μ α} {f : α → ParseAction μ β} (hx : Plain x)
    (hf : ∀ a, Plain (f a)) : Plain (x >>= f) := by
  intro s
  obtain ⟨hrules, hjournal, herror⟩ := hx s
  rw [Action.bind_apply]
  rcases hrun : x s with ⟨exit, s', records⟩
  rw [hrun] at hrules hjournal herror
  cases exit with
  | ok a =>
    obtain ⟨hrules', hjournal', herror'⟩ := hf a s'
    refine ⟨hrules'.trans hrules, ?_, fun e he => ?_⟩
    · rw [journal_append, hjournal, hjournal', List.nil_append]
    · rw [herror' e he, ParserState.activeRule, hrules, ParserState.activeRule]
  | error e =>
    refine ⟨hrules, hjournal, ?_⟩
    rintro _ ⟨⟩
    exact herror e rfl
  | fault f => exact ⟨hrules, hjournal, fun _ he => by cases he⟩

theorem scanOr {ε : Type} {onError : ε → ParseAction μ α} (h : ∀ e, Plain (onError e))
    (action : Action Event Store ε α) : Plain (Parser.scanOr onError action) := by
  intro s
  rw [Parser.scanOr]
  rcases action s.store with ⟨exit, store, records⟩
  cases exit with
  | ok a => exact ⟨rfl, journal_map_event records, fun _ he => by cases he⟩
  | fault f => exact ⟨rfl, journal_map_event records, fun _ he => by cases he⟩
  | error e =>
    obtain ⟨hrules, hjournal, herror⟩ := h e { s with store }
    refine ⟨hrules, ?_, herror⟩
    rw [journal_append, journal_map_event, hjournal, List.nil_append]

theorem scan (action : Action Event Store Empty α) :
    Plain (Parser.scan action : ParseAction μ α) :=
  .scanOr (fun e => e.elim) action

variable (parser : Parser)

theorem mismatch (expected : List KindId) (found : Token) :
    Plain (parser.mismatch expected found : ParseAction μ α) := by
  intro s
  refine ⟨rfl, rfl, ?_⟩
  rintro e ⟨⟩
  rfl

theorem consume (kind : KindId) : Plain (parser.consume kind : ParseAction μ Token) := by
  apply Plain.bind
  · exact .scanOr (fun m : Mismatch => .mismatch parser [m.expected] m.found) _
  · intro token
    exact .bind (.modify fun _ => rfl) fun _ => .bind (.emit _) fun _ => .pure token

theorem alternatives (lookahead : AlternativeLookahead) :
    Plain (parser.alternatives lookahead : ParseAction μ Nat) := by
  apply Plain.bind (.scan _)
  rintro (_ | branch)
  · exact .bind (.bind (.scan _) fun _ => .scan _) fun found =>
      .mismatch parser lookahead.expected found
  · exact .pure branch

theorem expectEnd : Plain (parser.expectEnd : ParseAction μ Unit) := by
  apply Plain.bind (.scan _)
  intro _
  apply Plain.bind .get
  intro s
  split
  · exact .pure ()
  · exact .bind (.scan _) fun found => .mismatch parser [KindId.eof] found

theorem check (lookahead : OptionalLookahead) :
    Plain (parser.check lookahead : ParseAction μ Bool) :=
  .scan _

theorem takeErrors : Plain (Parser.takeErrors : ParseAction μ (List ParseError)) :=
  .bind .get fun s => .bind (.modify fun _ => rfl) fun _ => .pure s.errors

theorem keepError (e : ParseError) : Plain (Parser.keepError e : ParseAction μ Unit) :=
  .modify fun _ => rfl

theorem keepsDiscipline {x : ParseAction Deed α} (hx : Plain x) : KeepsDiscipline x := fun s =>
  .of_silent (hx s).2.1 (hx s).1

/-- An operation that notes its token, if it has one, and its mismatch. -/
theorem noting {x : ParseAction Deed α} (hx : Plain x) {committed : α → List Deed}
    (hcommitted : ∀ a, committed a = [] ∨ ∃ t, committed a = [.committed t]) :
    KeepsDiscipline (ParseProgram.noting (ParseProgram.committing committed) x) := by
  intro s
  obtain ⟨hrules, hjournal, herror⟩ := hx s
  rcases hrun : x s with ⟨exit, s', records⟩
  rw [hrun] at hrules hjournal herror
  have hnoted (deeds : List Deed) : journal (records ++ deeds.map .mark) = deeds := by
    rw [journal_append, hjournal, journal_map_mark, List.nil_append]
  cases exit with
  | ok a =>
    rw [ParseProgram.noting_of_ok hrun]
    rcases hcommitted a with hnone | ⟨t, hone⟩
    · exact .of_silent ((hnoted _).trans hnone) hrules
    · have hjournal := (hnoted _).trans hone
      apply Disciplined.of_wellNested
      · exact hjournal ▸ .deed rfl
      · exact hjournal ▸ .deed fun e he => by cases he
      · exact hjournal ▸ hrules
  | error e =>
    rw [ParseProgram.noting_of_error hrun]
    have hjournal := hnoted [.refused e]
    apply Disciplined.of_wellNested
    · exact hjournal ▸ .deed rfl
    · refine hjournal ▸ .deed ?_
      rintro _ ⟨⟩
      exact herror e rfl
    · exact hjournal ▸ hrules
  | fault f =>
    rw [ParseProgram.noting_of_fault hrun]
    exact .of_silent hjournal hrules

end Plain

namespace KeepsDiscipline

variable {parser : Parser}

theorem rule {x : ParseAction Deed α} (name : String) (hx : KeepsDiscipline x) :
    KeepsDiscipline (ParseProgram.note (.opened name) >>= fun _ =>
      ParseProgram.noting (fun result => [.closed name result.isOk]) (Parser.rule name x)) := by
  intro s
  have hbody := hx { s with rules := name :: s.rules }
  rw [Action.bind_of_ok (ParseProgram.note_apply _ s)]
  rcases hrun : x { s with rules := name :: s.rules } with ⟨exit, s', records⟩
  rw [hrun] at hbody
  have hopen : Attributed s.rules [.opened name] := .deed fun e he => by cases he
  have hopened : Attributed s.rules (.opened name :: journal records) :=
    hopen.append hbody.attributed
  -- Both ways to leave the body close the rule and note it.
  have hleft (exit : Exit ParseError α) (ok : Bool) (hwell : WellNested (journal records)) :
      Disciplined s.rules (⟨exit, { s' with rules := s'.rules.tail },
        [.mark (.opened name)] ++ ((.event (.entered name s.offset) :: records ++
          [.event (.exited name ok)]) ++ [.mark (.closed name ok)])⟩ :
        Run (Emission Deed) ParserState ParseError α) := by
    have hjournal : journal ([.mark (.opened name)] ++ ((.event (.entered name s.offset) ::
        records ++ [.event (.exited name ok)]) ++ [.mark (.closed name ok)])) =
          .opened name :: journal records ++ [.closed name ok] := by
      simp [journal_append]
    apply Disciplined.of_wellNested
    · exact hjournal ▸ .rule name ok hwell
    · exact hjournal ▸ hopened.append (.deed fun e he => by cases he)
    · rw [hjournal, replay_append]
      exact congrArg List.tail hbody.stack
  cases exit with
  | ok a =>
    rw [ParseProgram.noting_of_ok (Parser.rule_of_ok name hrun)]
    exact hleft (.ok a) true (hbody.wellNested (by simp))
  | error e =>
    rw [ParseProgram.noting_of_error (Parser.rule_of_error name hrun)]
    exact hleft (.error e) false (hbody.wellNested (by simp))
  | fault f =>
    rw [ParseProgram.noting_of_fault (Parser.rule_of_fault name hrun)]
    exact ⟨hbody.stack, hopened, hbody.unfinished.rule name, fun h => absurd rfl (h f)⟩

theorem optional {x : ParseAction Deed α} (hx : KeepsDiscipline x)
    (lookahead : OptionalLookahead) : KeepsDiscipline (parser.optional lookahead x) :=
  .bind (Plain.check parser lookahead).keepsDiscipline fun _ =>
    .ite (.bind hx fun a => .pure (some a)) (.pure none)

theorem progressing {x : ParseAction Deed α} (hx : KeepsDiscipline x) :
    KeepsDiscipline (Parser.progressing x) :=
  .bind Plain.get.keepsDiscipline fun before => .bind hx fun item =>
    .bind Plain.get.keepsDiscipline fun _ =>
      .ite (Plain.stop (.noProgress before.offset)).keepsDiscipline (.pure item)

theorem rounds {x : ParseAction Deed α} (hx : KeepsDiscipline x)
    (lookahead : OptionalLookahead) (n : Nat) : KeepsDiscipline (parser.rounds lookahead x n) := by
  induction n with
  | zero => exact .bind Plain.get.keepsDiscipline fun s =>
      (Plain.stop (.noProgress s.offset)).keepsDiscipline
  | succ n ih =>
    rw [Parser.rounds_succ]
    refine .bind (Plain.check parser lookahead).keepsDiscipline fun _ => .ite ?_ (.pure [])
    exact hx.progressing.bind fun item => ih.bind fun items => .pure (item :: items)

theorem begin (source : Text) :
    KeepsDiscipline ((ParseProgram.begin source).perform parser) := by
  intro s
  rw [ParseProgram.perform]
  by_cases hlen : Text.byteLength source < offsetLimit
  · rw [Action.bind_of_ok (Parser.begin_run hlen s)]
    exact .of_wellNested (.deed rfl) (.deed fun e he => by cases he) rfl
  · have hlong : (Parser.begin source : ParseAction Deed Unit) s =
        ⟨.fault (.sourceTooLong (Text.byteLength source)), s, []⟩ := by
      simp [Parser.begin, Parser.scan, Parser.scanOr, Action.bind_apply, Store.begin, hlen]
    rw [Action.bind_apply, hlong]
    exact .of_silent rfl rfl

/-- Every program keeps discipline. -/
theorem perform (program : ParseProgram α) : KeepsDiscipline (program.perform parser) := by
  induction program with
  | done exit => exact fun _ => .of_silent rfl rfl
  | bind _ _ ihFirst ihNext => exact ihFirst.bind ihNext
  | attempt _ ih => exact ih.attempt
  | state => exact Plain.get.keepsDiscipline
  | skip => exact (Plain.scan _).keepsDiscipline
  | tryMatch _ => exact (Plain.scan _).keepsDiscipline
  | seek _ => exact (Plain.scan _).keepsDiscipline
  | consume kind => exact (Plain.consume parser kind).noting fun t => Or.inr ⟨t, rfl⟩
  | expectEnd => exact (Plain.expectEnd parser).noting fun _ => Or.inl rfl
  | alternatives lookahead =>
    exact (Plain.alternatives parser lookahead).noting fun _ => Or.inl rfl
  | check lookahead => exact (Plain.check parser lookahead).keepsDiscipline
  | rule name _ ih => exact ih.rule name
  | optional lookahead _ ih => exact ih.optional lookahead
  | many lookahead _ ih => exact ih.rounds lookahead _
  | begin source => exact begin source
  | run source _ ih =>
    rw [ParseProgram.perform_run]
    refine (begin source).bind fun _ => ih.attempt.bind ?_
    rintro (e | a)
    · exact (Plain.keepError e).keepsDiscipline.bind fun _ =>
        Plain.takeErrors.keepsDiscipline.bind fun _ => .pure _
    · exact Plain.takeErrors.keepsDiscipline.bind fun _ => .pure _

end KeepsDiscipline

/-! ## Whole programs -/

/-- Whatever a program does in whatever state:
* If it ends without a fault, then the open rules are those from before, or none if it began a
  source.
* If a fault ends it and no source was begun, then the rules that it has open stand in front of
  those from before.
* Every mismatch has the innermost rule that the program has open since it began a source. If there
  is none, it has the innermost rule from before, or no rule if a source was begun. -/
theorem rules_disciplined (parser : Parser) (program : ParseProgram α) (s : ParserState) :
    let r := program.perform parser s
    let deeds := journal r.records
    ((∀ f, r.exit ≠ .fault f) →
      r.state.rules = if .restarted ∈ deeds then [] else s.rules) ∧
    ((∃ f, r.exit = .fault f) → .restarted ∉ deeds →
      r.state.rules = openRules deeds ++ s.rules) ∧
    ∀ before e after, deeds = before ++ .refused e :: after →
      e.rule = (openRules before).head?.or
        (if .restarted ∈ before then none else s.activeRule) := by
  intro r deeds
  have h : Disciplined s.rules r := KeepsDiscipline.perform program s
  refine ⟨fun hexit => ?_, fun _ hbegun => ?_, fun before e after hdeeds => ?_⟩
  · rw [h.stack, (h.wellNested hexit).replay_eq]
  · rw [h.stack, h.unfinished.replay_eq, if_neg hbegun]
  · have hbefore : Unfinished before := h.unfinished.take ⟨_, hdeeds.symm⟩
    rw [h.attributed before e after hdeeds, hbefore.replay_eq, List.head?_append]
    split <;> rfl

/-- An error goes through two rules and is dropped, and then a fault ends a third rule. -/
theorem rules_disciplined_dropped :
    ∃ (program : ParseProgram Unit) (s : ParserState) (digit sum : ParseError),
      s.rules = ["Top"] ∧
      journal (program.perform Ecma.parser s).records =
        [.opened "Sum", .opened "Digit", .refused digit, .closed "Digit" false, .refused sum,
          .closed "Sum" false, .opened "Far"] ∧
      (program.perform Ecma.parser s).exit = .fault (.positionOutOfBounds 99 1) ∧
      (program.perform Ecma.parser s).state.rules = ["Far", "Top"] ∧
      digit.rule = some "Digit" ∧ sum.rule = some "Sum" := by
  let program : ParseProgram Unit :=
    .bind (.attempt (.rule "Sum" (.bind (.attempt (.rule "Digit" (.consume Ecma.numericLiteral)))
      fun _ => .consume Ecma.semicolon))) fun _ => .rule "Far" (.seek 99)
  let s : ParserState := { ParserState.start ['x'] with rules := ["Top"] }
  let found : Token := ⟨.error, ['x'], ⟨0, 1⟩⟩
  let digit : ParseError := ⟨[Ecma.numericLiteral], found, some "Digit",
    "expected NumericLiteral, found \x60x\x60 while parsing Digit"⟩
  let sum : ParseError := ⟨[Ecma.semicolon], found, some "Sum",
    "expected \';\', found \x60x\x60 while parsing Sum"⟩
  have hjournal : journal (program.perform Ecma.parser s).records =
      [.opened "Sum", .opened "Digit", .refused digit, .closed "Digit" false, .refused sum,
        .closed "Sum" false, .opened "Far"] := by
    decide +kernel
  have hexit : (program.perform Ecma.parser s).exit = .fault (.positionOutOfBounds 99 1) := by
    decide +kernel
  obtain ⟨-, hfault, hrefused⟩ := rules_disciplined Ecma.parser program s
  rw [hjournal] at hfault hrefused
  refine ⟨program, s, digit, sum, rfl, hjournal, hexit, ?_, ?_, ?_⟩
  · exact hfault ⟨_, hexit⟩ (by simp)
  · exact hrefused [.opened "Sum", .opened "Digit"] digit _ rfl
  · exact hrefused [.opened "Sum", .opened "Digit", .refused digit, .closed "Digit" false] sum _ rfl

end PredictiveParsing
