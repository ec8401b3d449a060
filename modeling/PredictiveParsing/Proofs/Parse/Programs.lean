import PredictiveParsing.Proofs.Parse.Steps

/-!
# Programs of parser operations

A grammar is a program over the operations of a parser: what it does next may depend on all that
came before, and bodies of rules, repetitions and whole parses are programs again. A program is run
by the operations themselves, which also keep a journal of deeds: which rules were opened and
closed, which tokens were committed, which mismatches arose, and where a source was begun.

* `ParseProgram.perform`: a program as an action.
* `journal`, `reported`: the marks and the events among what was emitted.
* `WellNested`, `Unfinished`: the deeds of what ended, and of what was ended by a fault.
-/

namespace PredictiveParsing

variable {μ α β : Type}

/-! ## Programs -/

/-- Something that a program did. -/
inductive Deed where
  | opened (rule : String)
  | closed (rule : String) (ok : Bool)
  | committed (token : Token)
  /-- A mismatch arose. -/
  | refused (error : ParseError)
  /-- A source was begun. -/
  | restarted
  deriving DecidableEq

/-- A program of parser operations. What a rule or a repetition calls is a part of it, so rules that
call each other without end are given as deep as they go. -/
inductive ParseProgram : Type → Type 1 where
  /-- Ends at once, also with an error that was raised before, or with a fault. -/
  | done {α : Type} (exit : Exit ParseError α) : ParseProgram α
  | bind {α β : Type} (first : ParseProgram α) (next : α → ParseProgram β) : ParseProgram β
  /-- Goes on behind the error of a body, if there is one. -/
  | attempt {α : Type} (body : ParseProgram α) : ParseProgram (Except ParseError α)
  | state : ParseProgram ParserState
  | skip : ParseProgram Nat
  | tryMatch (kind : KindId) : ParseProgram (Option Token)
  | seek (offset : Nat) : ParseProgram Unit
  | consume (kind : KindId) : ParseProgram Token
  | expectEnd : ParseProgram Unit
  | alternatives (lookahead : AlternativeLookahead) : ParseProgram Nat
  | check (lookahead : OptionalLookahead) : ParseProgram Bool
  | rule {α : Type} (name : String) (body : ParseProgram α) : ParseProgram α
  | optional {α : Type} (lookahead : OptionalLookahead) (body : ParseProgram α) :
    ParseProgram (Option α)
  | many {α : Type} (lookahead : OptionalLookahead) (body : ParseProgram α) :
    ParseProgram (List α)
  | begin (source : Text) : ParseProgram Unit
  | run {α : Type} (source : Text) (entry : ParseProgram α) : ParseProgram (ParseOutput α)

namespace ParseProgram

/-- Notes a deed. -/
def note (deed : Deed) : ParseAction Deed Unit := Action.emit (.mark deed)

/-- Runs an action, notes how it ended, and passes its end on. -/
def noting (deeds : Except ParseError α → List Deed) (action : ParseAction Deed α) :
    ParseAction Deed α := do
  match ← Action.attempt action with
  | .ok a =>
    Action.emitAll ((deeds (.ok a)).map .mark)
    return a
  | .error e =>
    Action.emitAll ((deeds (.error e)).map .mark)
    Action.raise e

section noting

variable {deeds : Except ParseError α → List Deed} {action : ParseAction Deed α}
  {s s' : ParserState} {records : List (Emission Deed)}

theorem noting_of_ok {a : α} (h : action s = ⟨.ok a, s', records⟩) :
    noting deeds action s = ⟨.ok a, s', records ++ (deeds (.ok a)).map .mark⟩ := by
  simp [noting, Action.bind_apply, Action.map_apply, Action.attempt, h]

theorem noting_of_error {e : ParseError} (h : action s = ⟨.error e, s', records⟩) :
    noting deeds action s = ⟨.error e, s', records ++ (deeds (.error e)).map .mark⟩ := by
  simp [noting, Action.bind_apply, Action.attempt, h]

theorem noting_of_fault {f : Fault} (h : action s = ⟨.fault f, s', records⟩) :
    noting deeds action s = ⟨.fault f, s', records⟩ := by
  simp [noting, Action.bind_apply, Action.attempt, h]

end noting

/-- The deeds of an operation that goes through or mismatches. -/
def committing (committed : α → List Deed) : Except ParseError α → List Deed
  | .ok a => committed a
  | .error e => [.refused e]

/-- A program as an action. -/
def perform (parser : Parser) {α : Type} : ParseProgram α → ParseAction Deed α
  | .done exit => fun s => ⟨exit, s, []⟩
  | .bind first next => do
    let a ← first.perform parser
    (next a).perform parser
  | .attempt body => Action.attempt (body.perform parser)
  | .state => Action.get
  | .skip => Parser.scan parser.scanner.skip
  | .tryMatch kind => Parser.scan (parser.scanner.tryMatch kind)
  | .seek offset => Parser.scan (Store.seek offset)
  | .consume kind => noting (committing fun token => [.committed token]) (parser.consume kind)
  | .expectEnd => noting (committing fun _ => []) parser.expectEnd
  | .alternatives lookahead => noting (committing fun _ => []) (parser.alternatives lookahead)
  | .check lookahead => parser.check lookahead
  | .rule name body => do
    note (.opened name)
    noting (fun result => [.closed name result.isOk]) (Parser.rule name (body.perform parser))
  | .optional lookahead body => parser.optional lookahead (body.perform parser)
  | .many lookahead body => parser.many lookahead (body.perform parser)
  | .begin source => do
    Parser.begin source
    note .restarted
  | .run source entry =>
    Parser.run source do
      note .restarted
      entry.perform parser

@[simp] theorem note_apply (deed : Deed) (s : ParserState) :
    note deed s = ⟨.ok (), s, [.mark deed]⟩ := rfl

theorem attempt_note (deed : Deed) (x : ParseAction Deed α) :
    (Action.attempt (note deed >>= fun _ => x) : ParseAction Deed (Except ParseError α)) =
      note deed >>= fun _ => Action.attempt x := by
  funext s
  simp only [Action.attempt, Action.bind_apply, note_apply]
  rcases x s with ⟨exit, s', records⟩
  cases exit <;> rfl

/-- The output of a whole parse whose entry ended. -/
def concluding : Except ParseError α → ParseAction μ (ParseOutput α)
  | .ok a => do return ⟨some a, ← Parser.takeErrors⟩
  | .error e => do
    Parser.keepError e
    return ⟨none, ← Parser.takeErrors⟩

theorem run_eq (source : Text) (entry : ParseAction μ α) :
    Parser.run source entry =
      Parser.begin source >>= fun _ => Action.attempt entry >>= concluding := by
  unfold Parser.run
  refine congrArg _ (funext fun _ => congrArg _ (funext fun result => ?_))
  cases result <;> rfl

/-- A whole parse begins its source and then tries its entry. -/
theorem perform_run (parser : Parser) (source : Text) (entry : ParseProgram α) :
    (ParseProgram.run source entry).perform parser =
      (ParseProgram.begin source).perform parser >>= fun _ =>
        (ParseProgram.attempt entry).perform parser >>= concluding := by
  simp only [perform, run_eq, attempt_note, bind_assoc]

end ParseProgram

/-! ## Journals -/

theorem prefix_append_cases {a b c : List α} (h : a <+: b ++ c) :
    a <+: b ∨ ∃ d, a = b ++ d ∧ d <+: c := by
  obtain ⟨rest, heq⟩ := h
  rcases List.append_eq_append_iff.1 heq with ⟨d, rfl, -⟩ | ⟨d, rfl, rfl⟩
  · exact Or.inl (List.prefix_append _ _)
  · exact Or.inr ⟨d, rfl, List.prefix_append _ _⟩

/-- The marks among what was emitted, in order. -/
def journal (records : List (Emission μ)) : List μ := records.filterMap Emission.mark?

@[simp] theorem journal_nil : journal ([] : List (Emission μ)) = [] := rfl

@[simp] theorem journal_cons_event (event : Event) (records : List (Emission μ)) :
    journal (.event event :: records) = journal records := rfl

@[simp] theorem journal_cons_mark (m : μ) (records : List (Emission μ)) :
    journal (.mark m :: records) = m :: journal records := rfl

theorem journal_append (a b : List (Emission μ)) : journal (a ++ b) = journal a ++ journal b :=
  List.filterMap_append

theorem journal_map_event (events : List Event) :
    journal (events.map Emission.event : List (Emission μ)) = [] := by
  rw [journal, List.filterMap_map]
  exact List.filterMap_eq_nil_iff.2 fun _ _ => rfl

theorem journal_map_mark (marks : List μ) : journal (marks.map Emission.mark) = marks := by
  rw [journal, List.filterMap_map]
  exact List.filterMap_some

/-- The events among what was emitted, in order. -/
def reported (records : List (Emission μ)) : List Event := records.filterMap Emission.event?

theorem reported_append (a b : List (Emission μ)) :
    reported (a ++ b) = reported a ++ reported b :=
  List.filterMap_append

theorem reported_map_event (events : List Event) :
    reported (events.map Emission.event : List (Emission μ)) = events := by
  rw [reported, List.filterMap_map]
  exact List.filterMap_some

/-- Whether a deed opens or closes a rule. -/
def Deed.isBracket : Deed → Bool
  | .opened _ | .closed _ _ => true
  | _ => false

/-- Every rule that is opened is closed by its own name, behind the rules inside it. -/
inductive WellNested : List Deed → Prop where
  | nil : WellNested []
  | deed {deed : Deed} : deed.isBracket = false → WellNested [deed]
  | append {a b : List Deed} : WellNested a → WellNested b → WellNested (a ++ b)
  | rule {deeds : List Deed} (name : String) (ok : Bool) :
      WellNested deeds → WellNested (.opened name :: deeds ++ [.closed name ok])

/-- Some rules are still open, one inside the other. -/
inductive Unfinished : List Deed → Prop where
  | wellNested {deeds : List Deed} : WellNested deeds → Unfinished deeds
  | opened {a b : List Deed} (name : String) :
      WellNested a → Unfinished b → Unfinished (a ++ .opened name :: b)

theorem Unfinished.append {a b : List Deed} (ha : WellNested a) (hb : Unfinished b) :
    Unfinished (a ++ b) := by
  cases hb with
  | wellNested hb => exact .wellNested (ha.append hb)
  | @opened c d name hc hd =>
    rw [← List.append_assoc]
    exact .opened name (ha.append hc) hd

theorem Unfinished.rule {deeds : List Deed} (name : String) (h : Unfinished deeds) :
    Unfinished (.opened name :: deeds) :=
  .opened name .nil h

theorem WellNested.take {deeds a : List Deed} (h : WellNested deeds) (hfront : a <+: deeds) :
    Unfinished a := by
  induction h generalizing a with
  | nil => exact List.prefix_nil.1 hfront ▸ .wellNested .nil
  | deed hdeed =>
    rcases List.prefix_cons_iff.1 hfront with rfl | ⟨b, rfl, hb⟩
    · exact .wellNested .nil
    · exact List.prefix_nil.1 hb ▸ .wellNested (.deed hdeed)
  | @append x y hx _ ihx ihy =>
    rcases prefix_append_cases hfront with hleft | ⟨b, rfl, hb⟩
    · exact ihx hleft
    · exact .append hx (ihy hb)
  | @rule deeds name ok hdeeds ih =>
    rcases List.prefix_concat_iff.1 hfront with rfl | hinside
    · exact .wellNested (.rule name ok hdeeds)
    · rcases List.prefix_cons_iff.1 hinside with rfl | ⟨b, rfl, hb⟩
      · exact .wellNested .nil
      · exact (ih hb).rule name

theorem Unfinished.take {deeds a : List Deed} (h : Unfinished deeds) (hfront : a <+: deeds) :
    Unfinished a := by
  induction h generalizing a with
  | wellNested h => exact h.take hfront
  | @opened x y name hx _ ih =>
    rcases prefix_append_cases hfront with hleft | ⟨b, rfl, hb⟩
    · exact hx.take hleft
    · rcases List.prefix_cons_iff.1 hb with rfl | ⟨c, rfl, hc⟩
      · exact .append hx (.wellNested .nil)
      · exact .opened name hx (ih hc)

end PredictiveParsing
