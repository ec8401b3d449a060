import PredictiveParsing.Proofs.Parse.Milestones

/-!
# Repetitions

The rounds of a repetition are noted while it runs: in which state each began, how it ended, and in
which state. As long as the rounds begin no source and take up no position, each of them ends
further on than it began, or it is the last one. So there are at most as many of them as there are
bytes ahead.

* `Parser.laps`: the rounds of a run.
* `ParseProgram.StaysOn`: in its run from a state, a program begins no source and takes up no
  position; `perform_leads`: it goes forward then.
* `GoesRound`, `rounds_goesRound`: the rounds of a run, one after the other, and its end.
* `many_stops`: how many rounds there are, and where and how a repetition stops.
-/

namespace PredictiveParsing

open Text PredictiveParsing.Action

variable {μ α β : Type}

/-! ## Rounds -/

/-- One round of a repetition. -/
structure Lap (α : Type) where
  before : ParserState
  exit : Exit ParseError α
  after : ParserState

/-- The round went through, but it ended at the offset where it began. -/
def Lap.StalledAt (lap : Lap α) (offset : Nat) : Prop :=
  (∃ item, lap.exit = .ok item) ∧ lap.before.offset = offset ∧ lap.after.offset = offset

namespace Parser

/-- Runs a body as a round and notes it. What the body emits itself is left out. -/
def noteLap (body : ParseAction μ α) : ParseAction (Lap α) α := fun s =>
  ⟨(body s).exit, (body s).state, [.mark ⟨s, (body s).exit, (body s).state⟩]⟩

theorem noteLap_endsAs (body : ParseAction μ α) : EndsAs (noteLap body) body :=
  fun _ => ⟨rfl, rfl, trivial⟩

variable (parser : Parser) (lookahead : OptionalLookahead)

/-- The rounds of a repetition that starts from a state. -/
def laps (body : ParseAction μ α) (s : ParserState) : List (Lap α) :=
  journal (parser.many lookahead (noteLap body) s).records

/-- What a lookahead answers in a state. -/
def answer (s : ParserState) : Exit ParseError Bool :=
  (parser.check lookahead s : Run (Emission Empty) ParserState ParseError Bool).exit

end Parser

/-! ## Decisions -/

namespace Parser

variable (parser : Parser) (lookahead : OptionalLookahead)

theorem check_run (s : ParserState) : ∃ events : List Event,
    (parser.check lookahead s : Run (Emission μ) ParserState ParseError Bool) =
      ⟨parser.answer lookahead s, s, events.map .event⟩ := by
  have hexit : (parser.check lookahead s : Run (Emission μ) ParserState ParseError Bool).exit =
      parser.answer lookahead s := (Alike.check (V := SameEvents (ν := Empty)) parser lookahead s).1
  have hstate : (parser.check lookahead s : Run (Emission μ) ParserState ParseError Bool).state =
      s := by
    rw [check, scan_state, lookahead.holds_state]
  have hrecords : (parser.check lookahead s :
      Run (Emission μ) ParserState ParseError Bool).records =
        (lookahead.holds parser.scanner s.store).records.map .event := scan_records _ s
  refine ⟨(lookahead.holds parser.scanner s.store : Run Event Store Empty Bool).records, ?_⟩
  rw [Run.eq_of_exit hexit, hstate, hrecords]

variable {parser lookahead} {s t : ParserState}

theorem answer_congr (h : s.store = t.store) :
    parser.answer lookahead s = parser.answer lookahead t := by
  rw [answer, answer, check, scan, scanOr, scanOr, h]
  cases (lookahead.holds parser.scanner t.store : Run Event Store Empty Bool).exit with
  | error e => exact e.elim
  | _ => rfl

theorem answer_ne_error (e : ParseError) : parser.answer lookahead s ≠ .error e := by
  rw [answer, check, scan, scanOr]
  cases (lookahead.holds parser.scanner s.store : Run Event Store Empty Bool).exit with
  | error e => exact e.elim
  | ok _ | fault _ =>
    intro h
    cases h

theorem lt_of_answer (h : parser.answer lookahead s = .ok true) :
    s.offset < byteLength s.store.source := by
  apply lookahead.lt_of_holds (ε := Empty)
  rw [answer, check, scan, scanOr] at h
  cases hexit : (lookahead.holds parser.scanner s.store : Run Event Store Empty Bool).exit with
  | ok b =>
    rw [hexit] at h
    exact congrArg _ (Exit.ok.inj h)
  | error e => exact e.elim
  | fault f =>
    rw [hexit] at h
    cases h

end Parser

/-! ## The rounds of a run -/

/-- The exit of a repetition behind a round that went through. -/
def Exit.behind {ε : Type} (item : α) : Exit ε (List α) → Exit ε (List α)
  | .ok items => .ok (item :: items)
  | .error e => .error e
  | .fault f => .fault f

theorem Exit.behind_eq_fault_iff {ε : Type} {item : α} {exit : Exit ε (List α)} {f : Fault} :
    exit.behind item = .fault f ↔ exit = .fault f := by
  cases exit <;> simp [behind]

section

variable (parser : Parser) (lookahead : OptionalLookahead) (body : ParseAction μ α)

/-- From a state on, a repetition goes through rounds, and it ends with an exit in another state. -/
inductive GoesRound :
    ParserState → List (Lap α) → Exit ParseError (List α) → ParserState → Prop where
  | finished {s : ParserState} : parser.answer lookahead s = .ok false → GoesRound s [] (.ok []) s
  | undecided {s : ParserState} {f : Fault} :
      parser.answer lookahead s = .fault f → GoesRound s [] (.fault f) s
  | refused {s : ParserState} {e : ParseError} :
      parser.answer lookahead s = .ok true → (body s).exit = .error e →
      GoesRound s [⟨s, .error e, (body s).state⟩] (.error e) (body s).state
  | broken {s : ParserState} {f : Fault} :
      parser.answer lookahead s = .ok true → (body s).exit = .fault f →
      GoesRound s [⟨s, .fault f, (body s).state⟩] (.fault f) (body s).state
  | stalled {s : ParserState} {item : α} :
      parser.answer lookahead s = .ok true → (body s).exit = .ok item →
      (body s).state.offset ≤ s.offset →
      GoesRound s [⟨s, .ok item, (body s).state⟩] (.fault (.noProgress s.offset)) (body s).state
  | again {s t : ParserState} {item : α} {laps : List (Lap α)} {exit : Exit ParseError (List α)} :
      parser.answer lookahead s = .ok true → (body s).exit = .ok item →
      s.offset < (body s).state.offset → GoesRound (body s).state laps exit t →
      GoesRound s (⟨s, .ok item, (body s).state⟩ :: laps) (exit.behind item) t

end

section

variable {parser : Parser} {lookahead : OptionalLookahead} (body : ParseAction μ α)
  {s t : ParserState} {laps : List (Lap α)} {exit : Exit ParseError (List α)}

/-- Where a candidate comes next, a repetition goes through a round and then through the others. -/
theorem rounds_succ_of_answer (n : Nat) (hanswer : parser.answer lookahead s = .ok true) :
    ∃ events : List Event,
      let lap : Lap α := ⟨s, (body s).exit, (body s).state⟩
      let seen := events.map .event ++ [.mark lap]
      let rest := parser.rounds lookahead (Parser.noteLap body) n (body s).state
      parser.rounds lookahead (Parser.noteLap body) (n + 1) s =
        match (body s).exit with
        | .error e => ⟨.error e, (body s).state, seen⟩
        | .fault f => ⟨.fault f, (body s).state, seen⟩
        | .ok item =>
          if (body s).state.offset ≤ s.offset then
            ⟨.fault (.noProgress s.offset), (body s).state, seen⟩
          else ⟨rest.exit.behind item, rest.state, seen ++ rest.records⟩ := by
  obtain ⟨events, hcheck⟩ := parser.check_run (μ := Lap α) lookahead s
  refine ⟨events, ?_⟩
  intro lap seen rest
  have hlap : Parser.noteLap body s = ⟨(body s).exit, (body s).state, [.mark lap]⟩ := rfl
  rw [hanswer] at hcheck
  rw [Parser.rounds_succ, bind_of_ok hcheck]
  simp only [if_true]
  cases hexit : (body s).exit with
  | error e =>
    rw [hexit] at hlap
    rw [bind_apply, Parser.progressing_of_error hlap]
  | fault f =>
    rw [hexit] at hlap
    rw [bind_apply, Parser.progressing_of_fault hlap]
  | ok item =>
    rw [hexit] at hlap
    rw [bind_apply, Parser.progressing_of_ok hlap]
    by_cases hstalled : (body s).state.offset ≤ s.offset
    · simp only [if_pos hstalled]
      rfl
    · simp only [if_neg hstalled]
      have hrest : parser.rounds lookahead (Parser.noteLap body) n (body s).state = rest := rfl
      rw [bind_apply, hrest]
      cases hend : rest.exit <;> simp [Exit.behind, seen]

/-- As long as rounds go forward, a repetition that may go on for longer than there is text ahead
goes on until it ends by itself. -/
theorem rounds_goesRound (n : Nat) (hn : byteLength s.store.source - s.offset < n)
    (hlaps : ∀ lap ∈ journal (parser.rounds lookahead (Parser.noteLap body) n s).records,
      lap.before.store.Leads lap.after.store) :
    let r := parser.rounds lookahead (Parser.noteLap body) n s
    GoesRound parser lookahead body s (journal r.records) r.exit r.state := by
  induction n generalizing s with
  | zero => exact absurd hn (Nat.not_lt_zero _)
  | succ n ih =>
    obtain ⟨events, hcheck⟩ := parser.check_run (μ := Lap α) lookahead s
    cases hanswer : parser.answer lookahead s with
    | error e => exact absurd hanswer (Parser.answer_ne_error e)
    | fault f =>
      rw [hanswer] at hcheck
      simp only [Parser.rounds_succ, bind_apply, hcheck, journal_map_event]
      exact .undecided hanswer
    | ok more =>
      cases more with
      | false =>
        rw [hanswer] at hcheck
        simp only [Parser.rounds_succ, bind_of_ok hcheck, Bool.false_eq_true, if_false, pure_apply,
          List.append_nil, journal_map_event]
        exact .finished hanswer
      | true =>
        obtain ⟨events, hround⟩ := rounds_succ_of_answer body n hanswer
        rw [hround] at hlaps ⊢
        cases hexit : (body s).exit with
        | error e =>
          simp only [journal_append, journal_map_event]
          exact .refused hanswer hexit
        | fault f =>
          simp only [journal_append, journal_map_event]
          exact .broken hanswer hexit
        | ok item =>
          by_cases hstalled : (body s).state.offset ≤ s.offset
          · simp only [if_pos hstalled, journal_append, journal_map_event]
            exact .stalled hanswer hexit hstalled
          · simp only [hexit, if_neg hstalled, journal_append, journal_map_event,
              List.nil_append] at hlaps ⊢
            obtain ⟨hlead, hlaps⟩ := List.forall_mem_cons.1 hlaps
            have hahead := Parser.lt_of_answer hanswer
            have hwithin : (body s).state.store.offset ≤ byteLength s.store.source :=
              hlead.within (Nat.le_of_lt hahead)
            refine .again hanswer hexit (Nat.lt_of_not_le hstalled) (ih ?_ hlaps)
            rw [hlead.source]
            simp only [ParserState.offset] at hn hstalled ⊢
            omega

/-! ## What the rounds say of the run -/

variable {body}

/-- How a repetition ends behind its rounds, where the lookahead has an answer for the state that is
reached. -/
inductive Stops : List (Lap α) → Exit ParseError Bool → Exit ParseError (List α) → Prop where
  /-- All rounds went through, and no candidate comes next. -/
  | finished {laps : List (Lap α)} (items : List α) :
      laps.map Lap.exit = items.map .ok → Stops laps (.ok false) (.ok items)
  /-- The last round ended with an error. -/
  | refused {laps : List (Lap α)} {answer : Exit ParseError Bool} {e : ParseError}
      (items : List α) :
      laps.map Lap.exit = items.map .ok ++ [.error e] → Stops laps answer (.error e)
  /-- The last round ended with a fault. -/
  | broken {laps : List (Lap α)} {answer : Exit ParseError Bool} {f : Fault} (items : List α) :
      laps.map Lap.exit = items.map .ok ++ [.fault f] → Stops laps answer (.fault f)
  /-- All rounds went through, and the decision behind them faulted. -/
  | undecided {laps : List (Lap α)} {f : Fault} (items : List α) :
      laps.map Lap.exit = items.map .ok → Stops laps (.fault f) (.fault f)
  /-- All rounds went through, the last of them without moving on. -/
  | stalled {lap : Lap α} {offset : Nat} (laps : List (Lap α)) (items : List α) :
      (laps ++ [lap]).map Lap.exit = items.map .ok → lap.StalledAt offset →
      Stops (laps ++ [lap]) (.ok true) (.fault (.noProgress offset))

theorem Stops.behind {answer : Exit ParseError Bool} {item : α} {first : Lap α}
    (hfirst : first.exit = .ok item) (h : Stops laps answer exit) :
    Stops (first :: laps) answer (exit.behind item) := by
  have hall {others : List (Lap α)} {items : List α} (h : others.map Lap.exit = items.map .ok) :
      (first :: others).map Lap.exit = (item :: items).map .ok := by
    rw [List.map_cons, List.map_cons, hfirst, h]
  have hlast {items : List α} {last : Exit ParseError α}
      (h : laps.map Lap.exit = items.map .ok ++ [last]) :
      (first :: laps).map Lap.exit = (item :: items).map .ok ++ [last] := by
    rw [List.map_cons, List.map_cons, hfirst, h, List.cons_append]
  cases h with
  | finished items hlaps => exact .finished (item :: items) (hall hlaps)
  | refused items hlaps => exact .refused (item :: items) (hlast hlaps)
  | broken items hlaps => exact .broken (item :: items) (hlast hlaps)
  | undecided items hlaps => exact .undecided (item :: items) (hall hlaps)
  | stalled laps items hlaps hstalled =>
    exact .stalled (first :: laps) (item :: items) (hall hlaps) hstalled

/-- A fault arose inside a round or in the decision behind the rounds. -/
def PassedOn (laps : List (Lap α)) (answer : Exit ParseError Bool) (f : Fault) : Prop :=
  (∃ lap ∈ laps, lap.exit = .fault f) ∨ answer = .fault f

/-- A round that went forward, but not behind its start, left the source and the offset as they
were. -/
theorem stalledAt_of_le {item : α} (hanswer : parser.answer lookahead s = .ok true)
    (hle : t.offset ≤ s.offset) (hlead : s.store.Leads t.store) :
    parser.answer lookahead t = .ok true ∧ (⟨s, .ok item, t⟩ : Lap α).StalledAt s.offset := by
  have hoffset : t.offset = s.offset := Nat.le_antisymm hle hlead.le
  have hstore : t.store = s.store := by
    rcases hs : s.store with ⟨source, offset⟩
    rcases ht : t.store with ⟨source', offset'⟩
    have hsource := hlead.source
    rw [ParserState.offset, ParserState.offset, hs, ht] at hoffset
    rw [hs, ht] at hsource
    cases hoffset
    cases hsource
    rfl
  exact ⟨(Parser.answer_congr hstore).trans hanswer, ⟨item, rfl⟩, rfl, hoffset⟩

namespace GoesRound

variable (h : GoesRound parser lookahead body s laps exit t)

include h

/-- Each round starts where a candidate comes next, and it runs the body. -/
theorem lap {lap : Lap α} (hlap : lap ∈ laps) :
    parser.answer lookahead lap.before = .ok true ∧
      (body lap.before).exit = lap.exit ∧ (body lap.before).state = lap.after := by
  induction h with
  | finished _ | undecided _ => cases hlap
  | refused hanswer hexit | broken hanswer hexit =>
    rw [List.mem_singleton.1 hlap]
    exact ⟨hanswer, hexit, rfl⟩
  | stalled hanswer hexit _ =>
    rw [List.mem_singleton.1 hlap]
    exact ⟨hanswer, hexit, rfl⟩
  | again hanswer hexit _ _ ih =>
    rcases List.mem_cons.1 hlap with rfl | hlap
    · exact ⟨hanswer, hexit, rfl⟩
    · exact ih hlap

/-- The first round starts where the repetition does, each other one where the one before it ended,
and behind the last one the repetition ends. -/
theorem chain : laps.map Lap.before ++ [t] = s :: laps.map Lap.after := by
  induction h with
  | again _ _ _ _ ih => rw [List.map_cons, List.map_cons, List.cons_append, ih]
  | _ => rfl

theorem stops (hlaps : ∀ lap ∈ laps, lap.before.store.Leads lap.after.store) :
    Stops laps (parser.answer lookahead t) exit := by
  induction h with
  | finished hanswer =>
    rw [hanswer]
    exact .finished [] rfl
  | undecided hanswer =>
    rw [hanswer]
    exact .undecided [] rfl
  | refused _ _ => exact .refused [] rfl
  | broken _ _ => exact .broken [] rfl
  | stalled hanswer _ hle =>
    obtain ⟨hanswer, hstalled⟩ := stalledAt_of_le hanswer hle (hlaps _ (List.mem_singleton_self _))
    rw [hanswer]
    exact .stalled [] [_] rfl hstalled
  | again _ hexit _ _ ih => exact (ih (List.forall_mem_cons.1 hlaps).2).behind rfl

theorem length_le (hlaps : ∀ lap ∈ laps, lap.before.store.Leads lap.after.store) :
    laps.length ≤ byteLength s.store.source - s.offset := by
  induction h with
  | finished _ | undecided _ => exact Nat.zero_le _
  | refused hanswer _ | broken hanswer _ =>
    exact Nat.sub_pos_of_lt (Parser.lt_of_answer hanswer)
  | stalled hanswer _ _ => exact Nat.sub_pos_of_lt (Parser.lt_of_answer hanswer)
  | @again s _ _ laps _ hanswer _ hmoved _ ih =>
    obtain ⟨hlead, hlaps⟩ := List.forall_mem_cons.1 hlaps
    have hsource : (body s).state.store.source = s.store.source := hlead.source
    have hahead := Parser.lt_of_answer hanswer
    have hrest := ih hlaps
    rw [hsource] at hrest
    rw [List.length_cons]
    omega

/-- Exactly where a round stalled, the repetition faults itself for want of progress. -/
theorem stalled_iff (hlaps : ∀ lap ∈ laps, lap.before.store.Leads lap.after.store) (offset : Nat) :
    (∃ lap ∈ laps, lap.StalledAt offset) ↔
      exit = .fault (.noProgress offset) ∧
        ¬ PassedOn laps (parser.answer lookahead t) (.noProgress offset) := by
  induction h with
  | finished _ => simp
  | undecided hanswer => simp [PassedOn, hanswer]
  | refused _ _ => simp [Lap.StalledAt]
  | broken _ _ =>
    simp only [Lap.StalledAt, PassedOn, List.mem_singleton, exists_eq_left]
    refine iff_of_false ?_ fun hfault => hfault.2 (.inl ?_)
    · rintro ⟨⟨_, hok⟩, -⟩
      cases hok
    · exact congrArg _ (Exit.fault.inj hfault.1)
  | stalled hanswer _ hle =>
    obtain ⟨hagain, hstalled⟩ := stalledAt_of_le hanswer hle (hlaps _ (List.mem_singleton_self _))
    simp only [PassedOn, List.mem_singleton, exists_eq_left, hagain, reduceCtorEq, or_self,
      not_false_eq_true, and_true, Exit.fault.injEq, Fault.noProgress.injEq]
    exact ⟨fun h => h.2.1, fun h => h ▸ hstalled⟩
  | again _ _ hmoved _ ih =>
    have hrest := ih (List.forall_mem_cons.1 hlaps).2
    rw [PassedOn] at hrest ⊢
    simp only [List.mem_cons, exists_eq_or_imp, reduceCtorEq, false_or]
    rw [Exit.behind_eq_fault_iff, ← hrest]
    refine or_iff_right fun hstalled => Nat.ne_of_lt hmoved ?_
    exact hstalled.2.1.trans hstalled.2.2.symm

end GoesRound

end

/-! ## Programs that go forward -/

/-- The source stays, and the offset gets no smaller. -/
def LeadsOn (s : ParserState) (_ : List (Emission μ)) (t : ParserState) : Prop :=
  s.store.Leads t.store

instance : Steady Forward (LeadsOn (μ := μ)) where
  refl s := .refl s.store
  trans hfirst hnext := hfirst.trans hnext
  scan h := h.leads
  rules s _ := .refl s.store
  emit s _ _ := .refl s.store

/-- The rounds noted are rounds of a body, and if they go forward, the whole does. -/
structure Rounding (body : ParseAction μ α) (s : ParserState) (records : List (Emission (Lap α)))
    (t : ParserState) : Prop where
  lap : ∀ lap ∈ journal records, (body lap.before).state = lap.after
  leads : (∀ lap ∈ journal records, lap.before.store.Leads lap.after.store) →
    s.store.Leads t.store

instance (body : ParseAction μ α) : Scans Forward (Rounding body) where
  refl s := ⟨nofun, fun _ => .refl s.store⟩
  trans hfirst hnext := by
    constructor
    · rw [journal_append]
      exact List.forall_mem_append.2 ⟨hfirst.lap, hnext.lap⟩
    · rw [journal_append, List.forall_mem_append]
      exact fun hlaps => (hfirst.leads hlaps.1).trans (hnext.leads hlaps.2)
  scan h := by
    constructor
    · rw [journal_map_event]
      exact nofun
    · exact fun _ => h.leads

theorem Parser.noteLap_rounding (body : ParseAction μ α) :
    Follows (Rounding body) (Parser.noteLap body) := fun _ =>
  ⟨List.forall_mem_singleton.2 rfl, fun hlaps => hlaps _ (List.mem_singleton_self _)⟩

theorem Parser.many_rounding (parser : Parser) (lookahead : OptionalLookahead)
    (body : ParseAction μ α) :
    Follows (Rounding body) (parser.many lookahead (Parser.noteLap body)) :=
  Parser.sequential_follows.rounds (parser.check_follows lookahead) (Parser.noteLap_rounding body) _

namespace Parser

theorem rule_store (name : String) (body : ParseAction μ α) (s : ParserState) :
    (rule name body s).state.store = (body { s with rules := name :: s.rules }).state.store := by
  have hrun := Run.eq_of_exit (r := body { s with rules := name :: s.rules }) rfl
  cases hexit : (body { s with rules := name :: s.rules }).exit with
  | ok a =>
    rw [hexit] at hrun
    rw [rule_of_ok name hrun]
  | error e =>
    rw [hexit] at hrun
    rw [rule_of_error name hrun]
  | fault f =>
    rw [hexit] at hrun
    rw [rule_of_fault name hrun]

/-- Where a candidate comes next, the body leaves the state; otherwise it stays. -/
theorem optional_state (parser : Parser) (lookahead : OptionalLookahead) (body : ParseAction μ α)
    (s : ParserState) :
    parser.answer lookahead s = .ok true ∧
        (parser.optional lookahead body s).state = (body s).state ∨
      (parser.optional lookahead body s).state = s := by
  obtain ⟨events, hcheck⟩ := parser.check_run (μ := μ) lookahead s
  rw [optional, bind_apply, hcheck]
  cases hanswer : parser.answer lookahead s with
  | error e => exact Or.inr rfl
  | fault f => exact Or.inr rfl
  | ok more =>
    cases more with
    | false => exact Or.inr rfl
    | true =>
      refine Or.inl ⟨rfl, ?_⟩
      simp only [if_true, bind_apply]
      cases (body s).exit <;> rfl

end Parser

namespace ParseProgram

/-- In its run from a state, a program begins no source and takes up no position. -/
def StaysOn (parser : Parser) {α : Type} : ParseProgram α → ParserState → Prop
  | .bind first next, s =>
    first.StaysOn parser s ∧ ∀ a, (first.perform parser s).exit = .ok a →
      (next a).StaysOn parser (first.perform parser s).state
  | .attempt body, s => body.StaysOn parser s
  | .rule name body, s => body.StaysOn parser { s with rules := name :: s.rules }
  | .optional lookahead body, s => parser.answer lookahead s = .ok true → body.StaysOn parser s
  | .many lookahead body, s =>
    ∀ lap ∈ parser.laps lookahead (body.perform parser) s, body.StaysOn parser lap.before
  | .seek _, _ | .begin _, _ | .run _ _, _ => False
  | _, _ => True

variable {parser : Parser}

theorem Onward.staysOn {program : ParseProgram α} (h : program.Onward) (s : ParserState) :
    program.StaysOn parser s := by
  induction program generalizing s with
  | bind _ _ ihFirst ihNext => exact ⟨ihFirst h.1 s, fun a _ => ihNext a (h.2 a) _⟩
  | attempt _ ih => exact ih h s
  | rule name _ ih => exact ih h _
  | optional _ _ ih => exact fun _ => ih h s
  | many _ _ ih => exact fun lap _ => ih h lap.before
  | seek _ | begin _ | run _ _ => exact h.elim
  | _ => trivial

theorem noting_state (deeds : Except ParseError α → List Deed) (x : ParseAction Deed α)
    (s : ParserState) : (noting deeds x s).state = (x s).state :=
  (Alike.noting (x := x) (V := SameEvents) (fun _ => ⟨rfl, rfl, rfl⟩) deeds s).2.1.symm

/-- However a program ends that begins no source and takes up no position in its run, the run goes
forward. -/
theorem perform_leads {program : ParseProgram α} {s : ParserState} (h : program.StaysOn parser s) :
    s.store.Leads (program.perform parser s).state.store := by
  induction program generalizing s with
  | done exit => exact .refl s.store
  | bind first next ihFirst ihNext =>
    have hfirst := ihFirst h.1
    rw [perform, bind_apply]
    cases hexit : (first.perform parser s).exit with
    | ok a => exact hfirst.trans (ihNext a (h.2 a hexit))
    | error e => exact hfirst
    | fault f => exact hfirst
  | attempt body ih =>
    have hbody := ih h
    rw [perform, Action.attempt]
    cases (body.perform parser s).exit <;> exact hbody
  | state => exact .refl s.store
  | skip => exact Parser.scan_follows (T := LeadsOn) parser.scanner.skip_forward s
  | tryMatch kind =>
    exact Parser.scan_follows (T := LeadsOn) (parser.scanner.tryMatch_forward kind) s
  | consume kind =>
    have hleads : s.store.Leads (parser.scanner.consume kind s.store).state :=
      (parser.scanner.consume_follows (T := Forward) kind s.store).leads
    rw [perform, noting_state]
    rcases parser.consume_cases (μ := Deed) kind s with
      ⟨f, hrun⟩ | ⟨e, hrun⟩ | ⟨_, _, -, -, -, -, -, hrun⟩ <;>
    · rw [hrun]
      exact hleads
  | expectEnd =>
    rw [perform, noting_state]
    exact (parser.carries_follows (T := LeadsOn)).expectEnd s
  | alternatives lookahead =>
    rw [perform, noting_state]
    exact (parser.carries_follows (T := LeadsOn)).alternatives lookahead s
  | check lookahead => exact parser.check_follows (T := LeadsOn) lookahead s
  | rule name body ih =>
    rw [perform, bind_apply, note_apply, noting_state, Parser.rule_store]
    exact ih h
  | optional lookahead body ih =>
    rw [perform]
    rcases parser.optional_state lookahead (body.perform parser) s with
      ⟨hanswer, hstate⟩ | hstate
    · rw [hstate]
      exact ih (h hanswer)
    · rw [hstate]
      exact .refl s.store
  | many lookahead body ih =>
    have hstate : ((many lookahead body).perform parser s).state =
        (parser.many lookahead (Parser.noteLap (body.perform parser)) s).state :=
      (Alike.rounds parser (Parser.noteLap_endsAs _) lookahead _ s).2.1.symm
    obtain ⟨hlap, hleads⟩ := parser.many_rounding lookahead (body.perform parser) s
    rw [hstate]
    exact hleads fun lap hmem => hlap lap hmem ▸ ih (h lap hmem)
  | seek _ | begin _ | run _ _ => exact h.elim

end ParseProgram

/-! ## Whole repetitions -/

/-- The body of a repetition is any program that begins no source and takes up no position in the
rounds of this run. Then there are at most as many rounds as there are bytes ahead. Each of them
runs the body where a candidate comes next, the first one where the repetition starts, each other
one where the one before it ended, and the repetition ends in the state behind the last one. It
gives an item for each round, no candidate coming next behind them; or it passes on the error or the
fault of its last round, or the fault of the decision behind it; or its last round went through and
did not move on. It faults for that exactly if some round did so. -/
theorem many_stops (parser : Parser) (lookahead : OptionalLookahead) (program : ParseProgram α)
    {s : ParserState} (hlen : byteLength s.store.source < offsetLimit)
    (hstays : ∀ lap ∈ parser.laps lookahead (program.perform parser) s,
      program.StaysOn parser lap.before) :
    let body := program.perform parser
    let r := parser.many lookahead body s
    let laps := parser.laps lookahead body s
    laps.length ≤ byteLength s.store.source - s.offset ∧
      (∀ lap ∈ laps, parser.answer lookahead lap.before = .ok true ∧
        (body lap.before).exit = lap.exit ∧ (body lap.before).state = lap.after) ∧
      laps.map Lap.before ++ [r.state] = s :: laps.map Lap.after ∧
      Stops laps (parser.answer lookahead r.state) r.exit ∧
      ∀ offset, (∃ lap ∈ laps, lap.StalledAt offset) ↔
        r.exit = .fault (.noProgress offset) ∧
          ¬ PassedOn laps (parser.answer lookahead r.state) (.noProgress offset) := by
  intro body r laps
  have hlaps : ∀ lap ∈ laps, lap.before.store.Leads lap.after.store := by
    intro lap hlap
    rw [← (parser.many_rounding lookahead body s).lap lap hlap]
    exact ParseProgram.perform_leads (hstays lap hlap)
  have hrounds := rounds_goesRound body (offsetLimit + 1) (by omega) hlaps
  obtain ⟨hexit, hstate, -⟩ := Alike.rounds parser (Parser.noteLap_endsAs body) lookahead
    (offsetLimit + 1) s
  dsimp only at hrounds
  rw [hexit, hstate] at hrounds
  have hrun : GoesRound parser lookahead body s laps r.exit r.state := hrounds
  exact ⟨hrun.length_le hlaps, fun lap hlap => hrun.lap hlap, hrun.chain, hrun.stops hlaps,
    hrun.stalled_iff hlaps⟩

/-- A body that swallows its mismatches goes through three rounds of a sum. In the last one the sign
is not a plus, so nothing is committed. -/
theorem many_stops_swallowing :
    let body : ParseProgram Unit := .bind (.attempt (.consume Ecma.plus)) fun _ =>
      .bind (.attempt (.consume Ecma.numericLiteral)) fun _ => .done (.ok ())
    let s := ParserState.start "+1 -2".toList
    let r := Ecma.parser.many Ecma.additiveStart (body.perform Ecma.parser) s
    let laps := Ecma.parser.laps Ecma.additiveStart (body.perform Ecma.parser) s
    byteLength s.store.source < offsetLimit ∧ body.Onward ∧
      laps.map (fun lap => (lap.before.offset, lap.after.offset)) = [(0, 2), (2, 3), (3, 3)] ∧
      laps.length ≤ 5 ∧ (∃ lap ∈ laps, lap.StalledAt 3) ∧
      r.exit = .fault (.noProgress 3) := by
  intro body s r laps
  have hlen : byteLength s.store.source < offsetLimit := by decide +kernel
  have honward : body.Onward := by simp [body, ParseProgram.Onward]
  have hlaps : laps.map (fun lap => (lap.before.offset, lap.after.offset)) =
      [(0, 2), (2, 3), (3, 3)] := by
    decide +kernel
  obtain ⟨hexit, hanswer, hpassed⟩ : r.exit = .fault (.noProgress 3) ∧
      Ecma.parser.answer Ecma.additiveStart r.state = .ok true ∧
      laps.map Lap.exit = [.ok (), .ok (), .ok ()] := by
    decide +kernel
  obtain ⟨hcount, -, -, -, hstalled⟩ := many_stops Ecma.parser Ecma.additiveStart body hlen
    fun lap _ => honward.staysOn lap.before
  refine ⟨hlen, honward, hlaps, hcount, (hstalled 3).2 ⟨hexit, ?_⟩, hexit⟩
  rintro (⟨lap, hlap, hfault⟩ | hfault)
  · have hmem := hpassed ▸ List.mem_map_of_mem (f := Lap.exit) hlap
    rw [hfault] at hmem
    simp at hmem
  · rw [hanswer] at hfault
    cases hfault

end PredictiveParsing
