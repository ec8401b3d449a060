import PredictiveParsing.Proofs.Parse.Following
import PredictiveParsing.Proofs.Predict.Admitting

/-!
# Mismatches are alike

A commitment, a choice and the end of the input are refused on ways of their own: inside the
scanner, behind a probe that was undone, and behind a look at the end. On each way the scanner
passes over the same gap, and what it finds there does not depend on what was asked for.

* `Parser.refuse`: passing over the gap and failing there. Each operation that fails does this.
* `Parser.alternatives_announces`, `check_announces`: what a lookahead announces is not refused.
* `Parser.mismatches_agree`: the three operations fail with the same token in the same state.
-/

namespace PredictiveParsing

open Text

variable {μ ε α : Type}

/-! ## Behind the gap -/

namespace Scanner

variable {scanner : Scanner} {s : Store}

theorem found_run (scanner : Scanner) (s : Store) :
    (scanner.found s : Run Event Store ε Token) =
      ⟨if offsetLimit ≤ (scanner.foundAt s).span.stop then .fault .offsetOverflow
        else .ok (scanner.foundAt s), s, []⟩ := by
  rw [found, Action.bind_of_ok (Action.get_apply _)]
  split <;> rfl

/-- A kind that stands behind the gap is committed. -/
theorem exists_consume_of_sees (htrip : scanner.tripwire = none)
    (hlen : byteLength s.source < offsetLimit) {id : KindId}
    (hsees : scanner.lexicon.sees (scanner.ahead s) id = true) :
    ∃ t, (scanner.consume id s).exit = .ok t := by
  rcases s.exists_between_or_remaining_eq_nil with ⟨before, text, rfl⟩ | hnil
  · have hexit := consume_exit htrip hlen (by simp) id
    rwa [if_pos hsees] at hexit
  · rw [ahead_of_remaining_eq_nil hnil, Lexicon.sees_nil] at hsees
    cases hsees

/-- Where a kind does not stand behind the gap, it is not committed. -/
theorem consume_unseen {id : KindId} (hlen : byteLength s.source < offsetLimit)
    (hsees : scanner.lexicon.sees (scanner.ahead s) id = false) :
    scanner.consume id s =
      let found := scanner.foundAt (scanner.pastGap s)
      ⟨if offsetLimit ≤ found.span.stop then .fault .offsetOverflow else .error ⟨id, found⟩,
        scanner.pastGap s, []⟩ := by
  rw [← remaining_pastGap] at hsees
  rw [consume, Action.bind_of_ok (skip_run scanner hlen), Action.bind_of_ok (tryMatch_none hsees)]
  simp only [Action.bind_apply, found_run]
  by_cases hlimit : offsetLimit ≤ (scanner.foundAt (scanner.pastGap s)).span.stop
  · simp only [if_pos hlimit, List.nil_append]
  · simp only [if_neg hlimit, List.nil_append, Action.raise_apply]

end Scanner

/-! ## Refusals -/

namespace Parser

variable {parser : Parser} {s : ParserState} {e : ParseError}

/-- The state behind the gap. -/
def pastGap (parser : Parser) (s : ParserState) : ParserState :=
  { s with store := parser.scanner.pastGap s.store }

/-- The error of what stands behind the gap. -/
def refusal (parser : Parser) (s : ParserState) (expected : List KindId) : ParseError :=
  let found := parser.scanner.foundAt (parser.scanner.pastGap s.store)
  ⟨expected, found, s.activeRule,
    parser.messages parser.scanner.lexicon expected found s.activeRule⟩

/-- Passes over the gap and ends with the error of what stands behind it. -/
def refuse (parser : Parser) (expected : List KindId) : ParseAction μ α := do
  parser.mismatch expected (← parser.nextFound)

theorem scan_skip (parser : Parser) (hlen : byteLength s.store.source < offsetLimit) :
    (scan parser.scanner.skip : ParseAction μ Nat) s =
      ⟨.ok (parser.scanner.gapLength s.store.remaining), parser.pastGap s, []⟩ := by
  rw [scan, scanOr, Scanner.skip_run parser.scanner hlen]
  rfl

theorem nextFound_run (parser : Parser) (hlen : byteLength s.store.source < offsetLimit) :
    (parser.nextFound : ParseAction μ Token) s =
      let found := parser.scanner.foundAt (parser.pastGap s).store
      ⟨if offsetLimit ≤ found.span.stop then .fault .offsetOverflow else .ok found,
        parser.pastGap s, []⟩ := by
  rw [nextFound, Action.bind_of_ok (scan_skip parser hlen), scan, scanOr, Scanner.found_run]
  by_cases hlimit : offsetLimit ≤ (parser.scanner.foundAt (parser.pastGap s).store).span.stop
  · simp only [if_pos hlimit, List.map_nil, List.nil_append]
  · simp only [if_neg hlimit, List.map_nil, List.nil_append]

/-- A refusal passes over the gap and fails with the error of what stands there. -/
theorem refuse_run (expected : List KindId) (hlen : byteLength s.store.source < offsetLimit)
    (hlimit : (parser.scanner.foundAt (parser.pastGap s).store).span.stop < offsetLimit) :
    (parser.refuse expected s : Run (Emission μ) ParserState ParseError α) =
      let e := parser.refusal s expected
      ⟨.error e, parser.pastGap s, [.event (.mismatched e.rule e.found.span.start e.message)]⟩ := by
  rw [refuse, Action.bind_apply, nextFound_run parser hlen]
  simp only [if_neg (Nat.not_le_of_lt hlimit)]
  rfl

/-- What stands behind the gap ends within the offsets, where a refusal fails. -/
theorem limit_of_refuse {expected : List KindId} (hlen : byteLength s.store.source < offsetLimit)
    (h : (parser.refuse expected s : Run (Emission μ) ParserState ParseError α).exit = .error e) :
    (parser.scanner.foundAt (parser.pastGap s).store).span.stop < offsetLimit := by
  refine Nat.lt_of_not_le fun hlimit => ?_
  rw [refuse, Action.bind_apply, nextFound_run parser hlen] at h
  simp only [if_pos hlimit] at h
  cases h

theorem refuse_ne_ok (expected : List KindId) (hlen : byteLength s.store.source < offsetLimit)
    (a : α) :
    (parser.refuse expected s : Run (Emission μ) ParserState ParseError α).exit ≠ .ok a := by
  by_cases hlimit : (parser.scanner.foundAt (parser.pastGap s).store).span.stop < offsetLimit
  · rw [refuse_run expected hlen hlimit]
    exact fun h => nomatch h
  · rw [refuse, Action.bind_apply, nextFound_run parser hlen]
    simp only [if_pos (Nat.le_of_not_lt hlimit)]
    exact fun h => nomatch h

/-! ## Each mismatch is a refusal -/

/-- Where a kind does not stand behind the gap, a commitment is a refusal. -/
theorem consume_unseen (hlen : byteLength s.store.source < offsetLimit) {id : KindId}
    (hsees : parser.scanner.lexicon.sees (parser.scanner.ahead s.store) id = false) :
    (parser.consume id s : Run (Emission μ) ParserState ParseError Token) =
      parser.refuse [id] s := by
  rw [refuse, consume, Action.bind_apply, Action.bind_apply, nextFound_run parser hlen, scanOr,
    Scanner.consume_unseen hlen hsees]
  by_cases hlimit : offsetLimit ≤
      (parser.scanner.foundAt (parser.scanner.pastGap s.store)).span.stop
  · simp only [pastGap, hlimit, if_true, List.map_nil]
  · simp only [pastGap, hlimit, if_false, List.map_nil]
    rfl

/-- A kind that stands behind the gap is committed. -/
theorem consume_seen (htrip : parser.scanner.tripwire = none)
    (hlen : byteLength s.store.source < offsetLimit) {id : KindId}
    (hsees : parser.scanner.lexicon.sees (parser.scanner.ahead s.store) id = true) :
    ∃ token, (parser.consume id s : Run (Emission μ) ParserState ParseError Token).exit =
      .ok token := by
  obtain ⟨token, htoken⟩ := Scanner.exists_consume_of_sees htrip hlen hsees
  exact ⟨token, by simp only [consume, Action.bind_apply, scanOr, htoken]; rfl⟩

/-- A commitment fails only where its kind does not stand behind the gap. -/
theorem consume_undone (htrip : parser.scanner.tripwire = none)
    (hlen : byteLength s.store.source < offsetLimit) {id : KindId}
    (h : (parser.consume id s : Run (Emission μ) ParserState ParseError Token).exit = .error e) :
    (parser.consume id s : Run (Emission μ) ParserState ParseError Token) =
      parser.refuse [id] s := by
  cases hsees : parser.scanner.lexicon.sees (parser.scanner.ahead s.store) id with
  | false => exact consume_unseen hlen hsees
  | true =>
    obtain ⟨token, htoken⟩ := consume_seen (μ := μ) htrip hlen hsees
    cases htoken.symm.trans h

/-- The end of the input is required in vain only in front of text that counts. -/
theorem expectEnd_early (hlen : byteLength s.store.source < offsetLimit)
    (h : (parser.expectEnd s : Run (Emission μ) ParserState ParseError Unit).exit = .error e) :
    (parser.expectEnd s : Run (Emission μ) ParserState ParseError Unit) =
      parser.refuse [KindId.eof] s := by
  rw [expectEnd, Action.bind_of_ok (scan_skip parser hlen),
    Action.bind_of_ok (Action.get_apply _)] at h ⊢
  rw [refuse, nextFound, bind_assoc, Action.bind_of_ok (scan_skip parser hlen)]
  cases hend : (parser.pastGap s).store.atEnd with
  | false => rfl
  | true =>
    rw [hend] at h
    cases h

/-- A choice faults, or it is made in the same state, or it is a refusal of all candidates. -/
theorem alternatives_cases (htrip : parser.scanner.tripwire = none)
    (hlen : byteLength s.store.source < offsetLimit) (lookahead : AlternativeLookahead) :
    let r : Run (Emission μ) ParserState ParseError Nat := parser.alternatives lookahead s
    let refused : Run (Emission μ) ParserState ParseError Nat := parser.refuse lookahead.expected s
    let seen (branch : Candidates) : Bool :=
      branch.kinds.any (parser.scanner.lexicon.sees (parser.scanner.ahead s.store))
    (∃ f, r.exit = .fault f) ∨
      (∃ branch, lookahead.branches.findIdx? seen = some branch ∧ r.exit = .ok branch ∧
        r.state = s) ∨
      lookahead.branches.findIdx? seen = none ∧ r.exit = refused.exit ∧
        r.state = refused.state := by
  intro r refused seen
  let probe : Run Event Store Empty (Option Nat) :=
    lookahead.matchingBranch parser.scanner s.store
  cases hexit : (lookahead.matchingBranch parser.scanner s.store :
      Run Event Store Empty (Option Nat)).exit with
  | error e => exact e.elim
  | fault f =>
    refine Or.inl ⟨f, ?_⟩
    simp only [r, alternatives, Action.bind_apply, scan, scanOr, hexit]
  | ok branch =>
    obtain ⟨hstate, hbranch⟩ := AlternativeLookahead.matchingBranch_of_ok htrip hlen hexit
    have hscan : (scan (lookahead.matchingBranch parser.scanner) : ParseAction μ (Option Nat)) s =
        ⟨.ok branch, s, probe.records.map .event⟩ := by
      rw [scan, scanOr, hexit, hstate]
    right
    cases branch with
    | some branch =>
      refine Or.inl ⟨branch, hbranch.symm, ?_, ?_⟩
      · simp only [r, alternatives, Action.bind_of_ok hscan, Action.pure_apply]
      · simp only [r, alternatives, Action.bind_of_ok hscan, Action.pure_apply]
    | none =>
      refine Or.inr ⟨hbranch.symm, ?_, ?_⟩
      · simp only [r, alternatives, Action.bind_of_ok hscan]
        rfl
      · simp only [r, alternatives, Action.bind_of_ok hscan]
        rfl

/-! ## What was announced is committed -/

/-- With this answer an action announces a kind: the kind is then committed, whichever rules are
opened in between. -/
def Announces (parser : Parser) (kind : KindId) (action : ParseAction μ α) (answer : α) : Prop :=
  ∀ (s s' : ParserState) (records : List (Emission μ)), byteLength s.store.source < offsetLimit →
    action s = ⟨.ok answer, s', records⟩ → ∀ rules,
      ∃ token, (parser.consume kind { s' with rules } :
        Run (Emission μ) ParserState ParseError Token).exit = .ok token

/-- A choice announces the kind that alone makes up the branch that is chosen. -/
theorem alternatives_announces (htrip : parser.scanner.tripwire = none)
    {lookahead : AlternativeLookahead} {branch : Nat} {kind : KindId}
    (hkind : lookahead.branches[branch]? = some ⟨[kind]⟩) :
    parser.Announces kind (parser.alternatives lookahead : ParseAction μ Nat) branch := by
  intro s s' records hlen h rules
  rcases alternatives_cases (μ := μ) htrip hlen lookahead with
    ⟨f, hfault⟩ | ⟨chosen, hfind, hchosen, hstate⟩ | ⟨-, hrefuse, -⟩
  · rw [h] at hfault
    cases hfault
  · rw [h] at hchosen hstate
    obtain rfl := Exit.ok.inj hchosen
    obtain rfl : s' = s := hstate
    obtain ⟨hlt, hany, -⟩ := List.findIdx?_eq_some_iff_getElem.1 hfind
    rw [List.getElem?_eq_getElem hlt, Option.some.injEq] at hkind
    rw [hkind, List.any_cons, List.any_nil, Bool.or_false] at hany
    exact consume_seen (s := { s' with rules }) htrip hlen hany
  · rw [h] at hrefuse
    exact absurd hrefuse.symm (refuse_ne_ok _ hlen branch)

/-- Where a single kind is looked for and comes next, it is announced. -/
theorem check_announces (htrip : parser.scanner.tripwire = none)
    {lookahead : OptionalLookahead} {kind : KindId} (hkind : lookahead.candidates = ⟨[kind]⟩) :
    parser.Announces kind (parser.check lookahead : ParseAction μ Bool) true := by
  intro s s' records hlen h rules
  rw [check, scan, scanOr] at h
  cases hholds : (lookahead.holds parser.scanner s.store : Run Event Store Empty Bool).exit with
  | error e => exact e.elim
  | fault f =>
    rw [hholds] at h
    cases h
  | ok b =>
    obtain ⟨hstore, hany⟩ := OptionalLookahead.holds_of_ok htrip hlen hholds
    rw [hholds, hstore] at h
    obtain ⟨hb, rfl, -⟩ := Run.mk.inj h
    rw [hkind, Exit.ok.inj hb, List.any_cons, List.any_nil, Bool.or_false] at hany
    exact consume_seen (s := { s with rules }) htrip hlen hany.symm

/-! ## Refusals are alike -/

/-- A run ended with a refusal. Only the offset has changed, by the gap that lay ahead; the error
tells what was expected, what stands behind the gap, and the innermost open rule. -/
structure Refused (parser : Parser) (s : ParserState) (expected : List KindId)
    (r : Run (Emission μ) ParserState ParseError α) : Prop where
  exit : r.exit = .error (parser.refusal s expected)
  state : r.state =
    { s with store.offset := s.store.offset + parser.scanner.gapLength s.store.remaining }

theorem Refused.of_refuse {expected : List KindId} {r : Run (Emission μ) ParserState ParseError α}
    (hlen : byteLength s.store.source < offsetLimit)
    (hexit : r.exit = (parser.refuse expected s : Run (Emission μ) ParserState ParseError α).exit)
    (hstate : r.state =
      (parser.refuse expected s : Run (Emission μ) ParserState ParseError α).state)
    (h : r.exit = .error e) : parser.Refused s expected r := by
  rw [hexit] at h
  have hrun := refuse_run (μ := μ) (α := α) expected hlen (limit_of_refuse hlen h)
  rw [hrun] at hexit hstate
  exact ⟨hexit, hstate⟩

theorem consume_refused (htrip : parser.scanner.tripwire = none)
    (hlen : byteLength s.store.source < offsetLimit) {id : KindId}
    (h : (parser.consume id s : Run (Emission μ) ParserState ParseError Token).exit = .error e) :
    parser.Refused s [id]
      (parser.consume id s : Run (Emission μ) ParserState ParseError Token) := by
  have hrefuse := consume_undone htrip hlen h
  exact .of_refuse hlen (congrArg _ hrefuse) (congrArg _ hrefuse) h

theorem expectEnd_refused (hlen : byteLength s.store.source < offsetLimit)
    (h : (parser.expectEnd s : Run (Emission μ) ParserState ParseError Unit).exit = .error e) :
    parser.Refused s [KindId.eof]
      (parser.expectEnd s : Run (Emission μ) ParserState ParseError Unit) := by
  have hrefuse := expectEnd_early hlen h
  exact .of_refuse hlen (congrArg _ hrefuse) (congrArg _ hrefuse) h

/-- Where a choice fails, it is refused, and so is each kind that it expects. -/
theorem alternatives_refused (htrip : parser.scanner.tripwire = none)
    (hlen : byteLength s.store.source < offsetLimit) {lookahead : AlternativeLookahead}
    (h : (parser.alternatives lookahead s : Run (Emission μ) ParserState ParseError Nat).exit =
      .error e) :
    parser.Refused s lookahead.expected
        (parser.alternatives lookahead s : Run (Emission μ) ParserState ParseError Nat) ∧
      ∀ id ∈ lookahead.expected, parser.Refused s [id]
        (parser.consume id s : Run (Emission μ) ParserState ParseError Token) := by
  rcases alternatives_cases (μ := μ) htrip hlen lookahead with
    ⟨f, hfault⟩ | ⟨branch, -, hchosen, -⟩ | ⟨hfind, hexit, hstate⟩
  · cases hfault.symm.trans h
  · cases hchosen.symm.trans h
  · refine ⟨.of_refuse hlen hexit hstate h, fun id hid => ?_⟩
    obtain ⟨branch, hbranch, hmem⟩ := AlternativeLookahead.mem_expected.1 hid
    have hnone := List.findIdx?_eq_none_iff.1 hfind branch hbranch
    have hsees := Bool.eq_false_iff.2 (List.any_eq_false.1 hnone id hmem)
    have hlimit := limit_of_refuse hlen (hexit.symm.trans h)
    rw [consume_unseen hlen hsees, refuse_run [id] hlen hlimit]
    exact ⟨rfl, rfl⟩

/-- All mismatches are alike. Whichever operation fails, and whatever it expects, it is a refusal of
the state that it started from. A choice expects the candidates of all its branches, each once and
in the order in which they occur first, and to commit any of them instead is refused as well. -/
theorem mismatches_agree (parser : Parser) (htrip : parser.scanner.tripwire = none)
    {s : ParserState} (hlen : byteLength s.store.source < offsetLimit) :
    let consume (id : KindId) : Run (Emission μ) ParserState ParseError Token := parser.consume id s
    let finish : Run (Emission μ) ParserState ParseError Unit := parser.expectEnd s
    let choose (lookahead : AlternativeLookahead) : Run (Emission μ) ParserState ParseError Nat :=
      parser.alternatives lookahead s
    (∀ id e, (consume id).exit = .error e → parser.Refused s [id] (consume id)) ∧
    (∀ e, finish.exit = .error e → parser.Refused s [KindId.eof] finish) ∧
    ∀ lookahead e, (choose lookahead).exit = .error e →
      let kinds := lookahead.branches.flatMap (·.kinds)
      parser.Refused s e.expected (choose lookahead) ∧
        e.expected.Pairwise (fun a b => kinds.idxOf a < kinds.idxOf b) ∧
        (∀ id, id ∈ e.expected ↔ ∃ branch ∈ lookahead.branches, id ∈ branch.kinds) ∧
        ∀ id ∈ e.expected, parser.Refused s [id] (consume id) := by
  intro consume finish choose
  refine ⟨fun id e h => consume_refused htrip hlen h, fun e h => expectEnd_refused hlen h, ?_⟩
  intro lookahead e h kinds
  obtain ⟨hchoose, hconsume⟩ := alternatives_refused htrip hlen h
  have hexpected : e.expected = lookahead.expected := by
    rw [Exit.error.inj (h.symm.trans hchoose.exit), refusal]
  rw [hexpected]
  exact ⟨hchoose, lookahead.pairwise_expected, fun id => AlternativeLookahead.mem_expected,
    hconsume⟩

/-- Behind an operand and a comment stands a character that begins no token. A sign, either sign and
the end of the input are refused alike there. -/
theorem mismatches_agree_currency :
    let parser : Parser := { scanner := { lexicon := Ecma.lexicon } }
    let s : ParserState := { store := ⟨"a /*é*/ €".toList, 1⟩, rules := ["Sum"], consumed := 1 }
    let finish : Run (Emission Empty) ParserState ParseError Unit := parser.expectEnd s
    let choose : Run (Emission Empty) ParserState ParseError Nat :=
      parser.alternatives Ecma.multiplicativeChoice s
    let consume : Run (Emission Empty) ParserState ParseError Token := parser.consume Ecma.slash s
    let behind : ParserState := { s with store.offset := 9 }
    let message (expected : String) : String :=
      "expected " ++ expected ++ ", found " ++ "`€`" ++ " while parsing Sum"
    let error (expected : List KindId) (name : String) : ParseError :=
      ⟨expected, ⟨KindId.error, ['€'], ⟨9, 12⟩⟩, some "Sum", message name⟩
    parser.scanner.tripwire = none ∧ byteLength s.store.source < offsetLimit ∧
      finish.exit = .error (error [KindId.eof] "end of input") ∧ finish.state = behind ∧
      choose.exit = .error (error [Ecma.star, Ecma.slash] "'*' or '/'") ∧ choose.state = behind ∧
      consume.exit = .error (error [Ecma.slash] "'/'") ∧ consume.state = behind := by
  intro parser s finish choose consume behind message error
  have hlen : byteLength s.store.source < offsetLimit := by decide
  have hbehind : ({ s with store.offset := s.store.offset +
      parser.scanner.gapLength s.store.remaining } : ParserState) = behind := by decide +kernel
  have hrefusal : parser.refusal s [Ecma.slash] = error [Ecma.slash] "'/'" := by decide +kernel
  have hfinish : finish.exit = .error (error [KindId.eof] "end of input") := by decide +kernel
  have hchoose : choose.exit = .error (error [Ecma.star, Ecma.slash] "'*' or '/'") := by
    decide +kernel
  obtain ⟨-, hfinished, hchosen⟩ := mismatches_agree (μ := Empty) parser rfl hlen
  obtain ⟨hchoose', -, -, hconsume⟩ := hchosen _ _ hchoose
  have hslash := hconsume Ecma.slash (by decide)
  exact ⟨rfl, hlen, hfinish, (hfinished _ hfinish).state.trans hbehind, hchoose,
    hchoose'.state.trans hbehind, hrefusal ▸ hslash.exit, hslash.state.trans hbehind⟩

end Parser

end PredictiveParsing
