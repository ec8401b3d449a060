import PredictiveParsing.Proofs.Ecma.Completeness
import PredictiveParsing.Proofs.Ecma.Composing
import PredictiveParsing.Proofs.Parse.Mismatching
import PredictiveParsing.Proofs.Parse.Revealing
import PredictiveParsing.Proofs.Scan.Safety

/-!
# What the errors of a parse say

The rules of the grammar decide by lookaheads and then commit what was announced. Only in a few
places something is required that was not announced, and only there a parse can fail.

* `parse_reveals`: the mismatch with which a parse ends is the only one.
* `missing_occurs`: whatever a rule can miss is missing in some source.
* `parse_error_shapes`: the rules and expected kinds of all errors.
-/

namespace PredictiveParsing

variable {μ : Type}

namespace Ecma

open Text PredictiveParsing.Parser Scanner

variable {parser : Parser}

/-! ## The errors of whole parses -/

/-- What is expected and in which rule, for each error of a parse. -/
def errorShapes (r : Run (Emission μ) ParserState ParseError (ParseOutput Program)) :
    List (Option String × List KindId) :=
  match r.exit with
  | .ok output => output.errors.map fun e => (e.rule, e.expected)
  | _ => []

/-- Where only the end of the input is expected, text is left that counts. -/
theorem Rejected.rest_ne_nil (hstd : Standard parser) {source : Text}
    (hlen : byteLength source < offsetLimit) {tokens : List Token} {q : Place}
    {active : Option String} (h : Rejected parser source tokens q [KindId.eof] active)
    {s s' : ParserState} {records : List (Emission μ)} {errors : List ParseError}
    (hrun : parseWith parser source s = ⟨.ok ⟨none, errors⟩, s', records⟩) :
    (parser.scanner.behind q).rest ≠ [] := by
  intro hend
  rcases h.completes with ⟨-, body, hspells, hstands⟩ | hcompletes
  · have haccepted : Accepted parser source tokens q body := ⟨h.reads, hend, hspells, hstands⟩
    obtain ⟨records', haccept, -⟩ := haccepted.parse (μ := μ) hstd hlen s
    obtain ⟨hexit, -, -⟩ := Run.mk.inj (haccept.symm.trans hrun)
    cases (ParseOutput.mk.inj (Exit.ok.inj hexit)).1
  · obtain ⟨word, hword, heof, -⟩ := hcompletes KindId.eof List.mem_cons_self
    have hnone : ∀ word ∈ samples, word.1 ≠ KindId.eof := by decide
    exact absurd heof (hnone word hword)

/-- A parse reveals its error. -/
theorem parse_reveals (hstd : Standard parser) {source : Text}
    (hlen : byteLength source < offsetLimit) (s : ParserState) :
    ∃ output s' records,
      (parseWith parser source : ParseAction μ (ParseOutput Program)) s =
        ⟨.ok output, s', records⟩ ∧
      notices records = output.errors.map ParseError.notice := by
  have hprogram := program_carried (μ := μ) (carries_reveals parser) (.consume parser)
    (started source)
  rcases program_parses (μ := μ) hstd source with
    ⟨tokens, q, body, haccepted, hbody⟩ | ⟨tokens, q, expected, active, -, hfails⟩
  · obtain ⟨records, hrun, -⟩ :=
      program_ends hbody haccepted.rest hlen (s := started source) rfl rfl
    rw [hrun] at hprogram
    exact ⟨_, _, records, run_of_ok hlen hrun s, hprogram⟩
  · obtain ⟨records, hrun, -⟩ := hfails.run hlen (started source) rfl rfl
    rw [hrun] at hprogram
    exact ⟨_, _, records, run_of_error hlen hrun s, hprogram⟩

/-- Whatever a rule can miss is missing somewhere. -/
theorem missing_occurs : ∀ shape ∈ missing, ∃ source, errorShapes (parse source) = [shape] := by
  have hoperand : errorShapes (parse "1+".toList) = [(some "Primary", operandKinds)] := by
    decide +kernel
  have hparen : errorShapes (parse "(a".toList) = [(some "Primary", [rightParen])] := by
    decide +kernel
  have hreturn : errorShapes (parse "return".toList) = [(some "ReturnStatement", [semicolon])] := by
    decide +kernel
  have hname : errorShapes (parse "var".toList) = [(some "VarStatement", [identifier])] := by
    decide +kernel
  have hvar : errorShapes (parse "var a".toList) = [(some "VarStatement", [semicolon])] := by
    decide +kernel
  have hexpr : errorShapes (parse "a".toList) = [(some "ExpressionStatement", [semicolon])] := by
    decide +kernel
  have hend : errorShapes (parse ")".toList) = [(some "Program", [KindId.eof])] := by
    decide +kernel
  simp only [missing, List.forall_mem_cons]
  exact ⟨⟨_, hoperand⟩, ⟨_, hparen⟩, ⟨_, hreturn⟩, ⟨_, hname⟩, ⟨_, hvar⟩, ⟨_, hexpr⟩, ⟨_, hend⟩,
    fun _ h => absurd h List.not_mem_nil⟩

/-- What a rejected source is reported to miss. -/
theorem Rejected.error_shape (hstd : Standard parser) {source : Text}
    (hlen : byteLength source < offsetLimit) {tokens : List Token} {q : Place}
    {expected : List KindId} {active : Option String}
    (h : Rejected parser source tokens q expected active) {s s' : ParserState}
    {records : List (Emission μ)} {errors : List ParseError}
    (hrun : parseWith parser source s = ⟨.ok ⟨none, errors⟩, s', records⟩) :
    let e := parser.errorAt expected active (parser.scanner.behind q)
    (e.rule, e.expected) ∈ missing ∧
      (e.expected = [KindId.eof] → e.isUnexpectedEnd = false) ∧
      ∀ rule ∈ e.rule, rule ∉ ["Statement", "Expression", "Multiplicative"] := by
  have hrules : ∀ shape ∈ missing, ∀ rule ∈ shape.1,
      rule ∉ ["Statement", "Expression", "Multiplicative"] := by decide
  refine ⟨h.mem_missing, fun heof => ?_, hrules _ h.mem_missing⟩
  have hexpected : expected = [KindId.eof] := heof
  subst hexpected
  have hrest := h.rest_ne_nil hstd hlen hrun
  show (parser.scanner.foundOf _ _).isEndOfInput = false
  rw [isEndOfInput_foundOf, List.isEmpty_eq_false_iff]
  exact hrest

/-- The error of a parse says that one of a few things is missing in its rule, and each of these is
missing in some parse. Where nothing but the end of the input is expected, something else was found.
No other mismatch is reported on the way. A kind that a lookahead announced alone is committed. -/
theorem parse_error_shapes :
    (∀ (config : ScanConfig) (messages : MessageBuilder) (source : Text) (s s' : ParserState)
        (output : ParseOutput Program) (records : List (Emission μ)),
      parseWith (Ecma.parser config messages) source s = ⟨.ok output, s', records⟩ →
        notices records = output.errors.map ParseError.notice ∧ output.errors.length ≤ 1 ∧
        ∀ e ∈ output.errors, (e.rule, e.expected) ∈ missing ∧
          (e.expected = [KindId.eof] → e.isUnexpectedEnd = false) ∧
          ∀ rule ∈ e.rule, rule ∉ ["Statement", "Expression", "Multiplicative"]) ∧
    (∀ shape ∈ missing, ∃ source, errorShapes (parse source) = [shape]) ∧
    ∀ (config : ScanConfig) (messages : MessageBuilder) (kind : KindId),
      let parser := Ecma.parser config messages
      (∀ (choice : AlternativeLookahead) (branch : Nat), choice.branches[branch]? = some ⟨[kind]⟩ →
        parser.Announces kind (parser.alternatives choice : ParseAction μ Nat) branch) ∧
      ∀ (start : OptionalLookahead), start.candidates = ⟨[kind]⟩ →
        parser.Announces kind (parser.check start : ParseAction μ Bool) true := by
  refine ⟨fun config messages source s s' output records h => ?_, missing_occurs, ?_⟩
  · have hstd := Standard.of_config config messages
    by_cases hlen : byteLength source < offsetLimit
    · obtain ⟨output', s'', records', hrun, hnotices⟩ := parse_reveals (μ := μ) hstd hlen s
      obtain ⟨hexit, -, hrecords⟩ := Run.mk.inj (h.symm.trans hrun)
      obtain rfl := Exit.ok.inj hexit
      subst hrecords
      refine ⟨hnotices, ?_⟩
      rcases parse_outcome (μ := μ) hstd hlen s with
        ⟨tokens, q, body, _, -, houtcome, -⟩ |
          ⟨tokens, q, expected, active, _, hrejected, houtcome, -⟩
      · obtain ⟨hexit, -, -⟩ := Run.mk.inj (h.symm.trans houtcome)
        obtain rfl := Exit.ok.inj hexit
        exact ⟨Nat.zero_le 1, fun e he => absurd he List.not_mem_nil⟩
      · obtain ⟨hexit, -, -⟩ := Run.mk.inj (h.symm.trans houtcome)
        obtain rfl := Exit.ok.inj hexit
        refine ⟨Nat.le_refl 1, List.forall_mem_singleton.2 ?_⟩
        exact hrejected.error_shape hstd hlen houtcome
    · rw [parseWith, run_eq_of_long hlen s] at h
      cases (Run.mk.inj h).1
  · intro config messages kind parser
    exact ⟨fun choice branch hkind => alternatives_announces rfl hkind,
      fun start hkind => check_announces rfl hkind⟩

/-- Behind a sign of addition, which is announced and committed, the input ends and an operand is
missing. -/
theorem parse_error_shapes_operand :
    let r := parse "1 + ".toList
    let e : ParseError := ⟨operandKinds, ⟨KindId.error, "<eof>".toList, ⟨4, 4⟩⟩, some "Primary",
      "expected one of NumericLiteral, RegularExpressionLiteral, Identifier, '(', " ++
        "found end of input while parsing Primary"⟩
    let s : ParserState := { store := ⟨"1 + ".toList, 1⟩, rules := ["Expression"], consumed := 1 }
    let choice : Run (Emission Empty) ParserState ParseError Nat :=
      Ecma.parser.alternatives additiveChoice s
    let sign : Run (Emission Empty) ParserState ParseError Token :=
      Ecma.parser.consume plus { choice.state with rules := s.rules }
    r.exit = .ok ⟨none, [e]⟩ ∧ notices r.records = [e.notice] ∧ (e.rule, e.expected) ∈ missing ∧
      choice.exit = .ok 0 ∧ ∃ token, sign.exit = .ok token := by
  intro r e s choice sign
  have hexit : r.exit = .ok ⟨none, [e]⟩ := by decide +kernel
  have hlen : byteLength s.store.source < offsetLimit := by decide
  have hchoice : choice.exit = .ok 0 := by decide +kernel
  obtain ⟨hshapes, -, hannounces⟩ := parse_error_shapes
  obtain ⟨hnotices, -, hshape⟩ := hshapes _ _ _ _ _ _ _ (Run.eq_of_exit hexit)
  have hplus := (hannounces {} .standard plus).1 additiveChoice 0 rfl
  have hsign := hplus s choice.state choice.records hlen (Run.eq_of_exit hchoice) s.rules
  exact ⟨hexit, hnotices, (hshape e List.mem_cons_self).1, hchoice, hsign⟩

end Ecma

end PredictiveParsing
