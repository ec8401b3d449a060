import PredictiveParsing.Proofs.Ecma.Mirroring

/-!
# Trivia in front of a source

Trivia in front of a source only shifts what is parsed: every function of the grammar mirrors
itself behind trivia, so a source is accepted with the shifted program or rejected with the shifted
error, behind as many tokens.

* `mirrors_expression`, `mirrors_statement`, `mirrors_programParts`: the functions of the grammar.
* `parse_prepend`: whole parses.
-/

namespace PredictiveParsing.Ecma

open Text PredictiveParsing.Parser

variable {μ : Type} {parser : Parser} {w : Text}

/-! ## Shifted trees -/

theorem merge_shift (n : Nat) (s t : Span) :
    (s.shift n).merge (t.shift n) = (s.merge t).shift n := by
  simp [Span.merge, Span.shift, Nat.add_min_add_left, Nat.add_max_add_left]

theorem Expr.span_shift (n : Nat) (e : Expr) : (e.shift n).span = e.span.shift n := by
  cases e <;> rfl

theorem Statement.span_shift (n : Nat) (s : Statement) : (s.shift n).span = s.span.shift n := by
  cases s <;> rfl

/-- Operands that are shifted give the shifted chain. -/
theorem chain_shift (n : Nat) (first : Expr) (rest : List (BinaryOp × Expr)) :
    (first.shift n).chain (rest.map (Prod.map id (Expr.shift n))) = (first.chain rest).shift n := by
  induction rest generalizing first with
  | nil => rfl
  | cons link rest ih =>
    obtain ⟨op, operand⟩ := link
    have hfirst : Expr.binary op (first.shift n) (operand.shift n)
        ((first.shift n).span.merge (operand.shift n).span) =
        (Expr.binary op first operand (first.span.merge operand.span)).shift n := by
      rw [Expr.span_shift, Expr.span_shift, merge_shift, Expr.shift]
    simp only [Expr.chain, List.map_cons, List.foldl_cons, Prod.map_apply, id_eq, hfirst]
    exact ih _

/-- A program behind a text of the length: it still starts at the start of the source, and without
statements it also ends there. -/
def Program.shift (n : Nat) (p : Program) : Program :=
  ⟨p.body.map (Statement.shift n),
    ⟨p.span.start, if p.body.isEmpty then p.span.stop else n + p.span.stop⟩⟩

theorem programOf_shift (n : Nat) (body : List Statement) :
    (programOf 0 body).shift n = programOf 0 (body.map (Statement.shift n)) := by
  cases hlast : body.getLast? with
  | none =>
    rw [List.getLast?_eq_none_iff.1 hlast]
    rfl
  | some last =>
    have hne : body.isEmpty = false := by
      cases body with
      | nil => cases hlast
      | cons s body => rfl
    simp [programOf, Program.shift, hlast, hne, Statement.span_shift, Span.shift]

/-! ## The functions of the grammar -/

theorem mirrors_primary (hw : Ignores parser w) {nested nested' : ParseAction μ Expr}
    (hnested : Mirrors w (Expr.shift (byteLength w)) nested nested') :
    Mirrors w (Expr.shift (byteLength w)) (primary parser nested) (primary parser nested') := by
  unfold primary
  refine Mirrors.rule "Primary" ((mirrors_alternatives hw primaryChoice).bind fun branch => ?_)
  match branch with
  | 0 => exact (mirrors_consume hw numericLiteral).bind fun _ => mirrors_pure rfl
  | 1 => exact (mirrors_consume hw regexLiteral).bind fun _ => mirrors_pure rfl
  | 2 => exact (mirrors_consume hw identifier).bind fun _ => mirrors_pure rfl
  | _ + 3 =>
    refine (mirrors_consume hw leftParen).bind fun first => hnested.bind fun inner =>
      (mirrors_consume hw rightParen).bind fun last => mirrors_pure ?_
    exact congrArg (Expr.paren _) (merge_shift _ first.span last.span).symm

theorem mirrors_operator (hw : Ignores parser w) (choice : AlternativeLookahead)
    (first second : KindId × BinaryOp) :
    Mirrors w id (operator parser choice first second : ParseAction μ BinaryOp)
      (operator parser choice first second) := by
  unfold operator
  refine (mirrors_alternatives hw choice).bind fun branch => ?_
  exact (mirrors_consume hw _).bind fun _ => mirrors_pure rfl

theorem mirrors_chained (hw : Ignores parser w) (start : OptionalLookahead)
    {operator : ParseAction μ BinaryOp} {operand operand' : ParseAction μ Expr}
    (hoperator : Mirrors w id operator operator)
    (hoperand : Mirrors w (Expr.shift (byteLength w)) operand operand') :
    Mirrors w (Expr.shift (byteLength w)) (chained parser start operator operand)
      (chained parser start operator operand') := by
  have hround : Mirrors w (Prod.map id (Expr.shift (byteLength w)))
      (operator >>= fun op => operand >>= fun e => pure (op, e) : ParseAction μ (BinaryOp × Expr))
      (operator >>= fun op => operand' >>= fun e => pure (op, e)) :=
    hoperator.bind fun _ => hoperand.bind fun _ => mirrors_pure rfl
  unfold chained
  refine hoperand.bind fun first => (hround.many hw start).bind fun rest => mirrors_pure ?_
  exact (chain_shift _ first rest).symm

theorem mirrors_multiplicative (hw : Ignores parser w) {nested nested' : ParseAction μ Expr}
    (hnested : Mirrors w (Expr.shift (byteLength w)) nested nested') :
    Mirrors w (Expr.shift (byteLength w)) (multiplicative parser nested)
      (multiplicative parser nested') :=
  .rule "Multiplicative"
    (mirrors_chained hw _ (mirrors_operator hw _ _ _) (mirrors_primary hw hnested))

/-- Behind the text there is room for as many parentheses at least. -/
theorem mirrors_expression (hw : Ignores parser w) {depth depth' : Nat} (hdepth : depth ≤ depth') :
    Mirrors w (Expr.shift (byteLength w)) (expression parser depth : ParseAction μ Expr)
      (expression parser depth') := by
  induction depth generalizing depth' with
  | zero => exact mirrors_stop .endlessNesting _
  | succ depth ih =>
    obtain ⟨depth', rfl⟩ : ∃ n, depth' = n + 1 := ⟨depth' - 1, by omega⟩
    exact .rule "Expression" (mirrors_chained hw _ (mirrors_operator hw _ _ _)
      (mirrors_multiplicative hw (ih (Nat.le_of_succ_le_succ hdepth))))

theorem mirrors_return (hw : Ignores parser w) {depth depth' : Nat} (hdepth : depth ≤ depth') :
    Mirrors w (Statement.shift (byteLength w))
      (returnStatement parser depth : ParseAction μ Statement) (returnStatement parser depth') := by
  unfold returnStatement
  refine Mirrors.rule "ReturnStatement" ((mirrors_consume hw returnKeyword).bind fun keyword =>
    ((mirrors_expression hw hdepth).optional hw expressionStart).bind fun value =>
      (mirrors_consume hw semicolon).bind fun last => mirrors_pure ?_)
  exact congrArg (Statement.returned _) (merge_shift _ keyword.span last.span).symm

theorem mirrors_var (hw : Ignores parser w) {depth depth' : Nat} (hdepth : depth ≤ depth') :
    Mirrors w (Statement.shift (byteLength w))
      (varStatement parser depth : ParseAction μ Statement) (varStatement parser depth') := by
  have hinit : Mirrors w (Expr.shift (byteLength w))
      (parser.consume equals >>= fun _ => expression parser depth : ParseAction μ Expr)
      (parser.consume equals >>= fun _ => expression parser depth') :=
    (mirrors_consume hw equals).bind fun _ => mirrors_expression hw hdepth
  unfold varStatement
  refine Mirrors.rule "VarStatement" ((mirrors_consume hw varKeyword).bind fun keyword =>
    (mirrors_consume hw identifier).bind fun name =>
      (hinit.optional hw initializerStart).bind fun init =>
        (mirrors_consume hw semicolon).bind fun last => mirrors_pure ?_)
  exact congrArg (Statement.declared name.text _) (merge_shift _ keyword.span last.span).symm

theorem mirrors_evaluated (hw : Ignores parser w) {depth depth' : Nat} (hdepth : depth ≤ depth') :
    Mirrors w (Statement.shift (byteLength w))
      (expressionStatement parser depth : ParseAction μ Statement)
      (expressionStatement parser depth') := by
  unfold expressionStatement
  refine Mirrors.rule "ExpressionStatement" ((mirrors_expression hw hdepth).bind fun expr =>
    (mirrors_consume hw semicolon).bind fun last => mirrors_pure ?_)
  rw [Statement.shift, Expr.span_shift, ← merge_shift]
  rfl

theorem mirrors_statement (hw : Ignores parser w) {depth depth' : Nat} (hdepth : depth ≤ depth') :
    Mirrors w (Statement.shift (byteLength w)) (statement parser depth : ParseAction μ Statement)
      (statement parser depth') := by
  unfold statement
  refine Mirrors.rule "Statement" ((mirrors_alternatives hw statementChoice).bind fun branch => ?_)
  match branch with
  | 0 => exact mirrors_return hw hdepth
  | 1 => exact mirrors_var hw hdepth
  | _ + 2 => exact mirrors_evaluated hw hdepth

theorem mirrors_programParts (hw : Ignores parser w) (source : Text) :
    Mirrors w (Program.shift (byteLength w))
      (programParts parser ⟨[], source⟩ : ParseAction μ Program)
      (programParts parser ⟨[], w ++ source⟩) := by
  have hdepth : byteLength source + 1 ≤ byteLength (w ++ source) + 1 := by
    rw [byteLength_append]
    omega
  unfold programParts
  refine ((mirrors_statement hw hdepth).many hw statementStart).bind fun body =>
    (mirrors_expectEnd hw).bind fun _ => mirrors_pure ?_
  exact programOf_shift _ body

theorem mirrored_program (hw : Ignores parser w) {source : Text}
    (hlen : byteLength (w ++ source) < offsetLimit) :
    Mirrored w (Program.shift (byteLength w))
      ((program parser : ParseAction μ Program) (started source))
      ((program parser : ParseAction μ Program) (started (w ++ source))) := by
  rw [program_eq (p := ⟨[], source⟩) rfl, program_eq (p := ⟨[], w ++ source⟩) rfl]
  exact (mirrors_programParts hw source).rule "Program" ⟨[], source⟩ ⟨[], w ++ source⟩ _ _
    ⟨.front source, hlen, rfl, rfl, rfl, rfl, rfl⟩

/-! ## Whole parses -/

/-- What a parse gives behind a text of the length. -/
def shiftOutput (n : Nat) (output : ParseOutput Program) : ParseOutput Program :=
  ⟨output.value.map (Program.shift n), output.errors.map (ParseError.shift n)⟩

/-- Behind a text that is ignored, a source is parsed in any state as it is parsed alone. -/
theorem parseWith_prepend (hw : Ignores parser w) {source : Text}
    (hlen : byteLength (w ++ source) < offsetLimit) (s s' : ParserState) :
    let r : Run (Emission μ) ParserState ParseError (ParseOutput Program) :=
      parseWith parser source s
    let r' : Run (Emission μ) ParserState ParseError (ParseOutput Program) :=
      parseWith parser (w ++ source) s'
    ∃ output, r.exit = .ok output ∧ r'.exit = .ok (shiftOutput (byteLength w) output) ∧
      r'.state.consumed = r.state.consumed := by
  intro r r'
  have hlen' : byteLength source < offsetLimit := by
    rw [byteLength_append] at hlen
    omega
  have hmirrored := mirrored_program (μ := μ) hw hlen
  rcases hrun : (program parser : ParseAction μ Program) (started source) with ⟨exit, t, records⟩
  rcases hrun' : (program parser : ParseAction μ Program) (started (w ++ source)) with
    ⟨exit', t', records'⟩
  rw [hrun, hrun'] at hmirrored
  cases hmirrored with
  | ok v hend =>
    have hr : r = ⟨.ok ⟨some v, t.errors⟩, { t with errors := [] }, records⟩ :=
      run_of_ok hlen' hrun s
    have hr' : r' = ⟨.ok ⟨some (v.shift (byteLength w)), t'.errors⟩, { t' with errors := [] },
        records'⟩ := run_of_ok hlen hrun' s'
    rw [hr, hr', hend.errors]
    exact ⟨_, rfl, rfl, hend.consumed⟩
  | error e hend =>
    have hr : r = ⟨.ok ⟨none, t.errors ++ [e]⟩, { t with errors := [] }, records⟩ :=
      run_of_error hlen' hrun s
    have hr' : r' = ⟨.ok ⟨none, t'.errors ++ [e.shift (byteLength w)]⟩, { t' with errors := [] },
        records'⟩ := run_of_error hlen hrun' s'
    rw [hr, hr', hend.errors]
    exact ⟨_, rfl, by simp [shiftOutput], hend.consumed⟩
  | fault f _ =>
    -- No source that is short enough is parsed with a fault.
    have hr : r = ⟨.fault f, t, records⟩ := run_of_fault hlen' hrun s
    rcases parse_outcome (μ := μ) hw.standard hlen' s with
      ⟨tokens, q, body, records', -, hok, -⟩ | ⟨tokens, q, expected, active, records', -, hok, -⟩
    · cases hr.symm.trans hok
    · cases hr.symm.trans hok

/-- Trivia in front of a source only shifts what is parsed: the spans of the program and of its
parts, or that of what is found in its place. A program still starts at the start of the source, and
as many tokens are committed. -/
theorem parse_prepend {source : Text} (hw : Trivia w) (hlen : byteLength (w ++ source) < 2 ^ 32) :
    ∃ output, (parse source).exit = .ok output ∧
      (parse (w ++ source)).exit = .ok (shiftOutput (byteLength w) output) ∧
      (parse (w ++ source)).state.consumed = (parse source).state.consumed ∧
      ∀ program ∈ output.value, program.span.start = 0 := by
  obtain ⟨output, hexit, hexit', hconsumed⟩ :=
    parseWith_prepend (Ignores.of_trivia hw) hlen (ParserState.start []) (ParserState.start [])
  have hlen' : byteLength source < offsetLimit := by
    rw [byteLength_append] at hlen
    exact Nat.lt_of_le_of_lt (Nat.le_add_left _ _) hlen
  refine ⟨output, hexit, hexit', hconsumed, fun program hprogram => ?_⟩
  rcases parse_outcome (Standard.of_config {} .standard) hlen' (ParserState.start []) with
    ⟨tokens, q, body, records, -, hrun, -⟩ | ⟨tokens, q, expected, active, records, -, hrun, -⟩
  · rw [hrun] at hexit
    cases hexit
    cases hprogram
    rfl
  · rw [hrun] at hexit
    cases hexit
    cases hprogram

/-- Behind two comments, a statement and a parenthesis that is not closed. -/
theorem parse_prepend_comments :
    let w : Text := ['/', '*', '*', '/', ' ', '/', '/', '*', '\n']
    let named : Text := ['a', ';']
    let unclosed : Text := ['(', 'a']
    Trivia w ∧ byteLength (w ++ named) < 2 ^ 32 ∧ byteLength (w ++ unclosed) < 2 ^ 32 ∧
      (parse (w ++ named)).exit =
        .ok ⟨some ⟨[.evaluated (.ident ['a'] ⟨9, 10⟩) ⟨9, 11⟩], ⟨0, 11⟩⟩, []⟩ ∧
      (parse (w ++ unclosed)).exit =
        .ok ⟨none, [⟨[rightParen], ⟨.error, ['<', 'e', 'o', 'f', '>'], ⟨11, 11⟩⟩, some "Primary",
          "expected \x27)\x27, found end of input while parsing Primary"⟩]⟩ ∧
      (parse (w ++ unclosed)).state.consumed = 2 := by
  intro w named unclosed
  have hline : Trivia ['/', '/', '*', '\n'] := @Trivia.line ['*'] [] (by decide) .nil
  have hw : Trivia w := @Trivia.block [] _ (by simp) (.blank (c := ' ') (by decide) hline)
  have hshift : byteLength w = 9 := by decide
  have hlen : byteLength (w ++ named) < 2 ^ 32 := by decide
  have hlen' : byteLength (w ++ unclosed) < 2 ^ 32 := by decide
  have hnamed : (parse named).exit =
      .ok ⟨some ⟨[.evaluated (.ident ['a'] ⟨0, 1⟩) ⟨0, 2⟩], ⟨0, 2⟩⟩, []⟩ := by
    decide +kernel
  have hunclosed : (parse unclosed).exit =
      .ok ⟨none, [⟨[rightParen], ⟨.error, ['<', 'e', 'o', 'f', '>'], ⟨2, 2⟩⟩, some "Primary",
        "expected \x27)\x27, found end of input while parsing Primary"⟩]⟩ := by
    decide +kernel
  have hcount : (parse unclosed).state.consumed = 2 := by decide +kernel
  obtain ⟨output, hexit, hshifted, -, -⟩ := parse_prepend hw hlen
  obtain ⟨output', hexit', hshifted', hconsumed, -⟩ := parse_prepend hw hlen'
  obtain rfl := Exit.ok.inj (hexit.symm.trans hnamed)
  obtain rfl := Exit.ok.inj (hexit'.symm.trans hunclosed)
  rw [hshift] at hshifted hshifted'
  rw [hcount] at hconsumed
  exact ⟨hw, hlen, hlen', hshifted, hshifted', hconsumed⟩

end PredictiveParsing.Ecma
