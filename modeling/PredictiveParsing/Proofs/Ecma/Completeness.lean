import PredictiveParsing.Proofs.Ecma.Outcomes

/-!
# What is spelled is parsed

Where tokens that spell a tree can be read, the functions of the grammar give the tree back. Which
branch is taken is decided by the first token, and where a repetition ends by the token behind it.

* `expression_succeeds`, `statement_spelled`: by the depth of parentheses, by the form of the tree.
* `Accepted.parse`: a source that spells a program is parsed.
-/

namespace PredictiveParsing.Ecma

open Text PredictiveParsing.Parser Scanner

variable {μ : Type} {parser : Parser} {rules : List String} {p q : Place} {t : Token}
  {tokens a : List Token} {e : Expr}

/-! ## Expressions -/

theorem BinaryOp.rank_mem (op : BinaryOp) : 0 < op.rank ∧ op.rank ≤ 2 := by
  cases op <;> decide

theorem Expr.rank_le_two (e : Expr) : e.rank ≤ 2 := by
  cases e with
  | binary op left right span => exact op.rank_mem.2
  | number text span => exact Nat.zero_le 2
  | regex pattern flags span => exact Nat.zero_le 2
  | ident name span => exact Nat.zero_le 2
  | paren inner span => exact Nat.zero_le 2

theorem below_of_spells (hspells : e.Spells a) (hgrouped : e.Grouped) : e.Below 3 a :=
  ⟨hspells, hgrouped, Nat.lt_succ_of_le e.rank_le_two⟩

theorem primary_succeeds (hstd : Standard parser) {nested : ParseAction μ Expr}
    (hspells : e.Spells tokens) (hgrouped : e.Grouped) (hrank : e.rank < 1)
    (hreads : parser.scanner.Reads p tokens q)
    (hnested : ∀ (inner : Expr) (a : List Token) (p q : Place), inner.Spells a → inner.Grouped →
      parser.scanner.Reads p a q → Free parser 3 q → a.length < tokens.length →
      Succeeds parser ("Primary" :: rules) nested p a q inner) :
    Succeeds parser rules (primary parser nested) p tokens q e := by
  cases hspells with
  | number hkind => exact primary_number hstd hreads hkind
  | regex hkind htext hflags =>
    have hsucceeds : Succeeds parser rules (primary parser nested) p _ q _ :=
      primary_regex hstd hreads hkind
    rwa [htext, splitRegex_eq hflags] at hsucceeds
  | ident hkind => exact primary_ident hstd hreads hkind
  | @binary op _ _ _ _ _ _ _ _ =>
    have hpos := op.rank_mem.1
    exact absurd (Nat.lt_one_iff.1 hrank) (Nat.ne_of_gt hpos)
  | @paren inner a first last hfirst hinner hlast =>
    have hspan : first.span.merge last.span = cover (first :: (a ++ [last])) :=
      merge_ends hreads.sorted
    obtain ⟨p₁, hopen, hmore⟩ := Reads.split (a := [first]) hreads
    obtain ⟨p₂, hinside, hclose⟩ := hmore.split
    have hfree : Free parser 3 p₂ := free_of_reads hstd hclose fun o _ => by
      rw [kind_eq_of_word hlast]
      cases o <;> decide
    have hshort : a.length < (first :: (a ++ [last])).length := by
      rw [List.length_cons, List.length_append]
      omega
    rw [← hspan]
    exact primary_paren hstd hopen (kind_eq_of_word hfirst)
      (hnested inner a p₁ p₂ hinner hgrouped hinside hfree hshort) hclose (kind_eq_of_word hlast)

/-- An expression with fewer tokens than parentheses may be nested deep is parsed. -/
theorem expression_succeeds (hstd : Standard parser) {depth : Nat} (hspells : e.Spells tokens)
    (hgrouped : e.Grouped) (hreads : parser.scanner.Reads p tokens q) (hfree : Free parser 3 q)
    (hdepth : tokens.length < depth) :
    Succeeds parser rules (expression parser depth : ParseAction μ Expr) p tokens q e := by
  induction depth generalizing rules e tokens p q with
  | zero => exact absurd hdepth (Nat.not_lt_zero _)
  | succ depth ih =>
    have hfactor : ∀ (rules : List String) (e : Expr) (a : List Token) (p q : Place), e.Spells a →
        e.Grouped → e.rank < 1 → parser.scanner.Reads p a q → Free parser 1 q →
        a.length ≤ depth →
        Succeeds parser rules (primary parser (expression parser depth) : ParseAction μ Expr) p a q
          e := by
      intro rules e a p q hs hg hr hreads _ hlen
      apply primary_succeeds hstd hs hg hr hreads
      intro inner b p q hs hg hreads hfree hshort
      exact ih hs hg hreads hfree (by omega)
    have hterm : ∀ (e : Expr) (a : List Token) (p q : Place), e.Spells a → e.Grouped →
        e.rank < 2 → parser.scanner.Reads p a q → Free parser 2 q → a.length ≤ depth →
        Succeeds parser ("Expression" :: rules)
          (multiplicative parser (expression parser depth) : ParseAction μ Expr) p a q e := by
      intro e a p q hs hg hr hreads hfree hlen
      have hchained := chained_succeeds hstd operatorsOf_multiplicative Nat.zero_lt_one
        (hfactor ("Multiplicative" :: "Expression" :: rules)) hs hg (Nat.le_of_lt_succ hr) hreads
        hfree hlen
      exact hchained.rule "Multiplicative"
    have hchained := chained_succeeds hstd operatorsOf_additive Nat.zero_lt_two hterm hspells
      hgrouped e.rank_le_two hreads hfree (Nat.le_of_lt_succ hdepth)
    exact hchained.rule "Expression"

/-! ## Statements -/

section

variable {depth : Nat} {first last : Token}

theorem free_of_semicolon (hstd : Standard parser) (hlast : last.word = (semicolon, [';']))
    (h : parser.scanner.Reads p (last :: tokens) q) : Free parser 3 p :=
  free_of_reads hstd h fun o _ => by
    rw [kind_eq_of_word hlast]
    cases o <;> decide

/-- An expression begins where one of its first tokens is offered. -/
theorem any_operandKinds (hspells : e.Spells a) (hreads : parser.scanner.Reads p a q) :
    operandKinds.any (parser.scanner.offers p) = true := by
  obtain ⟨t, more, rfl⟩ := List.exists_cons_of_ne_nil hspells.ne_nil
  exact List.any_eq_true.2 ⟨t.kind, hspells.first_kind t rfl, hreads.offers⟩

/-- Where another token stands than one that begins an expression. -/
theorem any_operandKinds_eq_false (hstd : Standard parser)
    (hreads : parser.scanner.Reads p (t :: tokens) q)
    (hapart : ∀ id ∈ operandKinds, apart t.kind id = true) :
    operandKinds.any (parser.scanner.offers p) = false := by
  rw [List.any_eq_false]
  intro id hid
  rw [offers_eq_false hstd hreads (hapart id hid)]
  exact Bool.false_ne_true

theorem return_spelled (hstd : Standard parser) {value : Option Expr}
    (hfirst : first.word = (returnKeyword, "return".toList)) (hvalue : IsValue a value)
    (hlast : last.word = (semicolon, [';']))
    (hreads : parser.scanner.Reads p (first :: (a ++ [last])) q) (hdepth : a.length < depth) :
    Succeeds parser rules (returnStatement parser depth : ParseAction μ Statement) p
      (first :: (a ++ [last])) q (.returned value (cover (first :: (a ++ [last])))) := by
  have hspan : first.span.merge last.span = cover (first :: (a ++ [last])) :=
    merge_ends hreads.sorted
  obtain ⟨p₁, hkeyword, hmore⟩ := Reads.split (a := [first]) hreads
  obtain ⟨p₂, hinside, hend⟩ := hmore.split
  rw [← hspan]
  refine return_succeeds hstd hkeyword (kind_eq_of_word hfirst) ?_ hend (kind_eq_of_word hlast)
  rcases hvalue with ⟨rfl, rfl⟩ | ⟨e, rfl, he⟩
  · cases hinside
    have habsent : expressionStart.candidates.kinds.any (parser.scanner.offers p₁) = false :=
      any_operandKinds_eq_false hstd hend (by rw [kind_eq_of_word hlast]; decide)
    exact optional_absent hstd.tripwire_eq habsent _
  · have hpresent : expressionStart.candidates.kinds.any (parser.scanner.offers p₁) = true :=
      any_operandKinds he.spells hinside
    exact optional_present hstd.tripwire_eq hpresent (expression_succeeds hstd he.spells he.grouped
      hinside (free_of_semicolon hstd hlast hend) hdepth)

theorem var_spelled (hstd : Standard parser) {name : Token} {value : Option Expr}
    (hfirst : first.word = (varKeyword, "var".toList)) (hname : name.kind = identifier)
    (hvalue : IsInitializer a value) (hlast : last.word = (semicolon, [';']))
    (hreads : parser.scanner.Reads p (first :: name :: (a ++ [last])) q)
    (hdepth : a.length < depth) :
    Succeeds parser rules (varStatement parser depth : ParseAction μ Statement) p
      (first :: name :: (a ++ [last])) q
      (.declared name.text value (cover (first :: name :: (a ++ [last])))) := by
  have hspan : first.span.merge last.span = cover (first :: name :: (a ++ [last])) :=
    merge_ends (m := name :: a) hreads.sorted
  obtain ⟨p₁, hkeyword, hmore⟩ := Reads.split (a := [first]) hreads
  obtain ⟨p₂, hnamed, hmore⟩ := Reads.split (a := [name]) hmore
  obtain ⟨p₃, hinside, hend⟩ := hmore.split
  rw [← hspan]
  refine var_succeeds hstd hkeyword (kind_eq_of_word hfirst) hnamed hname ?_ hend
    (kind_eq_of_word hlast)
  rcases hvalue with ⟨rfl, rfl⟩ | ⟨e, sign, b, rfl, rfl, hsign, he⟩
  · cases hinside
    have hequals : parser.scanner.offers p₂ equals = false :=
      offers_eq_false hstd hend (by rw [kind_eq_of_word hlast]; decide)
    have habsent : initializerStart.candidates.kinds.any (parser.scanner.offers p₂) = false := by
      simp [initializerStart, hequals]
    exact optional_absent hstd.tripwire_eq habsent _
  · have hkind : sign.kind = equals := kind_eq_of_word hsign
    have hequals : parser.scanner.offers p₂ equals = true := hkind ▸ hinside.offers
    have hpresent : initializerStart.candidates.kinds.any (parser.scanner.offers p₂) = true := by
      simp [initializerStart, hequals]
    obtain ⟨p₄, hread, hvalue⟩ := Reads.split (a := [sign]) hinside
    rw [List.length_cons] at hdepth
    exact optional_present hstd.tripwire_eq hpresent ((consume_kind hstd hread hkind).bind
      (expression_succeeds hstd he.spells he.grouped hvalue (free_of_semicolon hstd hlast hend)
        (by omega)))

theorem evaluated_spelled (hstd : Standard parser) (he : e.Below 3 a)
    (hlast : last.word = (semicolon, [';'])) (hreads : parser.scanner.Reads p (a ++ [last]) q)
    (hdepth : a.length < depth) :
    Succeeds parser rules (expressionStatement parser depth : ParseAction μ Statement) p
      (a ++ [last]) q (.evaluated e (cover (a ++ [last]))) := by
  obtain ⟨p₁, hinside, hend⟩ := hreads.split
  rw [← he.spells.merge_last hreads.sorted]
  exact evaluated_succeeds hstd (expression_succeeds hstd he.spells he.grouped hinside
    (free_of_semicolon hstd hlast hend) hdepth) hend (kind_eq_of_word hlast)

/-- A statement that is spelled is parsed, and it is offered where its tokens begin. -/
theorem statement_spelled (hstd : Standard parser) {s : Statement} (hs : s.Stands tokens)
    (hreads : parser.scanner.Reads p tokens q) (hdepth : tokens.length < depth) :
    statementStart.candidates.kinds.any (parser.scanner.offers p) = true ∧
      Succeeds parser rules (statement parser depth : ParseAction μ Statement) p tokens q s := by
  have hkeyword : ∀ {t : Token} {more : List Token} {id : KindId}, t.kind = id →
      parser.scanner.Reads p (t :: more) q → id ∈ statementStart.candidates.kinds →
      statementStart.candidates.kinds.any (parser.scanner.offers p) = true := by
    intro t more id hkind hreads hmem
    exact List.any_eq_true.2 ⟨id, hmem, hkind ▸ hreads.offers⟩
  suffices hbody : statementStart.candidates.kinds.any (parser.scanner.offers p) = true ∧
      Succeeds parser ("Statement" :: rules)
        (statementOf parser depth (statementBranch parser p) : ParseAction μ Statement) p tokens q
        s from ⟨hbody.1, statement_succeeds hstd hbody.1 hbody.2⟩
  have hreturn : ∀ {t : Token} {more : List Token}, t.word = (returnKeyword, "return".toList) →
      parser.scanner.Reads p (t :: more) q →
      statementStart.candidates.kinds.any (parser.scanner.offers p) = true ∧
        statementBranch parser p = 0 := by
    intro t more hword hreads
    have hoffers := hreads.offers
    rw [kind_eq_of_word hword] at hoffers
    exact ⟨hkeyword (kind_eq_of_word hword) hreads (by decide), if_pos hoffers⟩
  have hvar : ∀ {t : Token} {more : List Token}, t.word = (varKeyword, "var".toList) →
      parser.scanner.Reads p (t :: more) q →
      statementStart.candidates.kinds.any (parser.scanner.offers p) = true ∧
        statementBranch parser p = 1 := by
    intro t more hword hreads
    have hoffers := hreads.offers
    have hother : parser.scanner.offers p returnKeyword = false :=
      offers_eq_false hstd hreads (by rw [kind_eq_of_word hword]; decide)
    rw [kind_eq_of_word hword] at hoffers
    refine ⟨hkeyword (kind_eq_of_word hword) hreads (by decide), ?_⟩
    rw [statementBranch, if_neg (by rw [hother]; decide), if_pos hoffers]
  obtain ⟨hspells, hgrouped, hproper⟩ := hs
  cases hspells with
  | @returned first last hfirst hlast =>
    obtain ⟨hany, hbranch⟩ := hreturn hfirst hreads
    rw [hbranch]
    exact ⟨hany, return_spelled (a := []) hstd hfirst (Or.inl ⟨rfl, rfl⟩) hlast hreads
      (Nat.zero_lt_of_lt hdepth)⟩
  | @returnedValue e a first last hfirst he hlast =>
    obtain ⟨hany, hbranch⟩ := hreturn hfirst hreads
    rw [List.length_cons, List.length_append] at hdepth
    rw [hbranch]
    have hvalue : IsValue a (some e) := Or.inr ⟨e, rfl, below_of_spells he (hgrouped e rfl)⟩
    exact ⟨hany, return_spelled hstd hfirst hvalue hlast hreads (by omega)⟩
  | @declared first name last hfirst hname hlast =>
    obtain ⟨hany, hbranch⟩ := hvar hfirst hreads
    rw [hbranch]
    exact ⟨hany, var_spelled (a := []) hstd hfirst hname (Or.inl ⟨rfl, rfl⟩) hlast hreads
      (Nat.zero_lt_of_lt hdepth)⟩
  | @declaredInit e a first name sign last hfirst hname hsign he hlast =>
    obtain ⟨hany, hbranch⟩ := hvar hfirst hreads
    have hvalue : IsInitializer (sign :: a) (some e) :=
      Or.inr ⟨e, sign, a, rfl, rfl, hsign, below_of_spells he (hgrouped e rfl)⟩
    simp only [List.length_cons, List.length_append] at hdepth
    rw [hbranch]
    exact ⟨hany, var_spelled (a := sign :: a) hstd hfirst hname hvalue hlast hreads
      (by rw [List.length_cons]; omega)⟩
  | @evaluated e a last he hlast =>
    obtain ⟨t, more, rfl⟩ := List.exists_cons_of_ne_nil he.ne_nil
    have hkind : t.kind ∈ operandKinds := he.first_kind t rfl
    obtain ⟨hnotReturn, hnotVar⟩ := hproper t.word (by rw [← he.map_word]; rfl)
    have hbranch : statementBranch parser p = 2 := by
      rw [statementBranch, if_neg (mt (offers_return_iff hstd hreads hkind).1 hnotReturn),
        if_neg (mt (offers_var_iff hstd hreads hkind).1 hnotVar)]
    rw [List.length_append] at hdepth
    rw [hbranch]
    exact ⟨hkeyword rfl hreads (List.mem_cons_of_mem _ (List.mem_cons_of_mem _ hkind)),
      evaluated_spelled hstd (below_of_spells he hgrouped) hlast hreads (by omega)⟩

end

/-! ## Programs -/

/-- Statements that are spelled are the rounds of the repetition of a program. -/
theorem repeats_statements (hstd : Standard parser) {body : List Statement} {depth : Nat}
    (hspells : SpellsAll body tokens) (hstands : ∀ s ∈ body, s.Grouped ∧ s.Proper)
    (hreads : parser.scanner.Reads p tokens q) (hdepth : tokens.length < depth) :
    ∃ items : List (List Token × Statement),
      Repeats parser rules statementStart (statement parser depth : ParseAction μ Statement) p
        items q ∧
      items.flatMap Prod.fst = tokens ∧ items.map Prod.snd = body := by
  induction hspells generalizing p with
  | nil =>
    cases hreads
    exact ⟨[], .nil, rfl, rfl⟩
  | @cons s body a b hs _ ih =>
    obtain ⟨p₁, hfirst, hmore⟩ := hreads.split
    rw [List.length_append] at hdepth
    have hhead := hstands s List.mem_cons_self
    obtain ⟨items, hitems, rfl, rfl⟩ :=
      ih (fun s' hs' => hstands s' (List.mem_cons_of_mem s hs')) hmore (by omega)
    obtain ⟨hany, hround⟩ : statementStart.candidates.kinds.any (parser.scanner.offers p) = true ∧
        Succeeds parser rules (statement parser depth : ParseAction μ Statement) p a p₁ s :=
      statement_spelled hstd ⟨hs, hhead.1, hhead.2⟩ hfirst (by omega)
    exact ⟨(a, s) :: items, .cons hany hround hs.ne_nil hitems, rfl, rfl⟩

/-- A source whose tokens spell a program is parsed. -/
theorem Accepted.parse (hstd : Standard parser) {source : Text} {body : List Statement}
    (h : Accepted parser source tokens q body) (hlen : byteLength source < offsetLimit)
    (s : ParserState) :
    ∃ records, (parseWith parser source : ParseAction μ (ParseOutput Program)) s =
        ⟨.ok ⟨some (programOf 0 body), []⟩,
          advanced (started source) tokens (parser.scanner.behind q), records⟩ ∧
      commits records = parser.named tokens := by
  have hshort : tokens.length < byteLength (⟨[], source⟩ : Place).source + 1 := by
    have hle := h.reads.length_le
    show tokens.length < byteLength source + 1
    simp only at hle
    omega
  obtain ⟨items, hrepeats, htokens, hbody⟩ :=
    repeats_statements (μ := μ) hstd h.spells h.stands h.reads hshort
  have hlast : statementStart.candidates.kinds.any (parser.scanner.offers q) = false := by
    rw [List.any_eq_false]
    intro id _
    rw [offers_eq_false_of_end h.rest]
    exact Bool.false_ne_true
  have hstatements : Succeeds parser ["Program"]
      (statements parser ⟨[], source⟩ : ParseAction μ (List Statement)) ⟨[], source⟩ tokens q
      body := by
    rw [← htokens, ← hbody]
    exact many_succeeds hstd.tripwire_eq hrepeats hlast
  obtain ⟨records, hrun, hcommits⟩ :=
    program_ends hstatements h.rest hlen (s := started source) rfl rfl
  exact ⟨records, run_of_ok hlen hrun s, hcommits⟩

end PredictiveParsing.Ecma
