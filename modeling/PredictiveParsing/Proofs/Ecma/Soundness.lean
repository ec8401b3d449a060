import PredictiveParsing.Proofs.Ecma.Productions

/-!
# What the parser does with a source

Each function of the grammar either gives a tree that is spelled by the tokens committed, or stops
where a token is missing. There the tokens committed so far can still be completed: whichever kind
is expected, some words that begin with a word of it spell a tree together with them.

* `expression_parses`, `statement_parses`, `statements_parse`: the functions of the grammar, each by
  the productions and the functions that it calls.
-/

namespace PredictiveParsing.Ecma

open Text PredictiveParsing.Parser Scanner

/-! ## Completing tokens -/

/-- A word of each kind that is ever expected. -/
def samples : List (KindId × Text) :=
  [(numericLiteral, ['1']), (regexLiteral, ['/', 'a', '/']), (identifier, ['a']),
   (leftParen, ['(']), (rightParen, [')']), (semicolon, [';'])]

/-- The words of one character with which what was begun is ended. -/
def fillers : List (KindId × Text) :=
  [(numericLiteral, ['1']), (rightParen, [')']), (semicolon, [';'])]

/-- Whichever kind is expected, a sample word of that kind and some fillers behind it complete the
given tokens. There are hardly more fillers than tokens. -/
def Completes (slack : Nat) (P : List Token → Prop) (tokens : List Token)
    (expected : List KindId) : Prop :=
  ∀ id ∈ expected, ∃ word ∈ samples, word.1 = id ∧ ∃ more, more ⊆ fillers ∧
    more.length ≤ tokens.length + slack ∧
      ∀ next : List Token, next.map Token.word = word :: more → Sorted (tokens ++ next) →
        P (tokens ++ next)

/-- Tokens before and fillers behind can be added on both sides. -/
theorem Completes.extend {m n : Nat} {P Q : List Token → Prop} {a : List Token}
    {expected : List KindId} (h : Completes n P a expected) (pre : List Token)
    {suffix : List (KindId × Text)} (hsuffix : suffix ⊆ fillers)
    (hlen : suffix.length + n ≤ pre.length + m)
    (hPQ : ∀ next last : List Token, (∀ t ∈ next.head?, t.word ∈ samples) → next ≠ [] →
      last.map Token.word = suffix → Sorted (pre ++ (a ++ next ++ last)) → P (a ++ next) →
        Q (pre ++ (a ++ next ++ last))) :
    Completes m Q (pre ++ a) expected := by
  intro id hid
  obtain ⟨word, hword, rfl, more, hmore, hfew, hP⟩ := h id hid
  refine ⟨word, hword, rfl, more ++ suffix, List.append_subset.2 ⟨hmore, hsuffix⟩, ?_, ?_⟩
  · rw [List.length_append, List.length_append]
    omega
  intro all hall hsorted
  rw [← List.cons_append] at hall
  obtain ⟨next, last, rfl, hnext, hlast⟩ := List.map_eq_append_iff.1 hall
  have htokens : pre ++ a ++ (next ++ last) = pre ++ (a ++ next ++ last) := by simp
  rw [htokens] at hsorted ⊢
  have hinner : Sorted (a ++ next) :=
    (List.pairwise_append.1 (List.pairwise_append.1 hsorted).2.1).1
  refine hPQ next last ?_ ?_ hlast hsorted (hP next hnext hinner)
  · intro t ht
    obtain ⟨u, rest, rfl, hu, -⟩ := List.map_eq_cons_iff.1 hnext
    rw [List.head?_cons, Option.mem_some_iff] at ht
    rw [← ht, hu]
    exact hword
  · rintro rfl
    cases hnext

theorem Completes.mono {n : Nat} {P Q : List Token → Prop} {tokens : List Token}
    {expected : List KindId} (h : Completes n P tokens expected) (hPQ : ∀ all, P all → Q all) :
    Completes n Q tokens expected := by
  intro id hid
  obtain ⟨word, hword, hkind, more, hmore, hfew, hP⟩ := h id hid
  exact ⟨word, hword, hkind, more, hmore, hfew, fun next hnext hs => hPQ _ (hP next hnext hs)⟩

/-- One sample word is enough. -/
theorem completes_singleton {n : Nat} {P : List Token → Prop} {tokens : List Token} {id : KindId}
    (text : Text) (hmem : (id, text) ∈ samples)
    (h : ∀ t : Token, t.word = (id, text) → Sorted (tokens ++ [t]) → P (tokens ++ [t])) :
    Completes n P tokens [id] := by
  intro id' hid
  rw [List.mem_singleton.1 hid]
  refine ⟨(id, text), hmem, rfl, [], List.nil_subset _, Nat.zero_le _, ?_⟩
  intro next hnext hsorted
  obtain ⟨t, rfl, ht⟩ := List.map_eq_singleton_iff.1 hnext
  exact h t ht hsorted

/-! ## Where a parse can stop -/

/-- The rules with what they can miss. -/
def missing : List (Option String × List KindId) :=
  [(some "Primary", operandKinds), (some "Primary", [rightParen]),
   (some "ReturnStatement", [semicolon]), (some "VarStatement", [identifier]),
   (some "VarStatement", [semicolon]), (some "ExpressionStatement", [semicolon]),
   (some "Program", [KindId.eof])]

/-- A parse stops inside a rule that can miss what is expected, and the tokens can be completed. -/
def Stuck (slack : Nat) (P : List Token → Prop) (tokens : List Token) (expected : List KindId)
    (active : Option String) : Prop :=
  (active, expected) ∈ missing ∧ Completes slack P tokens expected

variable {μ : Type} {parser : Parser} {rules : List String} {p q : Place}

/-! ## Operands -/

/-- An expression of a rank below the given one is spelled by tokens. -/
structure Expr.Below (rank : Nat) (tokens : List Token) (e : Expr) : Prop where
  spells : e.Spells tokens
  grouped : e.Grouped
  lower : e.rank < rank

/-- Tokens spell an expression of a rank below the given one. -/
def SpellsBelow (rank : Nat) (tokens : List Token) : Prop := ∃ e : Expr, e.Below rank tokens

theorem spells_number {t : Token} (h : t.kind = numericLiteral) : SpellsBelow 1 [t] :=
  ⟨_, .number h, trivial, Nat.zero_lt_one⟩

theorem spells_ident {t : Token} (h : t.kind = identifier) : SpellsBelow 1 [t] :=
  ⟨_, .ident h, trivial, Nat.zero_lt_one⟩

theorem spells_paren {inner : Expr} {a : List Token} {first last : Token}
    (hfirst : first.word = (leftParen, ['('])) (hinner : inner.Below 3 a)
    (hlast : last.word = (rightParen, [')'])) : SpellsBelow 1 (first :: (a ++ [last])) :=
  ⟨_, .paren hfirst hinner.spells hlast, hinner.grouped, Nat.zero_lt_one⟩

/-- Where an operand is missing, every kind that begins one leads on. -/
theorem operand_completes : Completes 2 (SpellsBelow 1) [] operandKinds := by
  have hnumber : Completes 2 (SpellsBelow 1) [] [numericLiteral] :=
    completes_singleton ['1'] (by decide) fun t ht _ => spells_number (kind_eq_of_word ht)
  have hregex : Completes 2 (SpellsBelow 1) [] [regexLiteral] := by
    refine completes_singleton ['/', 'a', '/'] (by decide) fun t ht _ => ?_
    have htext : t.text = '/' :: (['a'] ++ '/' :: []) := congrArg Prod.snd ht
    exact ⟨_, .regex (kind_eq_of_word ht) htext List.not_mem_nil, trivial, Nat.zero_lt_one⟩
  have hident : Completes 2 (SpellsBelow 1) [] [identifier] :=
    completes_singleton ['a'] (by decide) fun t ht _ => spells_ident (kind_eq_of_word ht)
  have hparen : Completes 2 (SpellsBelow 1) [] [leftParen] := by
    intro id hid
    rw [List.mem_singleton.1 hid]
    refine ⟨(leftParen, ['(']), by decide, rfl, [(numericLiteral, ['1']), (rightParen, [')'])],
      by decide, by decide, ?_⟩
    intro next hnext _
    obtain ⟨first, rest, rfl, hfirst, hrest⟩ := List.map_eq_cons_iff.1 hnext
    obtain ⟨t, rest, rfl, ht, hrest⟩ := List.map_eq_cons_iff.1 hrest
    obtain ⟨last, rfl, hlast⟩ := List.map_eq_singleton_iff.1 hrest
    exact spells_paren (a := [t]) hfirst ⟨.number (kind_eq_of_word ht), trivial, Nat.zero_lt_succ 2⟩
      hlast
  intro id hid
  simp only [operandKinds, List.mem_cons, List.not_mem_nil, or_false] at hid
  rcases hid with rfl | rfl | rfl | rfl
  · exact hnumber _ (List.mem_singleton_self _)
  · exact hregex _ (List.mem_singleton_self _)
  · exact hident _ (List.mem_singleton_self _)
  · exact hparen _ (List.mem_singleton_self _)

section

variable {nested : ParseAction μ Expr}

/-- Between parentheses an expression is parsed, or it is stuck, or it is not closed. -/
theorem paren_parses (hstd : Standard parser)
    (hparen : parser.scanner.offers p leftParen = true)
    (hnested : ∀ p' : Place, byteLength p'.rest < byteLength p.rest →
      Parses parser ("Primary" :: rules) nested p' (Expr.Below 3) (Stuck 2 (SpellsBelow 3))) :
    Parses parser rules (primary parser nested) p (Expr.Below 1) (Stuck 2 (SpellsBelow 1)) := by
  obtain ⟨first, p₁, hleft, hfirst⟩ := exists_reads_of_offers hparen
  have hopen : first.word = (leftParen, ['(']) := word_eq_of_sign hstd hfirst hleft rfl
  have hlen := hfirst.length_le
  rw [List.length_singleton] at hlen
  rcases hnested p₁ (by omega) with
    ⟨a, p₂, inner, hinner, htree⟩ | ⟨a, q, expected, active, hfails, hmem, hcompletes⟩
  · by_cases hclose : parser.scanner.offers p₂ rightParen = true
    · obtain ⟨last, q, hright, hlast⟩ := exists_reads_of_offers hclose
      have hclosed : last.word = (rightParen, [')']) := word_eq_of_sign hstd hlast hright rfl
      have hsucceeds := primary_paren hstd hfirst hleft hinner hlast hright
      have hspan : first.span.merge last.span = cover (first :: (a ++ [last])) :=
        merge_ends hsucceeds.reads.sorted
      rw [hspan] at hsucceeds
      exact Or.inl ⟨_, q, _, hsucceeds, .paren hopen htree.spells hclosed, htree.grouped,
        Nat.zero_lt_one⟩
    · refine Or.inr ⟨_, p₂, _, _, primary_unclosed hstd hfirst hleft hinner
        (Bool.eq_false_iff.2 hclose), by decide, ?_⟩
      exact completes_singleton [')'] (by decide) fun t ht _ =>
        spells_paren hopen htree ht
  · refine Or.inr ⟨_, q, expected, active, primary_nested_fails hstd hfirst hleft hfails, hmem,
      ?_⟩
    have hsuffix : [(rightParen, [')'])] ⊆ fillers := by decide
    apply hcompletes.extend [first] hsuffix (by simp)
    rintro next last - - hlast - ⟨inner, htree⟩
    obtain ⟨t, rfl, ht⟩ := List.map_eq_singleton_iff.1 hlast
    exact spells_paren hopen htree ht

theorem primary_parses (hstd : Standard parser)
    (hnested : ∀ p' : Place, byteLength p'.rest < byteLength p.rest →
      Parses parser ("Primary" :: rules) nested p' (Expr.Below 3) (Stuck 2 (SpellsBelow 3))) :
    Parses parser rules (primary parser nested) p (Expr.Below 1) (Stuck 2 (SpellsBelow 1)) := by
  by_cases hnumber : parser.scanner.offers p numericLiteral = true
  · obtain ⟨t, q, hkind, hreads⟩ := exists_reads_of_offers hnumber
    exact Or.inl ⟨[t], q, _, primary_number hstd hreads hkind, .number hkind, trivial,
      Nat.zero_lt_one⟩
  by_cases hregex : parser.scanner.offers p regexLiteral = true
  · obtain ⟨t, q, hkind, hreads⟩ := exists_reads_of_offers hregex
    have hword : Shape.regex.Word t.text := word_of_reads hstd hreads (by rw [hkind]; rfl)
    obtain ⟨body, flags, htext, -, -, hall⟩ := hword
    have hflags : '/' ∉ flags := fun hmem => absurd (hall _ hmem) (by decide)
    have hsucceeds : Succeeds parser rules (primary parser nested) p [t] q _ :=
      primary_regex hstd hreads hkind
    rw [htext, splitRegex_eq hflags] at hsucceeds
    exact Or.inl ⟨[t], q, _, hsucceeds, .regex hkind htext hflags, trivial, Nat.zero_lt_one⟩
  by_cases hident : parser.scanner.offers p identifier = true
  · obtain ⟨t, q, hkind, hreads⟩ := exists_reads_of_offers hident
    exact Or.inl ⟨[t], q, _, primary_ident hstd hreads hkind, .ident hkind, trivial,
      Nat.zero_lt_one⟩
  by_cases hparen : parser.scanner.offers p leftParen = true
  · exact paren_parses hstd hparen hnested
  · refine Or.inr ⟨[], p, operandKinds, _, primary_fails hstd ?_, by decide, operand_completes⟩
    simp only [operandKinds, List.forall_mem_cons]
    simp [hnumber, hregex, hident, hparen]

end

/-! ## Operators -/

section

variable {rank : Nat} {op op' : BinaryOp} {operand : ParseAction μ Expr}

theorem operation_parses (hstd : Standard parser) (hops : OperatorsOf rank op op')
    (hmore : (operatorStart op op').candidates.kinds.any (parser.scanner.offers p) = true)
    (hoperand : ∀ p' : Place, byteLength p'.rest < byteLength p.rest →
      Parses parser rules operand p' (Expr.Below rank) (Stuck 2 (SpellsBelow rank))) :
    Parses parser rules (operation parser op op' operand) p
      (fun tokens v => tokens ≠ [] ∧
        ∃ x : Link, x.IsOfRank rank ∧ tokens = x.all ∧ v = (x.op, x.operand))
      (fun tokens expected active => ∃ (o : BinaryOp) (t : Token) (b : List Token),
        o.rank = rank ∧ t.word = o.word ∧ tokens = t :: b ∧
          Stuck 2 (SpellsBelow rank) b expected active) := by
  have hsome : ∃ o, (o = op ∨ o = op') ∧ parser.scanner.offers p o.kind = true := by
    simp only [operatorStart, List.any_cons, List.any_nil, Bool.or_false, Bool.or_eq_true] at hmore
    rcases hmore with h | h
    · exact ⟨op, Or.inl rfl, h⟩
    · exact ⟨op', Or.inr rfl, h⟩
  obtain ⟨o, ho, hoffers⟩ := hsome
  have hrank : o.rank = rank := (hops.rank_eq o).2 ho
  have hshape : shapeOf o.kind = some (.sign o.sign) := by cases o <;> rfl
  obtain ⟨t, p₁, hkind, hsign⟩ := exists_reads_of_offers hoffers
  have hword : t.word = o.word := word_eq_of_sign hstd hsign hkind hshape
  have hlen := hsign.length_le
  rw [List.length_singleton] at hlen
  rcases hoperand p₁ (by omega) with
    ⟨b, q, e, he, htree⟩ | ⟨b, q, expected, active, hfails, hstuck⟩
  · have hlink : (⟨o, t, e, b⟩ : Link).IsOfRank rank :=
      ⟨hrank, hword, htree.spells, htree.grouped, htree.lower⟩
    exact Or.inl ⟨t :: b, q, (o, e), operation_succeeds hstd hops hlink hsign he,
      List.cons_ne_nil _ _, ⟨o, t, e, b⟩, hlink, rfl, rfl⟩
  · have hall : Fails parser rules (operation parser op op' operand) p (t :: b) q expected
        active :=
      (oneOf_succeeds hstd hops.ne ho hsign hword).bind_fails hfails.bind
    exact Or.inr ⟨t :: b, q, expected, active, hall, o, t, b, hrank, hword, rfl, hstuck⟩

theorem exists_links {items : List (List Token × (BinaryOp × Expr))}
    (h : ∀ item ∈ items, ∃ x : Link, x.IsOfRank rank ∧ item.1 = x.all ∧
      item.2 = (x.op, x.operand)) :
    ∃ links : List Link, (∀ x ∈ links, x.IsOfRank rank) ∧
      items = links.map fun x => (x.all, (x.op, x.operand)) := by
  induction items with
  | nil => exact ⟨[], fun _ hx => absurd hx List.not_mem_nil, rfl⟩
  | cons item items ih =>
    obtain ⟨x, hx, htokens, hvalue⟩ := h item List.mem_cons_self
    obtain ⟨links, hlinks, rfl⟩ := ih fun item hitem => h item (List.mem_cons_of_mem _ hitem)
    refine ⟨x :: links, ?_, ?_⟩
    · intro y hy
      rcases List.mem_cons.1 hy with rfl | hy
      · exact hx
      · exact hlinks y hy
    · rw [List.map_cons, ← htokens, ← hvalue]

theorem flatMap_links (links : List Link) :
    (links.map fun x => (x.all, (x.op, x.operand))).flatMap Prod.fst =
      links.flatMap Link.all := by
  rw [List.flatMap_map]

/-- Where the last operand of a chain is completed, the chain is. -/
theorem completes_chain {first : Expr} {a b : List Token} {links : List Link} {o : BinaryOp}
    {t : Token} {expected : List KindId} (hfirst : first.Below rank a)
    (hlinks : ∀ x ∈ links, x.IsOfRank rank) (ho : o.rank = rank) (ht : t.word = o.word)
    (hcompletes : Completes 2 (SpellsBelow rank) b expected) :
    Completes 2 (SpellsBelow (rank + 1)) (a ++ (links.flatMap Link.all ++ t :: b)) expected := by
  have htokens : a ++ (links.flatMap Link.all ++ t :: b) =
      (a ++ links.flatMap Link.all ++ [t]) ++ b := by simp
  rw [htokens]
  refine hcompletes.extend _ (List.nil_subset fillers) (Nat.add_le_add_right (Nat.zero_le _) 2) ?_
  rintro next last - - hlast hsorted ⟨e, he⟩
  rw [List.map_eq_nil_iff] at hlast
  subst hlast
  have hlinks' : ∀ x ∈ links ++ ([⟨o, t, e, b ++ next⟩] : List Link), x.IsOfRank rank := by
    intro x hx
    rcases List.mem_append.1 hx with hx | hx
    · exact hlinks x hx
    · rw [List.mem_singleton.1 hx]
      exact ⟨ho, ht, he.spells, he.grouped, he.lower⟩
  have hchain : a ++ links.flatMap Link.all ++ [t] ++ (b ++ next ++ []) =
      a ++ (links ++ ([⟨o, t, e, b ++ next⟩] : List Link)).flatMap Link.all := by
    simp [Link.all]
  rw [hchain] at hsorted ⊢
  obtain ⟨hspells, hgrouped, hrank⟩ := chain_spells hfirst.spells hfirst.grouped
    (Nat.le_of_lt hfirst.lower) hlinks' hsorted
  exact ⟨_, hspells, hgrouped, Nat.lt_succ_of_le hrank⟩

theorem chained_parses (hstd : Standard parser) (hops : OperatorsOf rank op op')
    (hoperand : ∀ p' : Place, byteLength p'.rest ≤ byteLength p.rest →
      Parses parser rules operand p' (Expr.Below rank) (Stuck 2 (SpellsBelow rank))) :
    Parses parser rules (chained parser (operatorStart op op') (oneOf parser op op') operand) p
      (Expr.Below (rank + 1)) (Stuck 2 (SpellsBelow (rank + 1))) := by
  rcases hoperand p (Nat.le_refl _) with
    ⟨a, p₁, first, hfirst, htree⟩ | ⟨a, q, expected, active, hfails, hmem, hcompletes⟩
  · have hmany : Parses parser rules
        (parser.many (operatorStart op op') (operation parser op op' operand)) p₁ _ _ :=
      parses_many hstd.tripwire_eq fun p' hp' hmore =>
        operation_parses hstd hops hmore fun p'' hp'' => hoperand p'' (by
          have hlen := hfirst.reads.length_le
          omega)
    rcases hmany with
      ⟨tokens, q, values, hvalues, items, rfl, rfl, hitems⟩ |
        ⟨tokens, q, expected, active, hfails, items, last, rfl, hitems, o, t, b, ho, ht, rfl, hmem,
          hcompletes⟩
    · obtain ⟨links, hlinks, rfl⟩ := exists_links hitems
      have hall : Succeeds parser rules
          (chained parser (operatorStart op op') (oneOf parser op op') operand) p _ q _ :=
        hfirst.bind (hvalues.bind_pure fun rest => first.chain rest)
      rw [flatMap_links, List.map_map] at hall
      obtain ⟨hspells, hgrouped, hrank⟩ := chain_spells htree.spells htree.grouped
        (Nat.le_of_lt htree.lower) hlinks hall.reads.sorted
      exact Or.inl ⟨_, q, _, hall, hspells, hgrouped, Nat.lt_succ_of_le hrank⟩
    · obtain ⟨links, hlinks, rfl⟩ := exists_links hitems
      have hall : Fails parser rules
          (chained parser (operatorStart op op') (oneOf parser op op') operand) p _ q expected
          active :=
        hfirst.bind_fails hfails.bind
      rw [flatMap_links] at hall
      exact Or.inr ⟨_, q, expected, active, hall, hmem,
        completes_chain htree hlinks ho ht hcompletes⟩
  · refine Or.inr ⟨a, q, expected, active, hfails.bind, hmem, hcompletes.mono ?_⟩
    rintro all ⟨e, he⟩
    exact ⟨e, he.spells, he.grouped, Nat.lt_succ_of_lt he.lower⟩

end

/-! ## Expressions -/

theorem multiplicative_parses (hstd : Standard parser) {nested : ParseAction μ Expr}
    (hnested : ∀ (rules : List String) (p' : Place), byteLength p'.rest < byteLength p.rest →
      Parses parser rules nested p' (Expr.Below 3) (Stuck 2 (SpellsBelow 3))) :
    Parses parser rules (multiplicative parser nested) p (Expr.Below 2)
      (Stuck 2 (SpellsBelow 2)) := by
  have hchained : Parses parser ("Multiplicative" :: rules)
      (chained parser (operatorStart .mul .div) (oneOf parser .mul .div) (primary parser nested)) p
      (Expr.Below 2) (Stuck 2 (SpellsBelow 2)) :=
    chained_parses hstd operatorsOf_multiplicative fun p' hp' =>
      primary_parses hstd fun p'' hp'' => hnested _ p'' (by omega)
  rcases hchained with ⟨a, q, e, he, htree⟩ | ⟨a, q, expected, active, hfails, hstuck⟩
  · exact Or.inl ⟨a, q, e, he.rule "Multiplicative", htree⟩
  · exact Or.inr ⟨a, q, expected, active, hfails.rule "Multiplicative", hstuck⟩

/-- Where parentheses may be nested as deep as the text is long, an expression is parsed or an
operand or a closing parenthesis is missing. -/
theorem expression_parses (hstd : Standard parser) (depth : Nat) (rules : List String) (p : Place)
    (hdepth : byteLength p.rest < depth) :
    Parses parser rules (expression parser depth : ParseAction μ Expr) p (Expr.Below 3)
      (Stuck 2 (SpellsBelow 3)) := by
  induction depth generalizing rules p with
  | zero => exact absurd hdepth (Nat.not_lt_zero _)
  | succ depth ih =>
    have hchained : Parses parser ("Expression" :: rules)
        (chained parser (operatorStart .add .sub) (oneOf parser .add .sub)
          (multiplicative parser (expression parser depth) : ParseAction μ Expr)) p
        (Expr.Below 3) (Stuck 2 (SpellsBelow 3)) :=
      chained_parses hstd operatorsOf_additive fun p' hp' =>
        multiplicative_parses hstd fun rules p'' hp'' => ih rules p'' (by omega)
    rcases hchained with ⟨a, q, e, he, htree⟩ | ⟨a, q, expected, active, hfails, hstuck⟩
    · exact Or.inl ⟨a, q, e, he.rule "Expression", htree⟩
    · exact Or.inr ⟨a, q, expected, active, hfails.rule "Expression", hstuck⟩

/-! ## Statements -/

/-- A statement that stands in programs is spelled by tokens. -/
structure Statement.Stands (tokens : List Token) (s : Statement) : Prop where
  spells : s.Spells tokens
  grouped : s.Grouped
  proper : s.Proper

def SpellsStatement (tokens : List Token) : Prop := ∃ s : Statement, s.Stands tokens

/-- Behind `return` an expression can stand. -/
def IsValue (tokens : List Token) (value : Option Expr) : Prop :=
  (tokens = [] ∧ value = none) ∨ ∃ e, value = some e ∧ e.Below 3 tokens

/-- Behind a name an expression can stand behind a sign. -/
def IsInitializer (tokens : List Token) (value : Option Expr) : Prop :=
  (tokens = [] ∧ value = none) ∨
    ∃ e sign a, value = some e ∧ tokens = sign :: a ∧ sign.word = (equals, ['=']) ∧ e.Below 3 a

theorem stands_return {first last : Token} {a : List Token} {value : Option Expr}
    (hfirst : first.word = (returnKeyword, "return".toList)) (hvalue : IsValue a value)
    (hlast : last.word = (semicolon, [';'])) :
    (Statement.returned value (cover (first :: (a ++ [last])))).Stands
      (first :: (a ++ [last])) := by
  rcases hvalue with ⟨rfl, rfl⟩ | ⟨e, rfl, he⟩
  · exact ⟨.returned hfirst hlast, fun _ h => absurd h (by simp), trivial⟩
  · refine ⟨.returnedValue hfirst he.spells hlast, ?_, trivial⟩
    intro e' he'
    rw [Option.mem_some_iff] at he'
    rw [← he']
    exact he.grouped

theorem stands_var {first name last : Token} {a : List Token} {value : Option Expr}
    (hfirst : first.word = (varKeyword, "var".toList)) (hname : name.kind = identifier)
    (hvalue : IsInitializer a value) (hlast : last.word = (semicolon, [';'])) :
    (Statement.declared name.text value (cover (first :: name :: (a ++ [last])))).Stands
      (first :: name :: (a ++ [last])) := by
  rcases hvalue with ⟨rfl, rfl⟩ | ⟨e, sign, a, rfl, rfl, hsign, he⟩
  · exact ⟨.declared hfirst hname hlast, fun _ h => absurd h (by simp), trivial⟩
  · refine ⟨.declaredInit hfirst hname hsign he.spells hlast, ?_, trivial⟩
    intro e' he'
    rw [Option.mem_some_iff] at he'
    rw [← he']
    exact he.grouped

theorem stands_evaluated {e : Expr} {last : Token} {a : List Token} (he : e.Below 3 a)
    (hproper : ∀ t ∈ a.head?, t.text ≠ "return".toList ∧ t.text ≠ "var".toList)
    (hlast : last.word = (semicolon, [';'])) :
    (Statement.evaluated e (cover (a ++ [last]))).Stands (a ++ [last]) := by
  refine ⟨.evaluated he.spells hlast, he.grouped, ?_⟩
  intro word hword
  rw [← he.spells.map_word, List.head?_map] at hword
  obtain ⟨t, ht, rfl⟩ := Option.map_eq_some_iff.1 hword
  exact hproper t ht

section

variable {depth : Nat}

theorem value_parses (hstd : Standard parser) (depth : Nat) (rules : List String) (p : Place)
    (hdepth : byteLength p.rest < depth) :
    Parses parser rules
      (parser.optional expressionStart (expression parser depth) : ParseAction μ (Option Expr)) p
      IsValue (Stuck 2 (SpellsBelow 3)) := by
  cases hmore : expressionStart.candidates.kinds.any (parser.scanner.offers p) with
  | false =>
    exact Or.inl ⟨[], p, none, optional_absent hstd.tripwire_eq hmore _, Or.inl ⟨rfl, rfl⟩⟩
  | true =>
    rcases expression_parses hstd depth rules p hdepth with
      ⟨a, q, e, he, htree⟩ | ⟨a, q, expected, active, hfails, hstuck⟩
    · exact Or.inl ⟨a, q, some e, optional_present hstd.tripwire_eq hmore he,
        Or.inr ⟨e, rfl, htree⟩⟩
    · exact Or.inr ⟨a, q, expected, active, optional_fails hstd.tripwire_eq hmore hfails, hstuck⟩

theorem initializer_parses (hstd : Standard parser) (depth : Nat) (rules : List String) (p : Place)
    (hdepth : byteLength p.rest < depth) :
    Parses parser rules (initializer parser depth : ParseAction μ (Option Expr)) p IsInitializer
      (Stuck 2 fun tokens => ∃ value, IsInitializer tokens value) := by
  cases hmore : initializerStart.candidates.kinds.any (parser.scanner.offers p) with
  | false =>
    exact Or.inl ⟨[], p, none, optional_absent hstd.tripwire_eq hmore _, Or.inl ⟨rfl, rfl⟩⟩
  | true =>
    have hoffers : parser.scanner.offers p equals = true := by
      simpa [initializerStart] using hmore
    obtain ⟨sign, p₁, hkind, hsign⟩ := exists_reads_of_offers hoffers
    have hword : sign.word = (equals, ['=']) := word_eq_of_sign hstd hsign hkind rfl
    have hlen := hsign.length_le
    rw [List.length_singleton] at hlen
    rcases expression_parses (μ := μ) hstd depth rules p₁ (by omega) with
      ⟨a, q, e, he, htree⟩ | ⟨a, q, expected, active, hfails, hmem, hcompletes⟩
    · exact Or.inl ⟨sign :: a, q, some e,
        optional_present hstd.tripwire_eq hmore ((consume_kind hstd hsign hkind).bind he),
        Or.inr ⟨e, sign, a, rfl, rfl, hword, htree⟩⟩
    · refine Or.inr ⟨sign :: a, q, expected, active, optional_fails hstd.tripwire_eq hmore
        ((consume_kind hstd hsign hkind).bind_fails hfails), hmem, ?_⟩
      apply hcompletes.extend [sign] (List.nil_subset fillers) (by simp)
      rintro next last - - hlast - ⟨e, he⟩
      rw [List.map_eq_nil_iff] at hlast
      subst hlast
      rw [List.append_nil]
      exact ⟨some e, Or.inr ⟨e, sign, a ++ next, rfl, rfl, hword, he⟩⟩

theorem return_parses (hstd : Standard parser)
    (hoffers : parser.scanner.offers p returnKeyword = true)
    (hdepth : byteLength p.rest < depth) :
    Parses parser rules (returnStatement parser depth : ParseAction μ Statement) p
      Statement.Stands (Stuck 3 SpellsStatement) := by
  obtain ⟨first, p₁, hkind, hfirst⟩ := exists_reads_of_offers hoffers
  have hkeyword : first.word = (returnKeyword, "return".toList) :=
    word_eq_of_keyword hstd hfirst hkind rfl
  have hlen := hfirst.length_le
  have hsuffix : [(semicolon, [';'])] ⊆ fillers := by decide
  rcases value_parses (μ := μ) hstd depth ("ReturnStatement" :: rules) p₁ (by omega) with
    ⟨a, p₂, value, hvalue, htree⟩ | ⟨a, q, expected, active, hfails, hmem, hcompletes⟩
  · by_cases hclose : parser.scanner.offers p₂ semicolon = true
    · obtain ⟨last, q, hsemicolon, hlast⟩ := exists_reads_of_offers hclose
      have hend : last.word = (semicolon, [';']) := word_eq_of_sign hstd hlast hsemicolon rfl
      have hsucceeds := return_succeeds hstd hfirst hkind hvalue hlast hsemicolon
      have hspan : first.span.merge last.span = cover (first :: (a ++ [last])) :=
        merge_ends hsucceeds.reads.sorted
      rw [hspan] at hsucceeds
      exact Or.inl ⟨_, q, _, hsucceeds, stands_return hkeyword htree hend⟩
    · refine Or.inr ⟨_, p₂, _, _, return_open hstd hfirst hkind hvalue
        (Bool.eq_false_iff.2 hclose), by decide, ?_⟩
      exact completes_singleton [';'] (by decide) fun t ht _ =>
        ⟨_, stands_return hkeyword htree ht⟩
  · refine Or.inr ⟨_, q, expected, active, return_value_fails hstd hfirst hkind hfails, hmem, ?_⟩
    apply hcompletes.extend [first] hsuffix (by simp)
    rintro next last - - hlast - ⟨e, he⟩
    obtain ⟨t, rfl, ht⟩ := List.map_eq_singleton_iff.1 hlast
    exact ⟨_, stands_return hkeyword (Or.inr ⟨e, rfl, he⟩) ht⟩

theorem var_parses (hstd : Standard parser)
    (hoffers : parser.scanner.offers p varKeyword = true)
    (hdepth : byteLength p.rest < depth) :
    Parses parser rules (varStatement parser depth : ParseAction μ Statement) p
      Statement.Stands (Stuck 3 SpellsStatement) := by
  obtain ⟨first, p₁, hkind, hfirst⟩ := exists_reads_of_offers hoffers
  have hkeyword : first.word = (varKeyword, "var".toList) :=
    word_eq_of_keyword hstd hfirst hkind rfl
  have hlen := hfirst.length_le
  have hsuffix : [(semicolon, [';'])] ⊆ fillers := by decide
  by_cases hident : parser.scanner.offers p₁ identifier = true
  · obtain ⟨name, p₂, hnamed, hname⟩ := exists_reads_of_offers hident
    have hlen' := hname.length_le
    rcases initializer_parses (μ := μ) hstd depth ("VarStatement" :: rules) p₂ (by omega) with
      ⟨a, p₃, value, hvalue, htree⟩ | ⟨a, q, expected, active, hfails, hmem, hcompletes⟩
    · by_cases hclose : parser.scanner.offers p₃ semicolon = true
      · obtain ⟨last, q, hsemicolon, hlast⟩ := exists_reads_of_offers hclose
        have hend : last.word = (semicolon, [';']) := word_eq_of_sign hstd hlast hsemicolon rfl
        have hsucceeds := var_succeeds hstd hfirst hkind hname hnamed hvalue hlast hsemicolon
        have hspan : first.span.merge last.span = cover (first :: name :: (a ++ [last])) :=
          merge_ends (m := name :: a) hsucceeds.reads.sorted
        rw [hspan] at hsucceeds
        exact Or.inl ⟨_, q, _, hsucceeds, stands_var hkeyword hnamed htree hend⟩
      · refine Or.inr ⟨_, p₃, _, _, var_open hstd hfirst hkind hname hnamed hvalue
          (Bool.eq_false_iff.2 hclose), by decide, ?_⟩
        exact completes_singleton [';'] (by decide) fun t ht _ =>
          ⟨_, stands_var hkeyword hnamed htree ht⟩
    · refine Or.inr ⟨_, q, expected, active, var_value_fails hstd hfirst hkind hname hnamed hfails,
        hmem, ?_⟩
      apply hcompletes.extend [first, name] hsuffix (by simp)
      rintro next last - - hlast - ⟨value, hvalue⟩
      obtain ⟨t, rfl, ht⟩ := List.map_eq_singleton_iff.1 hlast
      exact ⟨_, stands_var hkeyword hnamed hvalue ht⟩
  · refine Or.inr ⟨_, p₁, _, _, var_unnamed hstd hfirst hkind (Bool.eq_false_iff.2 hident),
      by decide, ?_⟩
    intro id hid
    rw [List.mem_singleton.1 hid]
    refine ⟨(identifier, ['a']), by decide, rfl, [(semicolon, [';'])], hsuffix, by simp, ?_⟩
    intro next hnext _
    obtain ⟨name, rest, rfl, hname, hrest⟩ := List.map_eq_cons_iff.1 hnext
    obtain ⟨last, rfl, hlast⟩ := List.map_eq_singleton_iff.1 hrest
    exact ⟨_, stands_var (a := []) hkeyword (kind_eq_of_word hname) (Or.inl ⟨rfl, rfl⟩) hlast⟩

/-! ### Expressions as statements -/

theorem Expr.Spells.first_kind {e : Expr} {a : List Token} (h : e.Spells a) :
    ∀ t ∈ a.head?, t.kind ∈ operandKinds := by
  induction h with
  | number hkind => simp [hkind, operandKinds]
  | regex hkind => simp [hkind, operandKinds]
  | ident hkind => simp [hkind, operandKinds]
  | binary hleft _ _ ihl _ =>
    intro t ht
    rw [List.head?_append, List.head?_eq_some_head hleft.ne_nil, Option.some_or] at ht
    exact ihl t (by rw [List.head?_eq_some_head hleft.ne_nil]; exact ht)
  | paren hfirst _ _ _ =>
    intro t ht
    rw [List.head?_cons, Option.mem_some_iff] at ht
    rw [← ht, kind_eq_of_word hfirst]
    decide

/-- Where an expression begins, a keyword is offered if its word stands there. -/
theorem offers_keyword_iff (hstd : Standard parser) {t : Token} {tokens : List Token}
    (h : parser.scanner.Reads p (t :: tokens) q) (hkind : t.kind ∈ operandKinds) {id : KindId}
    {keyword : Text} (hshape : shapeOf id = some (.keyword keyword))
    (hparts : keyword.all wordPart.mem = true)
    (hapart : [numericLiteral, regexLiteral, leftParen].all (apart · id) = true) :
    parser.scanner.offers p id = true ↔ t.text = keyword := by
  obtain ⟨rest, hrest, htakes⟩ := h.takes_behind
  rw [hstd.lexicon_eq] at htakes
  by_cases hname : t.kind = identifier
  · have hshape' : shapeOf t.kind = some .name := by rw [hname]; rfl
    rw [Scanner.offers, hrest, hstd.lexicon_eq]
    constructor
    · intro hsees
      rw [hname] at htakes
      exact eq_of_sees_keyword hshape (List.all_eq_true.1 hparts) htakes hsees
    · intro htext
      have hword : (Shape.keyword keyword).Word t.text := ⟨htext, htakes.ne_nil⟩
      exact (takes_of_word hshape hword (clear_wordPart hshape' rfl htakes)).sees
  · have hother : apart t.kind id = true := by
      apply List.all_eq_true.1 hapart _
      simpa [operandKinds, hname] using hkind
    obtain ⟨shape, shape', hs, hs', hdisjoint⟩ := exists_shapes_of_apart hother
    cases hs'.symm.trans hshape
    rw [offers_eq_false hstd h hother]
    refine iff_of_false Bool.false_ne_true fun htext => ?_
    have hword : (Shape.keyword keyword).Word t.text := ⟨htext, htakes.ne_nil⟩
    exact append_ne_of_disjoint hdisjoint (word_of_takes hs htakes) hword (x := []) rfl

theorem offers_return_iff (hstd : Standard parser) {t : Token} {tokens : List Token}
    (h : parser.scanner.Reads p (t :: tokens) q) (hkind : t.kind ∈ operandKinds) :
    parser.scanner.offers p returnKeyword = true ↔ t.text = "return".toList :=
  offers_keyword_iff hstd h hkind rfl (by decide +kernel) (by decide +kernel)

theorem offers_var_iff (hstd : Standard parser) {t : Token} {tokens : List Token}
    (h : parser.scanner.Reads p (t :: tokens) q) (hkind : t.kind ∈ operandKinds) :
    parser.scanner.offers p varKeyword = true ↔ t.text = "var".toList :=
  offers_keyword_iff hstd h hkind rfl (by decide +kernel) (by decide +kernel)

theorem evaluated_parses (hstd : Standard parser)
    (hreturn : parser.scanner.offers p returnKeyword = false)
    (hvar : parser.scanner.offers p varKeyword = false) (hdepth : byteLength p.rest < depth) :
    Parses parser rules (expressionStatement parser depth : ParseAction μ Statement) p
      Statement.Stands (Stuck 3 SpellsStatement) := by
  have hsuffix : [(semicolon, [';'])] ⊆ fillers := by decide
  have hproper : ∀ {t : Token} {more : List Token} {q : Place}, t.kind ∈ operandKinds →
      parser.scanner.Reads p (t :: more) q →
      t.text ≠ "return".toList ∧ t.text ≠ "var".toList := by
    intro t more q hkind hreads
    rw [ne_eq, ne_eq, ← offers_return_iff hstd hreads hkind, ← offers_var_iff hstd hreads hkind,
      hreturn, hvar]
    exact ⟨Bool.false_ne_true, Bool.false_ne_true⟩
  rcases expression_parses (μ := μ) hstd depth ("ExpressionStatement" :: rules) p hdepth with
    ⟨a, p₁, e, he, htree⟩ | ⟨a, q, expected, active, hfails, hmem, hcompletes⟩
  · have hfirst : ∀ t ∈ a.head?, t.text ≠ "return".toList ∧ t.text ≠ "var".toList := by
      intro t ht
      obtain ⟨more, rfl⟩ := List.head?_eq_some_iff.1 ht
      exact hproper (htree.spells.first_kind t ht) he.reads
    by_cases hclose : parser.scanner.offers p₁ semicolon = true
    · obtain ⟨last, q, hsemicolon, hlast⟩ := exists_reads_of_offers hclose
      have hend : last.word = (semicolon, [';']) := word_eq_of_sign hstd hlast hsemicolon rfl
      have hsucceeds := evaluated_succeeds hstd he hlast hsemicolon
      rw [htree.spells.merge_last hsucceeds.reads.sorted] at hsucceeds
      exact Or.inl ⟨_, q, _, hsucceeds, stands_evaluated htree hfirst hend⟩
    · refine Or.inr ⟨_, p₁, _, _, evaluated_open he (Bool.eq_false_iff.2 hclose), by decide, ?_⟩
      exact completes_singleton [';'] (by decide) fun t ht _ =>
        ⟨_, stands_evaluated htree hfirst ht⟩
  · refine Or.inr ⟨_, q, expected, active, evaluated_fails hfails, hmem, ?_⟩
    apply hcompletes.extend [] hsuffix (by decide)
    rintro next last hsample hne hlast - ⟨e, he⟩
    obtain ⟨t, rfl, ht⟩ := List.map_eq_singleton_iff.1 hlast
    refine ⟨_, stands_evaluated he ?_ ht⟩
    intro u hu
    cases a with
    | nil =>
      have htexts : ∀ word ∈ samples, word.2 ≠ "return".toList ∧ word.2 ≠ "var".toList := by
        decide
      exact htexts _ (hsample u hu)
    | cons first more =>
      have hkind := he.spells.first_kind u hu
      rw [List.cons_append, List.head?_cons, Option.mem_some_iff] at hu
      subst hu
      exact hproper hkind hfails.reads

theorem statement_parses (hstd : Standard parser)
    (hmore : statementStart.candidates.kinds.any (parser.scanner.offers p) = true)
    (hdepth : byteLength p.rest < depth) :
    Parses parser rules (statement parser depth : ParseAction μ Statement) p
      Statement.Stands (Stuck 3 SpellsStatement) := by
  have hbody : Parses parser ("Statement" :: rules)
      (statementOf parser depth (statementBranch parser p) : ParseAction μ Statement) p
      Statement.Stands (Stuck 3 SpellsStatement) := by
    unfold statementBranch
    split
    · rename_i hreturn
      exact return_parses hstd hreturn hdepth
    · rename_i hreturn
      split
      · rename_i hvar
        exact var_parses hstd hvar hdepth
      · rename_i hvar
        exact evaluated_parses hstd (Bool.eq_false_iff.2 hreturn) (Bool.eq_false_iff.2 hvar) hdepth
  rcases hbody with ⟨a, q, s, hs, htree⟩ | ⟨a, q, expected, active, hfails, hstuck⟩
  · exact Or.inl ⟨a, q, s, statement_succeeds hstd hmore hs, htree⟩
  · exact Or.inr ⟨a, q, expected, active, statement_fails hstd hmore hfails, hstuck⟩

end

/-! ## Programs -/

/-- Tokens spell statements that stand in programs. -/
def SpellsProgram (tokens : List Token) : Prop :=
  ∃ body : List Statement, SpellsAll body tokens ∧ ∀ s ∈ body, s.Grouped ∧ s.Proper

theorem SpellsAll.append {body body' : List Statement} {a b : List Token}
    (ha : SpellsAll body a) (hb : SpellsAll body' b) : SpellsAll (body ++ body') (a ++ b) := by
  induction ha with
  | nil => exact hb
  | cons hs _ ih =>
    rw [List.cons_append, List.append_assoc]
    exact .cons hs ih

theorem spellsAll_of_stands {items : List (List Token × Statement)}
    (h : ∀ item ∈ items, item.2.Stands item.1) :
    SpellsAll (items.map Prod.snd) (items.flatMap Prod.fst) ∧
      ∀ s ∈ items.map Prod.snd, s.Grouped ∧ s.Proper := by
  constructor
  · induction items with
    | nil => exact .nil
    | cons item items ih =>
      exact .cons (h item List.mem_cons_self).spells
        (ih fun item hitem => h item (List.mem_cons_of_mem _ hitem))
  · intro s hs
    obtain ⟨item, hitem, rfl⟩ := List.mem_map.1 hs
    exact ⟨(h item hitem).grouped, (h item hitem).proper⟩

/-- The statements of a program are parsed, or one of them is stuck. -/
theorem statements_parse (hstd : Standard parser) :
    Parses parser rules (statements parser p : ParseAction μ (List Statement)) p
      (fun tokens body => SpellsAll body tokens ∧ ∀ s ∈ body, s.Grouped ∧ s.Proper)
      (Stuck 3 SpellsProgram) := by
  have hround : ∀ p' : Place, byteLength p'.rest ≤ byteLength p.rest →
      statementStart.candidates.kinds.any (parser.scanner.offers p') = true →
      Parses parser rules (statement parser (byteLength p.source + 1) : ParseAction μ Statement) p'
        (fun tokens s => tokens ≠ [] ∧ s.Stands tokens) (Stuck 3 SpellsStatement) := by
    intro p' hp' hmore
    have hdepth : byteLength p'.rest < byteLength p.source + 1 := by
      rw [Place.source, byteLength_append]
      omega
    have hstatement : Parses parser rules
        (statement parser (byteLength p.source + 1) : ParseAction μ Statement) p' _ _ :=
      statement_parses hstd hmore hdepth
    rcases hstatement with ⟨a, q, s, hs, htree⟩ | hstuck
    · exact Or.inl ⟨a, q, s, hs, htree.spells.ne_nil, htree⟩
    · exact Or.inr hstuck
  have hmany : Parses parser rules
      (statements parser p : ParseAction μ (List Statement)) p _ _ :=
    parses_many hstd.tripwire_eq hround
  rcases hmany with
    ⟨tokens, q, body, hbody, items, rfl, rfl, hitems⟩ |
      ⟨tokens, q, expected, active, hfails, items, last, rfl, hitems, hmem, hcompletes⟩
  · exact Or.inl ⟨_, q, _, hbody, spellsAll_of_stands hitems⟩
  · refine Or.inr ⟨_, q, expected, active, hfails, hmem, ?_⟩
    refine hcompletes.extend (items.flatMap Prod.fst) (List.nil_subset fillers)
      (Nat.add_le_add_right (Nat.zero_le _) 3) ?_
    rintro next tail - - htail - ⟨s, hs⟩
    rw [List.map_eq_nil_iff] at htail
    subst htail
    rw [List.append_nil]
    obtain ⟨hspells, hall⟩ := spellsAll_of_stands hitems
    refine ⟨items.map Prod.snd ++ [s], hspells.append ?_, ?_⟩
    · rw [← List.append_nil (last ++ next)]
      exact .cons hs.spells .nil
    · intro s' hs'
      rcases List.mem_append.1 hs' with hs' | hs'
      · exact hall s' hs'
      · rw [List.mem_singleton.1 hs']
        exact ⟨hs.grouped, hs.proper⟩

end PredictiveParsing.Ecma
