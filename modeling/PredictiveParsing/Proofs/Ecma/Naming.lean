import PredictiveParsing.Proofs.Ecma.Outcomes

/-!
# Reserved words as names

A reserved word is also matched as a name. Only a choice that tries the reserved words first keeps
them apart, and only the choice of a statement does. So no statement begins with a name that is
reserved, but where nothing else than a name or an operand can stand such a name is taken.

* `Expr.names`, `Statement.names`: the names in a tree.
* `openers`: the words behind which a name is taken.
* `reserved_names_behind`: where the reserved names of a program stand.
-/

namespace PredictiveParsing.Ecma

open Text PredictiveParsing.Parser Scanner

variable {μ : Type}

/-! ## Names -/

/-- The names in an expression. -/
def Expr.names : Expr → List Text
  | .number _ _ => []
  | .regex _ _ _ => []
  | .ident name _ => [name]
  | .binary _ left right _ => left.names ++ right.names
  | .paren inner _ => inner.names

/-- The names in a statement, the declared one included. -/
def Statement.names : Statement → List Text
  | .returned value _ => value.elim [] Expr.names
  | .declared name init _ => name :: init.elim [] Expr.names
  | .evaluated expr _ => expr.names

/-- The reserved words. -/
def reserved : List Text := ["return".toList, "var".toList]

/-- The words behind which an operand or a declared name is taken. -/
def openers : List (KindId × Text) :=
  [(returnKeyword, "return".toList), (varKeyword, "var".toList), (equals, ['=']),
   BinaryOp.word .add, BinaryOp.word .sub, BinaryOp.word .mul, BinaryOp.word .div,
   (leftParen, ['('])]

theorem word_mem_openers (op : BinaryOp) : op.word ∈ openers := by
  cases op <;> decide

/-! ## Behind an opener -/

/-- Among some words a name stands right behind an opener. -/
def Behind (words : List (KindId × Text)) (name : Text) : Prop :=
  ∃ before opener after,
    words = before ++ opener :: (identifier, name) :: after ∧ opener ∈ openers

namespace Behind

variable {words : List (KindId × Text)} {name : Text}

theorem append_right (h : Behind words name) (more : List (KindId × Text)) :
    Behind (words ++ more) name := by
  obtain ⟨before, opener, after, rfl, hopener⟩ := h
  exact ⟨before, opener, after ++ more, by simp, hopener⟩

theorem append_left (h : Behind words name) (more : List (KindId × Text)) :
    Behind (more ++ words) name := by
  obtain ⟨before, opener, after, rfl, hopener⟩ := h
  exact ⟨more ++ before, opener, after, by simp, hopener⟩

/-- A name that comes first, or behind an opener, is behind an opener if one is put in front. -/
theorem of_opener {opener : KindId × Text} (hopener : opener ∈ openers)
    (h : words.head? = some (identifier, name) ∨ Behind words name) :
    Behind (opener :: words) name := by
  rcases h with hhead | hbehind
  · obtain ⟨after, rfl⟩ := List.head?_eq_some_iff.1 hhead
    exact ⟨[], opener, after, rfl, hopener⟩
  · exact hbehind.append_left [opener]

end Behind

/-- A name in an expression comes first or stands behind an opener. -/
theorem Expr.head_or_behind {e : Expr} {name : Text} (h : name ∈ e.names) :
    e.words.head? = some (identifier, name) ∨ Behind e.words name := by
  induction e with
  | number _ _ | regex _ _ _ => exact absurd h List.not_mem_nil
  | ident text _ =>
    rw [names, List.mem_singleton] at h
    rw [h]
    exact Or.inl rfl
  | binary op left right _ ihl ihr =>
    rw [words]
    rcases List.mem_append.1 h with hleft | hright
    · rcases ihl hleft with hhead | hbehind
      · exact Or.inl (by rw [List.head?_append, hhead, Option.some_or])
      · exact Or.inr (hbehind.append_right _)
    · exact Or.inr ((Behind.of_opener (word_mem_openers op) (ihr hright)).append_left left.words)
  | paren inner _ ih =>
    have hopener : (leftParen, ['(']) ∈ openers := by decide
    have hbehind := Behind.of_opener hopener (ih h)
    exact Or.inr (hbehind.append_right [(rightParen, [')'])])

/-- A reserved word that is a name in a statement stands behind an opener. An expression that is a
statement does not begin with it. -/
theorem Statement.behind {s : Statement} (hproper : s.Proper) {name : Text} (h : name ∈ s.names)
    (hreserved : name ∈ reserved) : Behind s.words name := by
  have hopeners : (returnKeyword, "return".toList) ∈ openers ∧
      (varKeyword, "var".toList) ∈ openers ∧ (equals, ['=']) ∈ openers := by decide
  obtain ⟨hreturn, hvar, hequals⟩ := hopeners
  cases s with
  | returned value _ =>
    cases value with
    | none => exact absurd h List.not_mem_nil
    | some e => exact (Behind.of_opener hreturn (Expr.head_or_behind h)).append_right _
  | declared declared init _ =>
    rcases List.mem_cons.1 h with rfl | hinit
    · exact .of_opener hvar (Or.inl rfl)
    · cases init with
      | none => exact absurd hinit List.not_mem_nil
      | some e =>
        have hbehind := Behind.of_opener hequals (Expr.head_or_behind hinit)
        exact (hbehind.append_right [(semicolon, [';'])]).append_left
          [(varKeyword, "var".toList), (identifier, declared)]
  | evaluated e _ =>
    rcases Expr.head_or_behind h with hhead | hbehind
    · obtain ⟨hreturn, hvar⟩ := hproper _ hhead
      rw [reserved, List.mem_cons, List.mem_singleton] at hreserved
      exact absurd hreserved (not_or.2 ⟨hreturn, hvar⟩)
    · exact hbehind.append_right _

/-- The words of a statement stand together among those of all statements. -/
theorem Behind.exists_tokens {body : List Statement} {tokens : List Token}
    (htokens : tokens.map Token.word = body.flatMap Statement.words) {s : Statement} (hs : s ∈ body)
    {name : Text} (h : Behind s.words name) :
    ∃ before opener t after, tokens = before ++ opener :: t :: after ∧
      opener.word ∈ openers ∧ t.word = (identifier, name) := by
  obtain ⟨earlier, later, rfl⟩ := List.append_of_mem hs
  rw [List.flatMap_append, List.flatMap_cons] at htokens
  obtain ⟨before, opener, after, hwords, hopener⟩ :=
    (h.append_right (later.flatMap Statement.words)).append_left (earlier.flatMap Statement.words)
  rw [hwords] at htokens
  obtain ⟨a, b, rfl, -, hb⟩ := List.map_eq_append_iff.1 htokens
  obtain ⟨first, b, rfl, hfirst, hb⟩ := List.map_eq_cons_iff.1 hb
  obtain ⟨t, b, rfl, ht, -⟩ := List.map_eq_cons_iff.1 hb
  exact ⟨a, first, t, b, rfl, hfirst ▸ hopener, ht⟩

/-! ## Programs -/

/-- In a program that is parsed, a reserved word that is a name stands right behind a word that
opens an operand or a declaration, among the tokens that are read from the source. -/
theorem reserved_names_behind {config : ScanConfig} {messages : MessageBuilder} {source : Text}
    {s s' : ParserState} {program : Program} {errors : List ParseError}
    {records : List (Emission μ)}
    (h : parseWith (parser config messages) source s =
      ⟨.ok ⟨some program, errors⟩, s', records⟩) :
    ∃ (tokens : List Token) (q : Place),
      (parser config messages).scanner.Reads ⟨[], source⟩ tokens q ∧
      tokens.map Token.word = program.body.flatMap Statement.words ∧
      ∀ statement ∈ program.body, ∀ name ∈ statement.names, name ∈ reserved →
        ∃ before opener t after, tokens = before ++ opener :: t :: after ∧
          opener.word ∈ openers ∧ t.word = (identifier, name) := by
  by_cases hlen : byteLength source < offsetLimit
  · rcases parse_outcome (Standard.of_config config messages) hlen s with
      ⟨tokens, q, body, records', haccepted, hrun, -⟩ | ⟨_, _, _, _, _, -, hrun, -⟩
    · obtain ⟨hexit, -, -⟩ := Run.mk.inj (h.symm.trans hrun)
      obtain ⟨hprogram, -⟩ := ParseOutput.mk.inj (Exit.ok.inj hexit)
      cases Option.some.inj hprogram
      have hwords := haccepted.spells.map_word
      refine ⟨tokens, q, haccepted.reads, hwords, fun statement hmem name hname hreserved => ?_⟩
      have hproper := (haccepted.stands statement hmem).2
      exact (statement.behind hproper hname hreserved).exists_tokens hwords hmem
    · obtain ⟨hexit, -, -⟩ := Run.mk.inj (h.symm.trans hrun)
      cases (ParseOutput.mk.inj (Exit.ok.inj hexit)).1
  · rw [parseWith, run_eq_of_long hlen s] at h
    cases (Run.mk.inj h).1

/-- Both reserved words are names in a declaration, where nothing is passed over but the blanks. -/
theorem reserved_names_behind_declaration :
    let program : Program := ⟨[.declared "return".toList
      (some (.binary .mul (.number ['2'] ⟨13, 14⟩) (.ident "var".toList ⟨15, 18⟩) ⟨13, 18⟩))
      ⟨0, 19⟩], ⟨0, 19⟩⟩
    (parse "var return = 2*var;".toList).exit = .ok ⟨some program, []⟩ ∧
      (∀ statement ∈ program.body, statement.names = reserved) ∧
      ∃ (tokens : List Token) (q : Place),
        (parser {} .standard).scanner.Reads ⟨[], "var return = 2*var;".toList⟩ tokens q ∧
        ∀ name ∈ reserved, ∃ before opener t after, tokens = before ++ opener :: t :: after ∧
          opener.word ∈ openers ∧ t.word = (identifier, name) := by
  intro program
  have hexit : (parse "var return = 2*var;".toList).exit = .ok ⟨some program, []⟩ := by
    decide +kernel
  have hnames : ∀ statement ∈ program.body, statement.names = reserved := by decide
  obtain ⟨tokens, q, hreads, -, hbehind⟩ := reserved_names_behind (Run.eq_of_exit hexit)
  refine ⟨hexit, hnames, tokens, q, hreads, fun name hname => ?_⟩
  have hmem := hnames _ List.mem_cons_self ▸ hname
  exact hbehind _ List.mem_cons_self name hmem hname

/-- A reserved word is declared, so not every parsed program is free of such names. -/
theorem reserved_name_declared :
    ¬ ∀ (source : Text) (config : ScanConfig) (program : Program) (errors : List ParseError),
      (parse source config).exit = .ok ⟨some program, errors⟩ →
        ∀ statement ∈ program.body, ∀ name ∈ statement.names, name ∉ reserved := by
  intro hall
  let program : Program := ⟨[.declared "return".toList none ⟨0, 11⟩], ⟨0, 11⟩⟩
  have hexit : (parse "var return;".toList).exit = .ok ⟨some program, []⟩ := by decide +kernel
  exact hall _ _ _ _ hexit _ List.mem_cons_self "return".toList (by decide) (by decide)

end PredictiveParsing.Ecma
