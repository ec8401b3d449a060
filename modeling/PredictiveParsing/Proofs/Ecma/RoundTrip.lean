import Mathlib.Algebra.Group.Nat.Defs
import PredictiveParsing.Proofs.Ecma.Completeness
import PredictiveParsing.Proofs.Ecma.Layout

/-!
# Parsing what is laid out

The words of a tree determine its form, and where they are laid out they determine its spans. So a
program that is laid out is parsed back, whatever trivia stands between its words.

* `exists_spells`, `exists_spellsAll`: tokens with the words of a tree spell a tree of its form.
* `parse_layout`: the statements of a layout are parsed back.
-/

namespace PredictiveParsing.Ecma

open Text PredictiveParsing.Parser Scanner

/-! ## Forms -/

/-- The form of an expression, without its spans. -/
def Expr.bare : Expr → Expr
  | .number text _ => .number text ⟨0, 0⟩
  | .regex pattern flags _ => .regex pattern flags ⟨0, 0⟩
  | .ident name _ => .ident name ⟨0, 0⟩
  | .binary op left right _ => .binary op left.bare right.bare ⟨0, 0⟩
  | .paren inner _ => .paren inner.bare ⟨0, 0⟩

/-- The form of a statement, without its spans. -/
def Statement.bare : Statement → Statement
  | .returned value _ => .returned (value.map Expr.bare) ⟨0, 0⟩
  | .declared name init _ => .declared name (init.map Expr.bare) ⟨0, 0⟩
  | .evaluated expr _ => .evaluated expr.bare ⟨0, 0⟩

theorem Expr.words_bare (e : Expr) : e.bare.words = e.words := by
  induction e with
  | binary op left right span ihl ihr => rw [bare, words, words, ihl, ihr]
  | paren inner span ih => rw [bare, words, words, ih]
  | number text span => rfl
  | regex pattern flags span => rfl
  | ident name span => rfl

theorem Statement.words_bare (s : Statement) : s.bare.words = s.words := by
  cases s with
  | returned value span => cases value <;> simp [bare, words, Expr.words_bare]
  | declared name init span => cases init <;> simp [bare, words, Expr.words_bare]
  | evaluated expr span => rw [bare, words, words, Expr.words_bare]

theorem Expr.rank_bare (e : Expr) : e.bare.rank = e.rank := by
  cases e <;> rfl

theorem Expr.grouped_bare (e : Expr) : e.bare.Grouped ↔ e.Grouped := by
  induction e with
  | binary op left right span ihl ihr =>
    rw [bare, Grouped, Grouped, ihl, ihr, rank_bare, rank_bare]
  | paren inner span ih => exact ih
  | number text span => exact Iff.rfl
  | regex pattern flags span => exact Iff.rfl
  | ident name span => exact Iff.rfl

theorem Statement.grouped_bare (s : Statement) : s.bare.Grouped ↔ s.Grouped := by
  have hoption : ∀ value : Option Expr,
      (∀ e ∈ value.map Expr.bare, e.Grouped) ↔ ∀ e ∈ value, e.Grouped := by
    intro value
    cases value with
    | none => simp
    | some e => simp [e.grouped_bare]
  cases s with
  | returned value span => exact hoption value
  | declared name init span => exact hoption init
  | evaluated expr span => exact expr.grouped_bare

theorem Statement.proper_bare (s : Statement) : s.bare.Proper ↔ s.Proper := by
  cases s with
  | returned value span => exact Iff.rfl
  | declared name init span => exact Iff.rfl
  | evaluated expr span => rw [bare, Proper, Proper, expr.words_bare]

/-! ## Complete leaves -/

/-- The texts of the leaves are complete: their kinds match all of them. The body of a regular
expression does not begin with an asterisk, and its last slash stands before its flags. -/
def Expr.Complete : Expr → Prop
  | .number text _ => lexicon.Takes numericLiteral text []
  | .regex pattern flags _ =>
    lexicon.Takes regexLiteral ('/' :: (pattern ++ '/' :: flags)) [] ∧ '/' ∉ flags ∧
      pattern.head? ≠ some '*'
  | .ident name _ => lexicon.Takes identifier name []
  | .binary _ left right _ => left.Complete ∧ right.Complete
  | .paren inner _ => inner.Complete

/-- The names and the leaves of a statement are complete. -/
def Statement.Complete : Statement → Prop
  | .returned value _ => ∀ e ∈ value, e.Complete
  | .declared name init _ => lexicon.Takes identifier name [] ∧ ∀ e ∈ init, e.Complete
  | .evaluated expr _ => expr.Complete

theorem whole_operator (op : BinaryOp) : Whole op.word :=
  whole_sign (by cases op <;> rfl)

theorem Expr.Complete.whole {e : Expr} (h : e.Complete) : ∀ word ∈ e.words, Whole word := by
  induction e with
  | number text span =>
    intro word hword
    rw [List.mem_singleton.1 hword]
    exact whole_of_takes rfl rfl h
  | ident name span =>
    intro word hword
    rw [List.mem_singleton.1 hword]
    exact whole_of_takes rfl rfl h
  | regex pattern flags span =>
    intro word hword
    rw [List.mem_singleton.1 hword]
    obtain ⟨htakes, -, hstar⟩ := h
    refine ⟨⟨.regex, rfl, word_of_takes rfl htakes⟩, fun hopen => ?_⟩
    have hnext := (List.cons_prefix_cons.1 hopen).2
    cases pattern with
    | nil => exact absurd (List.cons_prefix_cons.1 hnext).1 (by decide)
    | cons c pattern => exact hstar (by rw [List.head?_cons, (List.cons_prefix_cons.1 hnext).1])
  | binary op left right span ihl ihr =>
    intro word hword
    rcases List.mem_append.1 hword with hword | hword
    · exact ihl h.1 word hword
    · rcases List.mem_cons.1 hword with rfl | hword
      · exact whole_operator op
      · exact ihr h.2 word hword
  | paren inner span ih =>
    intro word hword
    rcases List.mem_cons.1 hword with rfl | hword
    · exact whole_sign rfl
    · rcases List.mem_append.1 hword with hword | hword
      · exact ih h word hword
      · rw [List.mem_singleton.1 hword]
        exact whole_sign rfl

theorem Statement.Complete.whole {s : Statement} (h : s.Complete) :
    ∀ word ∈ s.words, Whole word := by
  have hsemicolon : Whole (semicolon, [';']) := whole_sign rfl
  cases s with
  | returned value span =>
    have hkeyword : Whole (returnKeyword, "return".toList) :=
      whole_keyword rfl (by decide) (by decide)
    cases value with
    | none =>
      simp only [words, Option.elim, List.nil_append, List.forall_mem_cons]
      exact ⟨hkeyword, hsemicolon, fun _ hmem => absurd hmem List.not_mem_nil⟩
    | some e =>
      have he : ∀ word ∈ e.words, Whole word := Expr.Complete.whole (h e rfl)
      simp only [words, Option.elim, List.forall_mem_cons, List.forall_mem_append]
      exact ⟨hkeyword, he, hsemicolon, fun _ hmem => absurd hmem List.not_mem_nil⟩
  | declared name init span =>
    have hkeyword : Whole (varKeyword, "var".toList) :=
      whole_keyword rfl (by decide) (by decide)
    have hname : Whole (identifier, name) := whole_of_takes rfl rfl h.1
    cases init with
    | none =>
      simp only [words, Option.elim, List.nil_append, List.forall_mem_cons]
      exact ⟨hkeyword, hname, hsemicolon, fun _ hmem => absurd hmem List.not_mem_nil⟩
    | some e =>
      have he : ∀ word ∈ e.words, Whole word := Expr.Complete.whole (h.2 e rfl)
      simp only [words, Option.elim, List.forall_mem_cons, List.forall_mem_append]
      exact ⟨hkeyword, hname, ⟨whole_sign rfl, he⟩, hsemicolon,
        fun _ hmem => absurd hmem List.not_mem_nil⟩
  | evaluated expr span =>
    have he : ∀ word ∈ expr.words, Whole word := Expr.Complete.whole h
    simp only [words, List.forall_mem_cons, List.forall_mem_append]
    exact ⟨he, hsemicolon, fun _ hmem => absurd hmem List.not_mem_nil⟩

/-! ## Trees for tokens -/

/-- Tokens with the words of an expression spell an expression of its form. -/
theorem exists_spells {e : Expr} {tokens : List Token} (hcomplete : e.Complete)
    (hwords : tokens.map Token.word = e.words) :
    ∃ e' : Expr, e'.Spells tokens ∧ e'.bare = e.bare := by
  induction e generalizing tokens with
  | number text span =>
    obtain ⟨t, rfl, ht⟩ := List.map_eq_singleton_iff.1 hwords
    have htext : t.text = text := congrArg Prod.snd ht
    exact ⟨_, .number (kind_eq_of_word ht), by rw [← htext]; rfl⟩
  | regex pattern flags span =>
    obtain ⟨t, rfl, ht⟩ := List.map_eq_singleton_iff.1 hwords
    exact ⟨_, .regex (kind_eq_of_word ht) (congrArg Prod.snd ht) hcomplete.2.1, rfl⟩
  | ident name span =>
    obtain ⟨t, rfl, ht⟩ := List.map_eq_singleton_iff.1 hwords
    have htext : t.text = name := congrArg Prod.snd ht
    exact ⟨_, .ident (kind_eq_of_word ht), by rw [← htext]; rfl⟩
  | binary op left right span ihl ihr =>
    obtain ⟨a, rest, rfl, ha, hrest⟩ := List.map_eq_append_iff.1 hwords
    obtain ⟨t, b, rfl, ht, hb⟩ := List.map_eq_cons_iff.1 hrest
    obtain ⟨left', hleft, hbareLeft⟩ := ihl hcomplete.1 ha
    obtain ⟨right', hright, hbareRight⟩ := ihr hcomplete.2 hb
    exact ⟨_, .binary hleft ht hright, by rw [Expr.bare, Expr.bare, hbareLeft, hbareRight]⟩
  | paren inner span ih =>
    obtain ⟨first, rest, rfl, hfirst, hrest⟩ := List.map_eq_cons_iff.1 hwords
    obtain ⟨a, tail, rfl, ha, htail⟩ := List.map_eq_append_iff.1 hrest
    obtain ⟨last, rfl, hlast⟩ := List.map_eq_singleton_iff.1 htail
    obtain ⟨inner', hinner, hbare⟩ := ih hcomplete ha
    exact ⟨_, .paren hfirst hinner hlast, by rw [Expr.bare, Expr.bare, hbare]⟩

/-- Tokens with the words of a statement spell a statement of its form. -/
theorem exists_spells_statement {s : Statement} {tokens : List Token} (hcomplete : s.Complete)
    (hwords : tokens.map Token.word = s.words) :
    ∃ s' : Statement, s'.Spells tokens ∧ s'.bare = s.bare := by
  cases s with
  | returned value span =>
    obtain ⟨first, rest, rfl, hfirst, hrest⟩ := List.map_eq_cons_iff.1 hwords
    obtain ⟨a, tail, rfl, ha, htail⟩ := List.map_eq_append_iff.1 hrest
    obtain ⟨last, rfl, hlast⟩ := List.map_eq_singleton_iff.1 htail
    cases value with
    | none =>
      rw [List.map_eq_nil_iff.1 ha]
      exact ⟨_, .returned hfirst hlast, rfl⟩
    | some e =>
      obtain ⟨e', he, hbare⟩ := exists_spells (hcomplete e rfl) ha
      refine ⟨_, .returnedValue hfirst he hlast, ?_⟩
      rw [Statement.bare, Statement.bare, Option.map_some, Option.map_some, hbare]
  | declared name init span =>
    obtain ⟨first, rest, rfl, hfirst, hrest⟩ := List.map_eq_cons_iff.1 hwords
    obtain ⟨named, rest, rfl, hname, hrest⟩ := List.map_eq_cons_iff.1 hrest
    obtain ⟨a, tail, rfl, ha, htail⟩ := List.map_eq_append_iff.1 hrest
    obtain ⟨last, rfl, hlast⟩ := List.map_eq_singleton_iff.1 htail
    have htext : named.text = name := congrArg Prod.snd hname
    rw [← htext]
    cases init with
    | none =>
      rw [List.map_eq_nil_iff.1 ha]
      exact ⟨_, .declared hfirst (kind_eq_of_word hname) hlast, rfl⟩
    | some e =>
      obtain ⟨sign, a, rfl, hsign, ha⟩ := List.map_eq_cons_iff.1 ha
      obtain ⟨e', he, hbare⟩ := exists_spells (hcomplete.2 e rfl) ha
      refine ⟨_, .declaredInit hfirst (kind_eq_of_word hname) hsign he hlast, ?_⟩
      rw [Statement.bare, Statement.bare, Option.map_some, Option.map_some, hbare]
  | evaluated expr span =>
    obtain ⟨a, tail, rfl, ha, htail⟩ := List.map_eq_append_iff.1 hwords
    obtain ⟨last, rfl, hlast⟩ := List.map_eq_singleton_iff.1 htail
    obtain ⟨e', he, hbare⟩ := exists_spells hcomplete ha
    exact ⟨_, .evaluated he hlast, by rw [Statement.bare, Statement.bare, hbare]⟩

theorem exists_spellsAll {body : List Statement} {tokens : List Token}
    (hcomplete : ∀ s ∈ body, s.Complete)
    (hwords : tokens.map Token.word = body.flatMap Statement.words) :
    ∃ body' : List Statement, SpellsAll body' tokens ∧
      body'.map Statement.bare = body.map Statement.bare := by
  induction body generalizing tokens with
  | nil =>
    rw [List.map_eq_nil_iff.1 hwords]
    exact ⟨[], .nil, rfl⟩
  | cons s body ih =>
    rw [List.flatMap_cons] at hwords
    obtain ⟨a, b, rfl, ha, hb⟩ := List.map_eq_append_iff.1 hwords
    obtain ⟨s', hs, hbare⟩ := exists_spells_statement (hcomplete s List.mem_cons_self) ha
    obtain ⟨body', hbody, hbares⟩ := ih (fun s hs => hcomplete s (List.mem_cons_of_mem _ hs)) hb
    exact ⟨s' :: body', .cons hs hbody, by rw [List.map_cons, List.map_cons, hbare, hbares]⟩

/-! ## Completeness -/

/-- What depends on the form of statements only holds of all statements of the same forms. -/
theorem forall_of_map_bare {P : Statement → Prop} (hbare : ∀ s, P s.bare ↔ P s)
    {body body' : List Statement} (hforms : body'.map Statement.bare = body.map Statement.bare)
    (h : ∀ s ∈ body, P s) : ∀ s ∈ body', P s := by
  intro s hs
  have hmem : s.bare ∈ body.map Statement.bare := hforms ▸ List.mem_map_of_mem hs
  obtain ⟨s₀, hs₀, hform⟩ := List.mem_map.1 hmem
  rw [← hbare, ← hform, hbare]
  exact h s₀ hs₀

/-- Statements that are laid out with any trivia between their words are parsed back, each node
with the span of its words. -/
theorem parse_layout {body : List Statement} {tokens : List Token} {source : Text}
    (hgrouped : ∀ s ∈ body, s.Grouped) (hproper : ∀ s ∈ body, s.Proper)
    (hcomplete : ∀ s ∈ body, s.Complete)
    (hwords : tokens.map Token.word = body.flatMap Statement.words)
    (hlayout : Layout [] tokens source) (hlen : byteLength source < 2 ^ 32) :
    ∃ body' : List Statement,
      (parse source).exit = .ok ⟨some (programOf 0 body'), []⟩ ∧
      body'.map Statement.bare = body.map Statement.bare ∧ SpellsAll body' tokens := by
  have hstd : Standard (parser {} .standard) := Standard.of_config {} .standard
  have hwhole : ∀ t ∈ tokens, Whole t.word := by
    intro t ht
    have hmem : t.word ∈ body.flatMap Statement.words := hwords ▸ List.mem_map_of_mem ht
    obtain ⟨s, hs, hword⟩ := List.mem_flatMap.1 hmem
    exact (hcomplete s hs).whole _ hword
  have hskips : Skips (parser {} .standard).scanner := .of_config .standard rfl
  obtain ⟨q, hreads, hrest⟩ := hlayout.reads hskips hwhole
  obtain ⟨body', hspells, hforms⟩ := exists_spellsAll hcomplete hwords
  have hstands : ∀ s ∈ body', s.Grouped ∧ s.Proper := fun s hs =>
    ⟨forall_of_map_bare Statement.grouped_bare hforms hgrouped s hs,
      forall_of_map_bare Statement.proper_bare hforms hproper s hs⟩
  have haccepted : Accepted (parser {} .standard) source tokens q body' :=
    ⟨hreads, hrest, hspells, hstands⟩
  obtain ⟨records, hrun, -⟩ := haccepted.parse hstd hlen (ParserState.start [])
  exact ⟨body', congrArg Run.exit hrun, hforms, hspells⟩

/-- A quotient, with comments on both sides of its sign and a regular expression behind it. -/
theorem parse_layout_quotient :
    ∃ body' : List Statement,
      (parse " a //c\n/ /**//b/\n; ".toList).exit = .ok ⟨some (programOf 0 body'), []⟩ ∧
      body'.map Statement.bare =
        [Statement.evaluated (.binary .div (.ident ['a'] ⟨0, 0⟩) (.regex ['b'] [] ⟨0, 0⟩) ⟨0, 0⟩)
          ⟨0, 0⟩].map Statement.bare ∧
      SpellsAll body'
        [⟨identifier, ['a'], ⟨1, 2⟩⟩, ⟨slash, ['/'], ⟨7, 8⟩⟩,
          ⟨regexLiteral, ['/', 'b', '/'], ⟨13, 16⟩⟩, ⟨semicolon, [';'], ⟨17, 18⟩⟩] := by
  have hleaves : lexicon.Takes identifier ['a'] [] ∧
      lexicon.Takes regexLiteral ['/', 'b', '/'] [] := by
    rw [Lexicon.Takes, Lexicon.Takes]
    decide +kernel
  have hspace : Separator [' '] := ⟨.blank (by decide) .nil, ' ', [], rfl, by decide⟩
  have hline : Separator (' ' :: '/' :: '/' :: (['c'] ++ ['\n'])) :=
    ⟨.blank (by decide) (.line (by decide) .nil), ' ', _, rfl, by decide⟩
  have hblock : Separator (' ' :: '/' :: '*' :: ([] ++ ['*', '/'])) :=
    ⟨.blank (by decide) (.block (by decide) .nil), ' ', _, rfl, by decide⟩
  have hnewline : Separator ['\n'] := ⟨.blank (by decide) .nil, '\n', [], rfl, by decide⟩
  have hsource : " a //c\n/ /**//b/\n; ".toList =
      [' '] ++ (['a'] ++ ((' ' :: '/' :: '/' :: (['c'] ++ ['\n'])) ++ (['/'] ++
        ((' ' :: '/' :: '*' :: ([] ++ ['*', '/'])) ++ (['/', 'b', '/'] ++
          (['\n'] ++ ([';'] ++ [' ']))))))) := by decide
  rw [hsource]
  refine parse_layout ?_ ?_ ?_ rfl ?_ (by decide)
  · intro s hs
    rw [List.mem_singleton.1 hs]
    exact ⟨trivial, trivial, by decide, by decide⟩
  · intro s hs
    rw [List.mem_singleton.1 hs]
    intro word hword
    cases hword
    decide
  · intro s hs
    rw [List.mem_singleton.1 hs]
    exact ⟨hleaves.1, hleaves.2, by decide, by decide⟩
  · exact .cons hspace rfl (.cons hline rfl (.cons hblock rfl (.cons hnewline rfl (.nil hspace))))

end PredictiveParsing.Ecma
