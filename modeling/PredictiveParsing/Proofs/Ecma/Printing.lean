import PredictiveParsing.Proofs.Ecma.Replacing
import PredictiveParsing.Proofs.Ecma.Shifting

/-!
# Parsing what is written

The written form of a program drops its trivia and its parentheses, and puts parentheses around
every operator. It is parsed back to the same operators and leaves. A regular expression that begins
like a block comment is still none in the written form: nothing behind it in the source ended a
comment, so nothing behind it in the written form does.

* `Reads.guarded`: behind what begins like a comment, no token of a source ends one.
* `Expr.Spells.readsAs`, `Statement.Spells.readsAs`: one node read back from its written form.
* `parse_render`: whole programs are parsed back.
-/

namespace PredictiveParsing

open Text

/-- Every token that is read stands in what is in front. -/
theorem Scanner.Reads.text_infix {scanner : Scanner} {p q : Place} {tokens : List Token}
    (h : scanner.Reads p tokens q) {t : Token} (ht : t ∈ tokens) : t.text <:+: p.rest := by
  induction h with
  | nil => cases ht
  | @cons p q u gap rest tokens hrest _ _ _ _ _ ih =>
    rw [hrest, ← List.append_assoc]
    rcases List.mem_cons.1 ht with rfl | ht
    · exact List.infix_append gap t.text rest
    · exact (ih ht).trans (List.suffix_append _ rest).isInfix

namespace Ecma

open PredictiveParsing.Parser Scanner

variable {scanner : Scanner} {before gap rest text : Text} {t : Token}
  {tokens more : List Token}

/-! ## Forms without parentheses -/

/-- The operators and leaves of an expression, without its spans and parentheses. -/
def Expr.core : Expr → Expr
  | .number text _ => .number text ⟨0, 0⟩
  | .regex pattern flags _ => .regex pattern flags ⟨0, 0⟩
  | .ident name _ => .ident name ⟨0, 0⟩
  | .binary op left right _ => .binary op left.core right.core ⟨0, 0⟩
  | .paren inner _ => inner.core

/-- The operators and leaves of a statement, without its spans and parentheses. -/
def Statement.core : Statement → Statement
  | .returned value _ => .returned (value.map Expr.core) ⟨0, 0⟩
  | .declared name init _ => .declared name (init.map Expr.core) ⟨0, 0⟩
  | .evaluated expr _ => .evaluated expr.core ⟨0, 0⟩

/-- An expression with the parentheses of its written form. -/
def Expr.wrapped : Expr → Expr
  | .binary op left right span => .paren (.binary op left.wrapped right.wrapped span) span
  | .paren inner _ => inner.wrapped
  | e => e

/-- A statement with the parentheses of its written form. -/
def Statement.wrapped : Statement → Statement
  | .returned value span => .returned (value.map Expr.wrapped) span
  | .declared name init span => .declared name (init.map Expr.wrapped) span
  | .evaluated expr span => .evaluated expr.wrapped span

theorem Expr.core_bare (e : Expr) : e.bare.core = e.core := by
  induction e with
  | binary op left right span ihl ihr => rw [bare, core, core, ihl, ihr]
  | paren inner span ih => exact ih
  | number text span => rfl
  | regex pattern flags span => rfl
  | ident name span => rfl

theorem Statement.core_bare (s : Statement) : s.bare.core = s.core := by
  have hoption : ∀ value : Option Expr,
      (value.map Expr.bare).map Expr.core = value.map Expr.core := by
    intro value
    rw [Option.map_map]
    exact congrArg (Option.map · value) (funext Expr.core_bare)
  cases s with
  | returned value span => rw [bare, core, core, hoption]
  | declared name init span => rw [bare, core, core, hoption]
  | evaluated expr span => rw [bare, core, core, Expr.core_bare]

theorem Expr.core_wrapped (e : Expr) : e.wrapped.core = e.core := by
  induction e with
  | binary op left right span ihl ihr => rw [wrapped, core, core, core, ihl, ihr]
  | paren inner span ih => exact ih
  | number text span => rfl
  | regex pattern flags span => rfl
  | ident name span => rfl

theorem Statement.core_wrapped (s : Statement) : s.wrapped.core = s.core := by
  have hoption : ∀ value : Option Expr,
      (value.map Expr.wrapped).map Expr.core = value.map Expr.core := by
    intro value
    rw [Option.map_map]
    exact congrArg (Option.map · value) (funext Expr.core_wrapped)
  cases s with
  | returned value span => rw [wrapped, core, core, hoption]
  | declared name init span => rw [wrapped, core, core, hoption]
  | evaluated expr span => rw [wrapped, core, core, Expr.core_wrapped]

theorem Expr.rank_wrapped (e : Expr) : e.wrapped.rank = 0 := by
  induction e with
  | binary op left right span ihl ihr => rfl
  | paren inner span ih => exact ih
  | number text span => rfl
  | regex pattern flags span => rfl
  | ident name span => rfl

theorem Expr.grouped_wrapped (e : Expr) : e.wrapped.Grouped := by
  induction e with
  | binary op left right span ihl ihr =>
    have hpos := op.rank_mem.1
    refine ⟨ihl, ihr, ?_, ?_⟩
    · rw [left.rank_wrapped]
      exact Nat.zero_le _
    · rw [right.rank_wrapped]
      exact hpos
  | paren inner span ih => exact ih
  | number text span => trivial
  | regex pattern flags span => trivial
  | ident name span => trivial

theorem Statement.grouped_wrapped (s : Statement) : s.wrapped.Grouped := by
  have hoption : ∀ (value : Option Expr), ∀ e ∈ value.map Expr.wrapped, e.Grouped := by
    intro value e he
    obtain ⟨e, -, rfl⟩ := Option.map_eq_some_iff.1 he
    exact e.grouped_wrapped
  cases s with
  | returned value span => exact hoption value
  | declared name init span => exact hoption init
  | evaluated expr span => exact expr.grouped_wrapped

/-! ## Where comments are not ended -/

/-- Behind the beginning of a comment, no token holds the end of one. -/
def Guarded : List Token → Prop
  | [] => True
  | t :: tokens =>
    (['/', '*'] <+: t.text → Unclosed (t.text.drop 2) ∧ ∀ u ∈ tokens, Unclosed u.text) ∧
      Guarded tokens

theorem Guarded.of_append {a b : List Token} (h : Guarded (a ++ b)) : Guarded b := by
  induction a with
  | nil => exact h
  | cons t a ih => exact ih h.2

theorem Unclosed.of_infix {a : Text} (h : Unclosed text) (ha : a <:+: text) : Unclosed a :=
  fun hinside => h (hinside.trans ha)

/-- Nothing ends a comment where two texts meet, unless the second begins with a slash. -/
theorem Unclosed.append {a b : Text} (ha : Unclosed a) (hb : Unclosed b)
    (hslash : b.head? ≠ some '/') : Unclosed (a ++ b) := by
  induction a with
  | nil => exact hb
  | cons c a ih =>
    obtain ⟨hend, ha⟩ := unclosed_cons.1 ha
    rw [List.cons_append]
    exact unclosed_cons.2
      ⟨fun hbegins => hend (prefix_of_append (List.cons_ne_nil c a) hslash hbegins), ih ha⟩

theorem Unclosed.cons {c : Char} (hc : c ≠ '*') (h : Unclosed text) : Unclosed (c :: text) :=
  unclosed_cons.2 ⟨fun hend => hc (List.cons_prefix_cons.1 hend).1.symm, h⟩

/-- Nothing ends a comment where a text without asterisks stands in front. -/
theorem Unclosed.append_of_not_mem {a b : Text} (ha : '*' ∉ a) (hb : Unclosed b) :
    Unclosed (a ++ b) := by
  induction a with
  | nil => exact hb
  | cons c a ih =>
    rw [List.mem_cons, not_or] at ha
    exact .cons (Ne.symm ha.1) (ih ha.2)

/-- Where a source is read, what begins like a comment is not ended. -/
theorem Reads.guarded {p q : Place} (hskips : Skips scanner) (h : scanner.Reads p tokens q) :
    Guarded tokens := by
  induction h with
  | nil => trivial
  | @cons p q t gap rest tokens hrest hgap htakes _ _ hmore ih =>
    refine ⟨fun hopen => ?_, ih⟩
    have hsolid := (trivia_of_gap hskips hgap (by simp [htakes.ne_nil])).2
    obtain ⟨body, htext⟩ := hopen
    rw [← htext] at hsolid ⊢
    have hunclosed : Unclosed (body ++ rest) := hsolid.2.2 ⟨body ++ rest, rfl⟩
    refine ⟨hunclosed.of_append, fun u hu => hunclosed.of_infix ?_⟩
    exact (hmore.text_infix hu).trans (List.suffix_append body rest).isInfix

/-! ## Words in front of punctuation -/

/-- A blank, a parenthesis that closes or a semicolon stands in front. -/
def Follows (rest : Text) : Prop := ∃ c more, rest = c :: more ∧ c ∈ [' ', ')', ';']

theorem Follows.head?_ne (h : Follows rest) {c : Char} (hc : c ∉ [' ', ')', ';']) :
    rest.head? ≠ some c := by
  obtain ⟨d, more, rfl, hd⟩ := h
  intro hhead
  rw [List.head?_cons, Option.some_inj] at hhead
  exact hc (hhead ▸ hd)

theorem Follows.clear (h : Follows rest) {shape : Shape} (hshape : shape ∈ shapes) :
    shape.more.Clear rest := by
  have hall : (shapes.all fun shape => [' ', ')', ';'].all (!shape.more.mem ·)) = true := by decide
  obtain ⟨c, more, rfl, hc⟩ := h
  have hmore := List.all_eq_true.1 (List.all_eq_true.1 hall shape hshape) c hc
  rw [Bool.not_eq_true'] at hmore
  exact CharClass.clear_cons.2 hmore

/-- Between two texts, a text is read as tokens. -/
def ReadsAs (scanner : Scanner) (before text rest : Text) (tokens : List Token) : Prop :=
  scanner.Reads ⟨before, text ++ rest⟩ tokens ⟨before ++ text, rest⟩

theorem ReadsAs.append {a b : Text} {ta tb : List Token} (ha : ReadsAs scanner before a text ta)
    (htext : text = b ++ rest) (hb : ReadsAs scanner (before ++ a) b rest tb) :
    ReadsAs scanner before (a ++ b) rest (ta ++ tb) := by
  unfold ReadsAs at ha hb ⊢
  rw [htext] at ha
  rw [List.append_assoc, ← List.append_assoc before]
  exact ha.append hb

/-- Trivia in front of a text is passed over. -/
theorem ReadsAs.prepend (hskips : Skips scanner) (hgap : Trivia gap) (hne : tokens ≠ [])
    (h : ReadsAs scanner (before ++ gap) text rest tokens) :
    ReadsAs scanner before (gap ++ text) rest tokens := by
  obtain ⟨t, tokens, rfl⟩ := List.exists_cons_of_ne_nil hne
  unfold ReadsAs at h ⊢
  rw [List.append_assoc gap, ← List.append_assoc before]
  exact Reads.prepend_cons hskips hgap h

section

variable {id : KindId} {shape : Shape} {word : Text}

theorem exists_readsAs_word (hskips : Skips scanner) (hshape : shapeOf id = some shape)
    (hword : shape.Word word) (hclear : shape.more.Clear rest) (hsolid : Solid (word ++ rest))
    (before : Text) :
    ∃ t : Token, t.word = (id, word) ∧ ReadsAs scanner before word rest [t] := by
  have hgap : scanner.Gap [] (word ++ rest) := gap_of_trivia hskips .nil hsolid
  have htakes : scanner.lexicon.Takes id word rest := by
    rw [hskips.lexicon_eq]
    exact takes_of_word hshape hword hclear
  refine ⟨tokenOf id before word, rfl, ?_⟩
  have hreads : scanner.Reads ⟨before, [] ++ (word ++ rest)⟩ [tokenOf id before word]
      ⟨before ++ [] ++ word, rest⟩ := by
    refine .cons rfl hgap htakes ?_ ?_ .nil
    · rw [List.append_nil]
      rfl
    · rw [List.append_nil, byteLength_append]
      rfl
  rw [List.append_nil] at hreads
  exact hreads

/-- A word in front of punctuation is read. -/
theorem exists_readsAs (hskips : Skips scanner) (hshape : shapeOf id = some shape)
    (hword : shape.Word word) (hfollows : Follows rest)
    (hopen : ['/', '*'] <+: word → Unclosed (word.drop 2) ∧ Unclosed rest) (before : Text) :
    ∃ t : Token, t.word = (id, word) ∧ ReadsAs scanner before word rest [t] := by
  refine exists_readsAs_word hskips hshape hword (hfollows.clear (mem_shapes hshape)) ?_ before
  refine solid_of_word hshape hword (hfollows.head?_ne (by decide)) (hfollows.head?_ne (by decide))
    fun hbegins => ?_
  obtain ⟨hword, hrest⟩ := hopen hbegins
  exact hword.append hrest (hfollows.head?_ne (by decide))

/-- A sign that is not a slash is read whatever follows it. -/
theorem exists_readsAs_sign (hskips : Skips scanner) {c : Char}
    (hshape : shapeOf id = some (.sign c)) (hc : c ≠ '/') (before rest : Text) :
    ∃ t : Token, t.word = (id, [c]) ∧ ReadsAs scanner before [c] rest [t] := by
  have hblank : blank.mem c = false := by
    have hfirst := (blank_disjoint (mem_shapes hshape)).1
    cases hblank : blank.mem c with
    | false => rfl
    | true =>
      have hother := CharClass.mem_eq_false_of_disjoint hfirst hblank
      rw [Shape.first, CharClass.mem_singleton.2 rfl] at hother
      cases hother
  have hslash : ∀ d, ¬ ['/', d] <+: c :: rest :=
    fun d hbegins => hc (List.cons_prefix_cons.1 hbegins).1.symm
  refine exists_readsAs_word hskips hshape rfl ?_ ⟨hblank, hslash '/', ?_⟩ before
  · cases rest with
    | nil => exact CharClass.clear_nil
    | cons d rest => exact CharClass.clear_cons.2 rfl
  · exact fun hbegins => absurd hbegins (hslash '*')

end

/-! ## Expressions -/

/-- A token is a word of the shape of its kind. -/
def IsWord (t : Token) : Prop := ∃ shape, shapeOf t.kind = some shape ∧ shape.Word t.text

theorem Expr.render_binary (op : BinaryOp) (left right : Expr) (span : Span) :
    (binary op left right span).render =
      ['('] ++ (left.render ++ ([' ', op.sign] ++ (([' '] ++ right.render) ++ [')']))) := by
  simp [render]

theorem unclosed_operator (op : BinaryOp) (h : Unclosed text) :
    Unclosed (' ' :: op.sign :: ' ' :: text) := by
  refine .cons (by decide) (unclosed_cons.2 ⟨?_, .cons (by decide) h⟩)
  simp [List.cons_prefix_cons]

/-- The written form of an expression ends no comment if none of its tokens does. -/
theorem Expr.Spells.unclosed_render {e : Expr} (h : e.Spells tokens)
    (htokens : ∀ t ∈ tokens, Unclosed t.text) (hslash : rest.head? ≠ some '/')
    (hrest : Unclosed rest) : Unclosed (e.render ++ rest) := by
  induction h generalizing rest with
  | number hkind => exact (htokens _ List.mem_cons_self).append hrest hslash
  | regex hkind htext hflags =>
    have hword := htokens _ List.mem_cons_self
    rw [htext] at hword
    exact hword.append hrest hslash
  | ident hkind => exact (htokens _ List.mem_cons_self).append hrest hslash
  | @binary op left right a b t hleft hop hright ihl ihr =>
    obtain ⟨ha, hb⟩ := List.forall_mem_append.1 htokens
    have hclose : Unclosed (')' :: rest) := .cons (by decide) hrest
    have hright := ihr (fun u hu => hb u (List.mem_cons_of_mem t hu)) (by simp) hclose
    have hleft := ihl ha (by simp) (unclosed_operator op hright)
    rw [render_binary]
    simpa using Unclosed.cons (c := '(') (by decide) hleft
  | @paren inner a first last hfirst hinner hlast ih =>
    exact ih (fun u hu => htokens u (by simp [hu])) hslash hrest

theorem trivia_space : Trivia [' '] := .blank (by decide) .nil

/-- A sign of an operator is read between two spaces. -/
theorem exists_readsAs_operator (hskips : Skips scanner) (op : BinaryOp) (before text : Text) :
    ∃ t : Token, t.word = op.word ∧ ReadsAs scanner before [' ', op.sign] (' ' :: text) [t] := by
  have hshape : shapeOf op.kind = some (.sign op.sign) := by cases op <;> rfl
  have hfollows : Follows (' ' :: text) := ⟨' ', text, rfl, by decide⟩
  obtain ⟨t, hword, hreads⟩ := exists_readsAs hskips hshape rfl hfollows
    (by simp [List.cons_prefix_cons]) (before ++ [' '])
  exact ⟨t, hword, hreads.prepend hskips trivia_space (List.cons_ne_nil _ _)⟩

/-- A token is read back in front of punctuation. -/
theorem exists_readsAs_token (hskips : Skips scanner) (ht : IsWord t)
    (hguarded : Guarded (t :: more)) (hfollows : Follows rest)
    (hrest : (∀ u ∈ more, Unclosed u.text) → Unclosed rest) (before : Text) :
    ∃ t' : Token, t'.word = t.word ∧ ReadsAs scanner before t.text rest [t'] := by
  obtain ⟨shape, hshape, hword⟩ := ht
  refine exists_readsAs hskips hshape hword hfollows (fun hopen => ?_) before
  obtain ⟨hbody, hmore⟩ := hguarded.1 hopen
  exact ⟨hbody, hrest hmore⟩

/-- The written form of an expression is read as an expression of the form with the parentheses that
are written. -/
theorem Expr.Spells.readsAs (hskips : Skips scanner) {e : Expr} (h : e.Spells tokens)
    (hwords : ∀ t ∈ tokens, IsWord t) (hguarded : Guarded (tokens ++ more))
    (hfollows : Follows rest)
    (hrest : (∀ u ∈ more, Unclosed u.text) → Unclosed rest) (before : Text) :
    ∃ (tokens' : List Token) (e' : Expr), e'.Spells tokens' ∧ e'.bare = e.wrapped.bare ∧
      ReadsAs scanner before e.render rest tokens' := by
  induction h generalizing more rest before with
  | @number t hkind =>
    obtain ⟨t', hword, hreads⟩ :=
      exists_readsAs_token hskips (hwords t List.mem_cons_self) hguarded hfollows hrest before
    have htext : t'.text = t.text := congrArg Prod.snd hword
    refine ⟨[t'], _, .number ((kind_eq_of_word hword).trans hkind), ?_, hreads⟩
    rw [← htext]
    rfl
  | @regex t pattern flags hkind htext hflags =>
    obtain ⟨t', hword, hreads⟩ :=
      exists_readsAs_token hskips (hwords t List.mem_cons_self) hguarded hfollows hrest before
    have htext' : t'.text = t.text := congrArg Prod.snd hword
    rw [htext] at hreads
    exact ⟨[t'], _, .regex ((kind_eq_of_word hword).trans hkind) (htext'.trans htext) hflags, rfl,
      hreads⟩
  | @ident t hkind =>
    obtain ⟨t', hword, hreads⟩ :=
      exists_readsAs_token hskips (hwords t List.mem_cons_self) hguarded hfollows hrest before
    have htext : t'.text = t.text := congrArg Prod.snd hword
    refine ⟨[t'], _, .ident ((kind_eq_of_word hword).trans hkind), ?_, hreads⟩
    rw [← htext]
    rfl
  | @binary op left right a b t hleft hop hright ihl ihr =>
    obtain ⟨hwordsLeft, hwordsBehind⟩ := List.forall_mem_append.1 hwords
    have hwordsRight := (List.forall_mem_cons.1 hwordsBehind).2
    rw [List.append_assoc, List.cons_append] at hguarded
    have hguardedRight : Guarded (b ++ more) := hguarded.of_append.2
    have hend : Follows (')' :: rest) := ⟨')', rest, rfl, by decide⟩
    have hclosed : (∀ u ∈ more, Unclosed u.text) → Unclosed (')' :: rest) :=
      fun hmore => .cons (by decide) (hrest hmore)
    -- Behind the left operand, nothing ends a comment if no token of the right operand does.
    let tail := ' ' :: op.sign :: ' ' :: (right.render ++ ')' :: rest)
    have htail : (∀ u ∈ t :: (b ++ more), Unclosed u.text) → Unclosed tail := by
      intro hall
      obtain ⟨hb, hmore⟩ := List.forall_mem_append.1 (List.forall_mem_cons.1 hall).2
      exact unclosed_operator op (hright.unclosed_render hb (by simp) (hclosed hmore))
    have hshapeOpen : shapeOf leftParen = some (.sign '(') := rfl
    have hshapeClose : shapeOf rightParen = some (.sign ')') := rfl
    obtain ⟨first, hfirst, hopen⟩ :=
      exists_readsAs_sign hskips hshapeOpen (by decide) before (left.render ++ tail)
    obtain ⟨a', left', hleft', hformLeft, hreadsLeft⟩ := ihl hwordsLeft hguarded
      ⟨' ', _, rfl, by decide⟩ htail (before ++ ['('])
    obtain ⟨sign, hsign, hoperator⟩ := exists_readsAs_operator hskips op
      (before ++ ['('] ++ left.render) (right.render ++ ')' :: rest)
    obtain ⟨b', right', hright', hformRight, hreadsRight⟩ := ihr hwordsRight hguardedRight hend
      hclosed (before ++ ['('] ++ left.render ++ [' ', op.sign] ++ [' '])
    have hspaced := hreadsRight.prepend hskips trivia_space hright'.ne_nil
    obtain ⟨last, hlast, hclose⟩ := exists_readsAs_sign hskips hshapeClose (by decide)
      (before ++ ['('] ++ left.render ++ [' ', op.sign] ++ ([' '] ++ right.render)) rest
    have hreads := hopen.append (by simp [tail]) (hreadsLeft.append (by simp)
      (hoperator.append (by simp) (hspaced.append rfl hclose)))
    rw [← render_binary op left right (Scanner.cover (a ++ t :: b))] at hreads
    refine ⟨first :: ((a' ++ sign :: b') ++ [last]), _,
      .paren hfirst (.binary hleft' hsign hright') hlast, ?_, ?_⟩
    · rw [Expr.bare, Expr.bare, hformLeft, hformRight]
      rfl
    · simpa using hreads
  | @paren inner a first last hfirst hinner hlast ih =>
    rw [List.cons_append, List.append_assoc] at hguarded
    exact ih (fun u hu => hwords u (by simp [hu])) hguarded.2 hfollows
      (fun hmore => hrest fun u hu => hmore u (List.mem_cons_of_mem last hu)) before

/-! ## Statements -/

theorem Statement.render_return (span : Span) :
    (returned none span).render = "return".toList ++ [';'] := by
  have hkeyword : "return;".toList = "return".toList ++ [';'] := by decide
  exact hkeyword

theorem Statement.render_returned (value : Expr) (span : Span) :
    (returned (some value) span).render =
      "return".toList ++ (([' '] ++ value.render) ++ [';']) := by
  have hkeyword : "return ".toList = "return".toList ++ [' '] := by decide
  show "return ".toList ++ value.render ++ [';'] = _
  rw [hkeyword]
  simp only [List.append_assoc]

theorem Statement.render_declared (name : Text) (span : Span) :
    (declared name none span).render = "var".toList ++ (([' '] ++ name) ++ [';']) := by
  have hkeyword : "var ".toList = "var".toList ++ [' '] := by decide
  show "var ".toList ++ name ++ [';'] = _
  rw [hkeyword]
  simp only [List.append_assoc]

theorem Statement.render_declared_some (name : Text) (init : Expr) (span : Span) :
    (declared name (some init) span).render =
      "var".toList ++ (([' '] ++ name) ++
        (([' '] ++ ['=']) ++ (([' '] ++ init.render) ++ [';']))) := by
  have hkeyword : "var ".toList = "var".toList ++ [' '] := by decide
  have hsign : " = ".toList = [' '] ++ ['='] ++ [' '] := by decide
  show "var ".toList ++ name ++ " = ".toList ++ init.render ++ [';'] = _
  rw [hkeyword, hsign]
  simp only [List.append_assoc]

theorem Statement.render_evaluated (expr : Expr) (span : Span) :
    (evaluated expr span).render = expr.render ++ [';'] := rfl

/-- The written form of a statement ends no comment if none of its tokens does. -/
theorem Statement.Spells.unclosed_render {s : Statement} (h : s.Spells tokens)
    (htokens : ∀ t ∈ tokens, Unclosed t.text) (hrest : Unclosed rest) :
    Unclosed (s.render ++ rest) := by
  have hend : Unclosed (';' :: rest) := .cons (by decide) hrest
  have hvalue : ∀ {e : Expr} {a : List Token}, e.Spells a → (∀ t ∈ a, Unclosed t.text) →
      Unclosed (' ' :: (e.render ++ ';' :: rest)) :=
    fun he ha => .cons (by decide) (he.unclosed_render ha (by simp) hend)
  cases h with
  | returned hfirst hlast =>
    rw [render_return, List.append_assoc]
    exact Unclosed.append_of_not_mem (by decide) hend
  | returnedValue hfirst he hlast =>
    have ha := (List.forall_mem_append.1 (List.forall_mem_cons.1 htokens).2).1
    rw [render_returned, List.append_assoc]
    refine Unclosed.append_of_not_mem (by decide) ?_
    simpa using hvalue he ha
  | @declared first name last hfirst hname hlast =>
    have hword : Unclosed name.text := htokens name (by simp)
    rw [render_declared, List.append_assoc]
    refine Unclosed.append_of_not_mem (by decide) ?_
    simpa using Unclosed.cons (c := ' ') (by decide) (hword.append hend (by simp))
  | @declaredInit e a first name sign last hfirst hname hsign he hlast =>
    have hword : Unclosed name.text := htokens name (by simp)
    have ha : ∀ t ∈ a, Unclosed t.text := fun t ht => htokens t (by simp [ht])
    have hinit : Unclosed (' ' :: '=' :: ' ' :: (e.render ++ ';' :: rest)) :=
      .cons (by decide) (.cons (by decide) (hvalue he ha))
    rw [render_declared_some, List.append_assoc]
    refine Unclosed.append_of_not_mem (by decide) ?_
    simpa using Unclosed.cons (c := ' ') (by decide) (hword.append hinit (by simp))
  | evaluated he hlast =>
    have ha := (List.forall_mem_append.1 htokens).1
    rw [render_evaluated, List.append_assoc]
    exact he.unclosed_render ha (by simp) hend

theorem exists_readsAs_keyword (hskips : Skips scanner) {id : KindId} {word : Text}
    (hshape : shapeOf id = some (.keyword word)) (hne : word ≠ [])
    (hopen : ¬ ['/', '*'] <+: word) (hfollows : Follows rest) (before : Text) :
    ∃ t : Token, t.word = (id, word) ∧ ReadsAs scanner before word rest [t] :=
  exists_readsAs hskips hshape ⟨rfl, hne⟩ hfollows (fun hbegins => absurd hbegins hopen) before

theorem exists_readsAs_return (hskips : Skips scanner) (hfollows : Follows rest) (before : Text) :
    ∃ t : Token, t.word = (returnKeyword, "return".toList) ∧
      ReadsAs scanner before "return".toList rest [t] := by
  have hshape : shapeOf returnKeyword = some (.keyword "return".toList) := rfl
  exact exists_readsAs_keyword hskips hshape (by decide) (by decide) hfollows before

theorem exists_readsAs_var (hskips : Skips scanner) (hfollows : Follows rest) (before : Text) :
    ∃ t : Token, t.word = (varKeyword, "var".toList) ∧
      ReadsAs scanner before "var".toList rest [t] := by
  have hshape : shapeOf varKeyword = some (.keyword "var".toList) := rfl
  exact exists_readsAs_keyword hskips hshape (by decide) (by decide) hfollows before

theorem exists_readsAs_semicolon (hskips : Skips scanner) (before rest : Text) :
    ∃ t : Token, t.word = (semicolon, [';']) ∧ ReadsAs scanner before [';'] rest [t] := by
  have hshape : shapeOf semicolon = some (.sign ';') := rfl
  exact exists_readsAs_sign hskips hshape (by decide) before rest

theorem follows_semicolon (rest : Text) : Follows (';' :: rest) := ⟨';', rest, rfl, by decide⟩

theorem follows_space (rest : Text) : Follows (' ' :: rest) := ⟨' ', rest, rfl, by decide⟩

/-- The expression of a statement is read back behind a space and in front of its semicolon. -/
theorem Expr.Spells.readsAs_value (hskips : Skips scanner) {e : Expr} (h : e.Spells tokens)
    (hwords : ∀ t ∈ tokens, IsWord t) {last : Token} (hguarded : Guarded (tokens ++ last :: more))
    (hrest : (∀ u ∈ more, Unclosed u.text) → Unclosed rest) (before : Text) :
    ∃ (tokens' : List Token) (e' : Expr), e'.Spells tokens' ∧ e'.bare = e.wrapped.bare ∧
      ReadsAs scanner before ([' '] ++ e.render) (';' :: rest) tokens' := by
  obtain ⟨tokens', e', he', hform, hreads⟩ := h.readsAs hskips hwords hguarded
    (follows_semicolon rest)
    (fun hmore => .cons (by decide) (hrest (List.forall_mem_cons.1 hmore).2)) (before ++ [' '])
  exact ⟨tokens', e', he', hform, hreads.prepend hskips trivia_space he'.ne_nil⟩

/-- A name is read back behind a space and in front of punctuation. -/
theorem exists_readsAs_name (hskips : Skips scanner) (hname : t.kind = identifier) (ht : IsWord t)
    (hfollows : Follows rest) (before : Text) :
    ∃ t' : Token, t'.kind = identifier ∧ t'.text = t.text ∧
      ReadsAs scanner before ([' '] ++ t.text) rest [t'] := by
  obtain ⟨shape, hshape, hword⟩ := ht
  have hopen : ¬ ['/', '*'] <+: t.text := by
    intro hbegins
    have hkind := kind_eq_regex hshape hword hbegins
    rw [hname] at hkind
    cases hkind
  obtain ⟨t', ht', hreads⟩ := exists_readsAs hskips hshape hword hfollows
    (fun hbegins => absurd hbegins hopen) (before ++ [' '])
  exact ⟨t', (kind_eq_of_word ht').trans hname, congrArg Prod.snd ht',
    hreads.prepend hskips trivia_space (List.cons_ne_nil _ _)⟩

/-- The written form of a statement is read as a statement of the form with the parentheses that are
written. -/
theorem Statement.Spells.readsAs (hskips : Skips scanner) {s : Statement} (h : s.Spells tokens)
    (hwords : ∀ t ∈ tokens, IsWord t) (hguarded : Guarded (tokens ++ more))
    (hrest : (∀ u ∈ more, Unclosed u.text) → Unclosed rest) (before : Text) :
    ∃ (tokens' : List Token) (s' : Statement), s'.Spells tokens' ∧ s'.bare = s.wrapped.bare ∧
      ReadsAs scanner before s.render rest tokens' := by
  cases h with
  | returned _ _ =>
    obtain ⟨first, hfirst, hkeyword⟩ :=
      exists_readsAs_return hskips (follows_semicolon rest) before
    obtain ⟨last, hlast, hclose⟩ :=
      exists_readsAs_semicolon hskips (before ++ "return".toList) rest
    refine ⟨[first, last], _, .returned hfirst hlast, rfl, ?_⟩
    rw [render_return]
    exact hkeyword.append rfl hclose
  | @returnedValue e a _ last _ he _ =>
    rw [List.cons_append, List.append_assoc] at hguarded
    obtain ⟨first, hfirst, hkeyword⟩ :=
      exists_readsAs_return hskips (follows_space (e.render ++ ';' :: rest)) before
    obtain ⟨a', e', he', hform, hreads⟩ := he.readsAs_value hskips
      (fun t ht => hwords t (by simp [ht])) hguarded.2 hrest (before ++ "return".toList)
    obtain ⟨last, hlast, hclose⟩ :=
      exists_readsAs_semicolon hskips (before ++ "return".toList ++ ([' '] ++ e.render)) rest
    refine ⟨first :: (a' ++ [last]), _, .returnedValue hfirst he' hlast, ?_, ?_⟩
    · simp only [bare, wrapped, Option.map_some, hform]
    · rw [render_returned]
      exact hkeyword.append (by simp) (hreads.append rfl hclose)
  | @declared _ name last _ hname _ =>
    obtain ⟨first, hfirst, hkeyword⟩ :=
      exists_readsAs_var hskips (follows_space (name.text ++ ';' :: rest)) before
    obtain ⟨name', hname', htext, hreads⟩ := exists_readsAs_name hskips hname
      (hwords name (by simp)) (follows_semicolon rest) (before ++ "var".toList)
    obtain ⟨last, hlast, hclose⟩ :=
      exists_readsAs_semicolon hskips (before ++ "var".toList ++ ([' '] ++ name.text)) rest
    refine ⟨[first, name', last], _, .declared hfirst hname' hlast, ?_, ?_⟩
    · rw [← htext]
      rfl
    · rw [render_declared]
      exact hkeyword.append (by simp) (hreads.append rfl hclose)
  | @declaredInit e a _ name sign last _ hname hsign he _ =>
    simp only [List.cons_append, List.append_assoc] at hguarded
    let tail := ' ' :: (e.render ++ ';' :: rest)
    let front := before ++ "var".toList ++ ([' '] ++ name.text)
    obtain ⟨first, hfirst, hkeyword⟩ :=
      exists_readsAs_var hskips (follows_space (name.text ++ (' ' :: '=' :: tail))) before
    obtain ⟨name', hname', htext, hreadsName⟩ := exists_readsAs_name hskips hname
      (hwords name (by simp)) (follows_space ('=' :: tail)) (before ++ "var".toList)
    have hshape : shapeOf equals = some (.sign '=') := rfl
    obtain ⟨sign', hsign', hreadsSign⟩ :=
      exists_readsAs_sign hskips hshape (by decide) (front ++ [' ']) tail
    have hspaced := hreadsSign.prepend hskips trivia_space (List.cons_ne_nil _ _)
    obtain ⟨a', e', he', hform, hreads⟩ := he.readsAs_value hskips
      (fun t ht => hwords t (by simp [ht])) hguarded.2.2.2 hrest (front ++ ([' '] ++ ['=']))
    obtain ⟨last, hlast, hclose⟩ := exists_readsAs_semicolon hskips
      (front ++ ([' '] ++ ['=']) ++ ([' '] ++ e.render)) rest
    refine ⟨first :: name' :: sign' :: (a' ++ [last]), _,
      .declaredInit hfirst hname' hsign' he' hlast, ?_, ?_⟩
    · simp only [bare, wrapped, Option.map_some, hform, htext]
    · rw [render_declared_some]
      exact hkeyword.append (by simp [tail]) (hreadsName.append (by simp [tail])
        (hspaced.append (by simp [tail]) (hreads.append rfl hclose)))
  | @evaluated e a last he _ =>
    rw [List.append_assoc] at hguarded
    obtain ⟨a', e', he', hform, hreads⟩ := he.readsAs hskips (fun t ht => hwords t (by simp [ht]))
      hguarded (follows_semicolon rest)
      (fun hmore => .cons (by decide) (hrest (List.forall_mem_cons.1 hmore).2)) before
    obtain ⟨last, hlast, hclose⟩ := exists_readsAs_semicolon hskips (before ++ e.render) rest
    refine ⟨a' ++ [last], _, .evaluated he' hlast, ?_, hreads.append rfl hclose⟩
    rw [bare, wrapped, bare, hform]

/-! ## Names as statements -/

/-- Where the written form of an expression begins with a name, the expression is that name. -/
theorem Expr.Spells.core_of_head {e : Expr} (h : e.Spells tokens) (hwords : ∀ t ∈ tokens, IsWord t)
    {word : KindId × Text} (hhead : word ∈ e.wrapped.words.head?) {c : Char}
    (hc : wordStart.mem c = true) (hname : word.2.head? = some c) :
    e.core = .ident word.2 ⟨0, 0⟩ := by
  induction h with
  | @number t hkind =>
    obtain ⟨shape, hshape, hword⟩ := hwords t List.mem_cons_self
    rw [hkind] at hshape
    cases hshape
    cases hhead
    have hdigit : wordStart.disjoint digit = true := by decide
    exact absurd hname
      (head?_ne_of_word hword (CharClass.mem_eq_false_of_disjoint hdigit hc))
  | regex hkind htext hflags =>
    cases hhead
    cases hname
    cases hc
  | ident hkind =>
    cases hhead
    rfl
  | binary hleft hop hright _ _ =>
    cases hhead
    cases hname
    cases hc
  | paren hfirst hinner hlast ih => exact ih (fun t ht => hwords t (by simp [ht])) hhead

/-- No statement begins with a keyword in its written form, except a keyword in parentheses. -/
theorem Statement.Spells.proper_wrapped {s : Statement} (h : s.Spells tokens)
    (hwords : ∀ t ∈ tokens, IsWord t) (hproper : s.Proper)
    (hnames : ∀ inner span span', s = .evaluated (.paren inner span) span' →
      inner.core ≠ .ident "return".toList ⟨0, 0⟩ ∧ inner.core ≠ .ident "var".toList ⟨0, 0⟩) :
    s.wrapped.Proper := by
  cases h with
  | returned _ _ => trivial
  | returnedValue _ _ _ => trivial
  | declared _ _ _ => trivial
  | declaredInit _ _ _ _ _ => trivial
  | evaluated he hlast =>
    cases he with
    | number _ => exact hproper
    | regex _ _ _ => exact hproper
    | ident _ => exact hproper
    | binary _ _ _ =>
      intro word hword
      cases hword
      exact ⟨by decide, by decide⟩
    | @paren inner a first last hfirst hinner hclose =>
      intro word hhead
      obtain ⟨hreturn, hvar⟩ := hnames _ _ _ rfl
      have hcore : ∀ {c : Char}, wordStart.mem c = true → word.2.head? = some c →
          inner.core = .ident word.2 ⟨0, 0⟩ :=
        hinner.core_of_head (fun t ht => hwords t (by simp [ht])) hhead
      constructor
      · intro htext
        exact hreturn (htext ▸ hcore (c := 'r') (by decide) (by rw [htext]; decide))
      · intro htext
        exact hvar (htext ▸ hcore (c := 'v') (by decide) (by rw [htext]; decide))

/-! ## Programs -/

/-- The written forms of statements, with a line feed between them. -/
def renderAll (body : List Statement) : Text := ['\n'].intercalate (body.map Statement.render)

theorem renderAll_cons (s : Statement) (body : List Statement) :
    ∃ gap, Trivia gap ∧ '*' ∉ gap ∧
      renderAll (s :: body) = s.render ++ (gap ++ renderAll body) := by
  cases body with
  | nil => exact ⟨[], .nil, by simp, by simp [renderAll, List.intercalate]⟩
  | cons s' body =>
    exact ⟨['\n'], .blank (by decide) .nil, by decide, by simp [renderAll, List.intercalate]⟩

theorem SpellsAll.unclosed_renderAll {body : List Statement} (h : SpellsAll body tokens)
    (htokens : ∀ t ∈ tokens, Unclosed t.text) : Unclosed (renderAll body) := by
  induction h with
  | nil => exact unclosed_nil
  | @cons s body a b hs _ ih =>
    obtain ⟨ha, hb⟩ := List.forall_mem_append.1 htokens
    obtain ⟨gap, -, hstar, htext⟩ := renderAll_cons s body
    rw [htext]
    exact hs.unclosed_render ha (.append_of_not_mem hstar (ih hb))

/-- The written form of a program is read as statements of the forms with the parentheses that are
written. -/
theorem SpellsAll.reads_renderAll (hskips : Skips scanner) {body : List Statement}
    (h : SpellsAll body tokens) (hwords : ∀ t ∈ tokens, IsWord t) (hguarded : Guarded tokens)
    (before : Text) :
    ∃ (tokens' : List Token) (body' : List Statement) (q : Place), SpellsAll body' tokens' ∧
      body'.map Statement.bare = (body.map Statement.wrapped).map Statement.bare ∧
      scanner.Reads ⟨before, renderAll body⟩ tokens' q ∧ (scanner.behind q).rest = [] := by
  induction h generalizing before with
  | nil =>
    obtain ⟨gap, rest, hrest, -, hbehind⟩ := scanner.exists_behind ⟨before, renderAll []⟩
    refine ⟨[], [], _, .nil, rfl, .nil, ?_⟩
    rw [hbehind]
    exact (List.append_eq_nil_iff.1 hrest.symm).2
  | @cons s body a b hs hbody ih =>
    obtain ⟨ha, hb⟩ := List.forall_mem_append.1 hwords
    obtain ⟨gap, hgap, hstar, htext⟩ := renderAll_cons s body
    obtain ⟨a', s', hs', hform, hfirst⟩ := hs.readsAs hskips ha hguarded
      (fun hmore => .append_of_not_mem hstar (hbody.unclosed_renderAll hmore)) before
    obtain ⟨b', body', q, hbody', hforms, hreads, hend⟩ :=
      ih hb hguarded.of_append (before ++ s.render ++ gap)
    obtain ⟨q', hreads', hbehind⟩ := Reads.prepend hskips hgap hreads
    refine ⟨a' ++ b', s' :: body', q', .cons hs' hbody', ?_, ?_, ?_⟩
    · rw [List.map_cons, List.map_cons, List.map_cons, hform, hforms]
    · rw [htext]
      exact Scanner.Reads.append hfirst hreads'
    · rw [hbehind]
      exact hend

/-- The statements of a program, written one behind the other, are parsed back to the same operators
and leaves, and the tokens of the written form are their words with the parentheses of the written
form. Only a keyword in parentheses that is a statement of its own is not parsed back. -/
theorem parse_render {source : Text} {program : Program} {errors : List ParseError}
    (h : (parse source).exit = .ok ⟨some program, errors⟩)
    (hnames : ∀ inner span span', .evaluated (.paren inner span) span' ∈ program.body →
      inner.core ≠ .ident "return".toList ⟨0, 0⟩ ∧ inner.core ≠ .ident "var".toList ⟨0, 0⟩)
    (hlen : byteLength (['\n'].intercalate (program.body.map Statement.render)) < 2 ^ 32) :
    ∃ (program' : Program) (tokens : List Token) (q : Place),
      (parse (['\n'].intercalate (program.body.map Statement.render))).exit =
        .ok ⟨some program', []⟩ ∧
      program'.body.map Statement.core = program.body.map Statement.core ∧
      (parser {} .standard).scanner.Reads
        ⟨[], ['\n'].intercalate (program.body.map Statement.render)⟩ tokens q ∧
      SpellsAll program'.body tokens ∧
      tokens.map Token.word = program.body.flatMap (fun s => s.wrapped.words) := by
  have hskips : Skips (parser {} .standard).scanner := .of_config .standard rfl
  obtain ⟨-, tokens, q, haccepted⟩ := accepted_of_parse h
  have hwords : ∀ t ∈ tokens, IsWord t :=
    exists_word hskips haccepted.reads haccepted.spells.exists_shape
  obtain ⟨tokens', body', q', hspells, hforms, hreads, hend⟩ :=
    haccepted.spells.reads_renderAll hskips hwords (Reads.guarded hskips haccepted.reads) []
  have hgrouped : ∀ s ∈ program.body.map Statement.wrapped, s.Grouped := by
    intro s hs
    obtain ⟨s, -, rfl⟩ := List.mem_map.1 hs
    exact s.grouped_wrapped
  have hproper : ∀ s ∈ program.body.map Statement.wrapped, s.Proper := by
    intro s hs
    obtain ⟨s, hmem, rfl⟩ := List.mem_map.1 hs
    obtain ⟨a, hspelled, hsub⟩ := haccepted.spells.exists_spells hmem
    refine hspelled.proper_wrapped (fun t ht => hwords t (hsub ht)) (haccepted.stands s hmem).2 ?_
    rintro inner span span' rfl
    exact hnames inner span span' hmem
  have haccepted' : Accepted (parser {} .standard) (renderAll program.body) tokens' q' body' :=
    ⟨hreads, hend, hspells, fun s hs =>
      ⟨forall_of_map_bare Statement.grouped_bare hforms hgrouped s hs,
        forall_of_map_bare Statement.proper_bare hforms hproper s hs⟩⟩
  obtain ⟨records, hrun, -⟩ :=
    haccepted'.parse (Standard.of_config {} .standard) hlen (ParserState.start [])
  refine ⟨programOf 0 body', tokens', q', congrArg Run.exit hrun, ?_, hreads, hspells, ?_⟩
  · have hcore := congrArg (List.map Statement.core) hforms
    simpa [Function.comp_def, Statement.core_bare, Statement.core_wrapped, programOf] using hcore
  · have hflat := congrArg (List.flatMap Statement.words) hforms
    rw [hspells.map_word]
    simpa [List.flatMap_map, Statement.words_bare] using hflat

/-- A regular expression that begins like a comment, in parentheses that are not written. -/
theorem parse_render_difference :
    ∃ (program' : Program) (tokens : List Token) (q : Place),
      (parse "a;\nreturn (/*x/ - (b * /c/g));".toList).exit = .ok ⟨some program', []⟩ ∧
      program'.body.map Statement.core =
        [.evaluated (.ident ['a'] ⟨0, 0⟩) ⟨0, 0⟩,
          .returned (some (.binary .sub (.regex ['*', 'x'] [] ⟨0, 0⟩)
            (.binary .mul (.ident ['b'] ⟨0, 0⟩) (.regex ['c'] ['g'] ⟨0, 0⟩) ⟨0, 0⟩) ⟨0, 0⟩))
            ⟨0, 0⟩] ∧
      (parser {} .standard).scanner.Reads
        ⟨[], "a;\nreturn (/*x/ - (b * /c/g));".toList⟩ tokens q ∧
      SpellsAll program'.body tokens ∧
      tokens.map (fun t => t.text) =
        ["a", ";", "return", "(", "/*x/", "-", "(", "b", "*", "/c/g", ")", ")", ";"].map
          String.toList := by
  let program : Program :=
    ⟨[.evaluated (.paren (.paren (.ident ['a'] ⟨2, 3⟩) ⟨1, 4⟩) ⟨0, 5⟩) ⟨0, 6⟩,
      .returned (some (.binary .sub (.paren (.regex ['*', 'x'] [] ⟨15, 19⟩) ⟨14, 20⟩)
        (.binary .mul (.ident ['b'] ⟨23, 24⟩) (.regex ['c'] ['g'] ⟨27, 31⟩) ⟨23, 31⟩) ⟨14, 31⟩))
        ⟨7, 32⟩], ⟨0, 32⟩⟩
  have hparse : (parse "((a)); return (/*x/) - b * /c/g;".toList).exit =
      .ok ⟨some program, []⟩ := by
    decide +kernel
  have htext : ['\n'].intercalate (program.body.map Statement.render) =
      "a;\nreturn (/*x/ - (b * /c/g));".toList := by
    decide +kernel
  have hnames : ∀ inner span span', .evaluated (.paren inner span) span' ∈ program.body →
      inner.core ≠ .ident "return".toList ⟨0, 0⟩ ∧ inner.core ≠ .ident "var".toList ⟨0, 0⟩ := by
    intro inner span span' hmem
    rcases List.mem_cons.1 hmem with hfirst | hmem
    · cases hfirst
      exact ⟨by decide, by decide⟩
    · cases List.mem_singleton.1 hmem
  obtain ⟨program', tokens, q, hexit, hcore, hreads, hspells, hwords⟩ :=
    parse_render hparse hnames (by rw [htext]; decide)
  rw [htext] at hexit hreads
  have htexts := congrArg (List.map Prod.snd) hwords
  rw [List.map_map] at htexts
  exact ⟨program', tokens, q, hexit, hcore, hreads, hspells, htexts⟩

end Ecma

end PredictiveParsing
