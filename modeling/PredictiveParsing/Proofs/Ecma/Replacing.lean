import PredictiveParsing.Proofs.Ecma.Layout
import PredictiveParsing.Proofs.Ecma.Soundness

/-!
# What follows can be replaced

Each token of a source is read with what follows it. Where the source is cut behind its tokens, what
is behind the cut can be replaced: a word ends where its run of characters does, and a comment that
was not ended is not ended by the new text, or else no word begins like one.

* `Spells.exists_shape`, `Spells.divided`: what the tokens of trees look like.
* `Reads.replace`: what is behind the cut is replaced by a line feed and any other text.
-/

namespace PredictiveParsing.Ecma

open Text PredictiveParsing.Parser Scanner

variable {scanner : Scanner} {before gap front tail tail' text : Text} {t : Token}
  {tokens : List Token}

/-! ## Kinds that are spelled -/

theorem Expr.Spells.exists_shape {e : Expr} (h : e.Spells tokens) :
    ∀ t ∈ tokens, ∃ shape, shapeOf t.kind = some shape := by
  induction h with
  | number hkind =>
    intro t ht
    rw [List.mem_singleton.1 ht, hkind]
    exact ⟨.number, rfl⟩
  | regex hkind =>
    intro t ht
    rw [List.mem_singleton.1 ht, hkind]
    exact ⟨.regex, rfl⟩
  | ident hkind =>
    intro t ht
    rw [List.mem_singleton.1 ht, hkind]
    exact ⟨.name, rfl⟩
  | @binary op _ _ _ _ _ _ hsign _ ihl ihr =>
    intro t ht
    rcases List.mem_append.1 ht with ht | ht
    · exact ihl t ht
    · rcases List.mem_cons.1 ht with rfl | ht
      · rw [kind_eq_of_word hsign]
        exact ⟨.sign op.sign, by cases op <;> rfl⟩
      · exact ihr t ht
  | paren hfirst _ hlast ih =>
    intro t ht
    rcases List.mem_cons.1 ht with rfl | ht
    · rw [kind_eq_of_word hfirst]
      exact ⟨.sign '(', rfl⟩
    · rcases List.mem_append.1 ht with ht | ht
      · exact ih t ht
      · rw [List.mem_singleton.1 ht, kind_eq_of_word hlast]
        exact ⟨.sign ')', rfl⟩

theorem Statement.Spells.exists_shape {s : Statement} (h : s.Spells tokens) :
    ∀ t ∈ tokens, ∃ shape, shapeOf t.kind = some shape := by
  have hkind : ∀ {t : Token} {id : KindId} {text : Text} {shape : Shape}, t.word = (id, text) →
      shapeOf id = some shape → ∃ shape, shapeOf t.kind = some shape := by
    intro t id text shape hword hshape
    exact ⟨shape, by rw [kind_eq_of_word hword, hshape]⟩
  have hname : ∀ {t : Token}, t.kind = identifier → ∃ shape, shapeOf t.kind = some shape := by
    intro t hkind
    exact ⟨.name, by rw [hkind]; rfl⟩
  have hnone : ∀ t ∈ ([] : List Token), ∃ shape, shapeOf t.kind = some shape :=
    fun _ ht => absurd ht List.not_mem_nil
  cases h with
  | returned hfirst hlast =>
    simp only [List.forall_mem_cons]
    exact ⟨hkind hfirst rfl, hkind hlast rfl, hnone⟩
  | returnedValue hfirst he hlast =>
    simp only [List.forall_mem_cons, List.forall_mem_append]
    exact ⟨hkind hfirst rfl, he.exists_shape, hkind hlast rfl, hnone⟩
  | declared hfirst hident hlast =>
    simp only [List.forall_mem_cons]
    exact ⟨hkind hfirst rfl, hname hident, hkind hlast rfl, hnone⟩
  | declaredInit hfirst hident hsign he hlast =>
    simp only [List.forall_mem_cons, List.forall_mem_append]
    exact ⟨hkind hfirst rfl, hname hident, hkind hsign rfl, he.exists_shape, hkind hlast rfl, hnone⟩
  | evaluated he hlast =>
    simp only [List.forall_mem_cons, List.forall_mem_append]
    exact ⟨he.exists_shape, hkind hlast rfl, hnone⟩

theorem SpellsAll.exists_shape {body : List Statement} (h : SpellsAll body tokens) :
    ∀ t ∈ tokens, ∃ shape, shapeOf t.kind = some shape := by
  induction h with
  | nil => exact fun _ ht => absurd ht List.not_mem_nil
  | cons hs _ ih =>
    intro t ht
    rcases List.mem_append.1 ht with ht | ht
    · exact hs.exists_shape t ht
    · exact ih t ht

/-! ## Operands behind divisions -/

/-- An operand stands behind every sign of division. -/
def Divided : List Token → Prop
  | [] => True
  | t :: tokens => (t.kind = slash → ∃ u ∈ tokens.head?, u.kind ∈ operandKinds) ∧ Divided tokens

theorem Divided.cons_of_ne (ht : t.kind ≠ slash) (h : Divided tokens) : Divided (t :: tokens) :=
  ⟨fun hslash => absurd hslash ht, h⟩

theorem Divided.append {a b : List Token} (ha : Divided a) (hb : Divided b) :
    Divided (a ++ b) := by
  induction a with
  | nil => exact hb
  | cons t a ih =>
    rw [List.cons_append, Divided]
    refine ⟨fun hslash => ?_, ih ha.2⟩
    obtain ⟨u, hu, hkind⟩ := ha.1 hslash
    exact ⟨u, by rw [List.head?_append, Option.mem_def.1 hu]; rfl, hkind⟩

theorem divided_singleton (ht : t.kind ≠ slash) : Divided [t] :=
  .cons_of_ne ht trivial

theorem kind_ne_slash {id : KindId} {word : Text} (h : t.word = (id, word)) (hne : id ≠ slash) :
    t.kind ≠ slash := by
  rw [kind_eq_of_word h]
  exact hne

theorem Expr.Spells.divided {e : Expr} (h : e.Spells tokens) : Divided tokens := by
  induction h with
  | number hkind => exact divided_singleton (by rw [hkind]; decide)
  | regex hkind => exact divided_singleton (by rw [hkind]; decide)
  | ident hkind => exact divided_singleton (by rw [hkind]; decide)
  | binary _ _ hright ihl ihr =>
    refine ihl.append ⟨fun _ => ?_, ihr⟩
    have hhead := List.head?_eq_some_head hright.ne_nil
    exact ⟨_, hhead, hright.first_kind _ hhead⟩
  | paren hfirst _ hlast ih =>
    have hend : Divided _ := divided_singleton (kind_ne_slash hlast (by decide))
    exact .cons_of_ne (kind_ne_slash hfirst (by decide)) (ih.append hend)

theorem Statement.Spells.divided {s : Statement} (h : s.Spells tokens) : Divided tokens := by
  have hend : ∀ {last : Token}, last.word = (semicolon, [';']) → Divided [last] :=
    fun hlast => divided_singleton (kind_ne_slash hlast (by decide))
  cases h with
  | returned hfirst hlast => exact .cons_of_ne (kind_ne_slash hfirst (by decide)) (hend hlast)
  | returnedValue hfirst he hlast =>
    exact .cons_of_ne (kind_ne_slash hfirst (by decide)) (he.divided.append (hend hlast))
  | declared hfirst hname hlast =>
    have hident : Divided _ := .cons_of_ne (by rw [hname]; decide) (hend hlast)
    exact .cons_of_ne (kind_ne_slash hfirst (by decide)) hident
  | declaredInit hfirst hname hsign he hlast =>
    have hvalue : Divided _ :=
      .cons_of_ne (kind_ne_slash hsign (by decide)) (he.divided.append (hend hlast))
    have hident : Divided _ := .cons_of_ne (by rw [hname]; decide) hvalue
    exact .cons_of_ne (kind_ne_slash hfirst (by decide)) hident
  | evaluated he hlast => exact he.divided.append (hend hlast)

theorem SpellsAll.divided {body : List Statement} (h : SpellsAll body tokens) :
    Divided tokens := by
  induction h with
  | nil => trivial
  | cons hs _ ih => exact hs.divided.append ih

/-- The tokens that are read are words of the shapes of their kinds. -/
theorem exists_word {p q : Place} (hskips : Skips scanner) (h : scanner.Reads p tokens q)
    (hkinds : ∀ t ∈ tokens, ∃ shape, shapeOf t.kind = some shape) :
    ∀ t ∈ tokens, ∃ shape, shapeOf t.kind = some shape ∧ shape.Word t.text := by
  intro t ht
  obtain ⟨shape, hshape⟩ := hkinds t ht
  obtain ⟨_, _, _, -, -, htakes, -⟩ := h.exists_gap ht
  rw [hskips.lexicon_eq] at htakes
  exact ⟨shape, hshape, word_of_takes hshape htakes⟩

/-! ## First characters -/

theorem Trivia.head?_ne (h : Trivia text) {c : Char} (hc : c ∉ [' ', '\t', '\r', '\n', '/']) :
    text.head? ≠ some c := by
  have hslash : c ≠ '/' := fun heq => hc (by rw [heq]; decide)
  cases h with
  | nil => simp
  | @blank d rest hd _ =>
    intro hhead
    rw [List.head?_cons, Option.some_inj] at hhead
    rw [← hhead] at hc
    exact hc (List.mem_append_left ['/'] hd)
  | block _ _ => simpa using hslash.symm
  | line _ _ => simpa using hslash.symm

/-- What is passed over in front of a text begins with a blank or a slash. -/
theorem head?_ne_of_gap (hskips : Skips scanner) (h : scanner.Gap gap tail) {c : Char}
    (hc : c ∉ [' ', '\t', '\r', '\n', '/']) : gap.head? ≠ some c := by
  have htrivia : Trivia (gap ++ ['\n']) := (trivia_of_afterTrivia ((gap_iff hskips).1 h)).2
  cases gap with
  | nil => simp
  | cons d gap => exact htrivia.head?_ne hc

theorem head?_ne_of_word {shape : Shape} {word : Text} (h : shape.Word word) {c : Char}
    (hc : shape.first.mem c = false) : word.head? ≠ some c := by
  obtain ⟨d, rest, rfl, hd⟩ := Shape.exists_first_of_word h
  intro hhead
  rw [List.head?_cons, Option.some_inj] at hhead
  rw [hhead, hc] at hd
  cases hd

theorem head?_append_ne {a b : Text} {c : Char} (ha : a.head? ≠ some c) (hb : b.head? ≠ some c) :
    (a ++ b).head? ≠ some c := by
  cases a with
  | nil => exact hb
  | cons d a => exact ha

/-- No word begins with a dot. -/
theorem first_mem_dot {id : KindId} {shape : Shape} (hshape : shapeOf id = some shape) :
    shape.first.mem '.' = false := by
  have hall : (shapes.all fun shape => !shape.first.mem '.') = true := by decide
  exact Bool.not_eq_true' _ ▸ List.all_eq_true.1 hall shape (mem_shapes hshape)

/-- No operand begins with an asterisk. -/
theorem first_mem_star {id : KindId} {shape : Shape} (hshape : shapeOf id = some shape)
    (hid : id ∈ operandKinds) : shape.first.mem '*' = false := by
  have hall : ∀ id ∈ operandKinds, (shapeOf id).all (!·.first.mem '*') = true := by decide
  have hfirst := hall id hid
  rw [hshape, Option.all_some] at hfirst
  exact Bool.not_eq_true' _ ▸ hfirst

/-- Only regular expressions and signs of division begin with a slash. -/
theorem kind_of_slash {id : KindId} {shape : Shape} {more : Text}
    (hshape : shapeOf id = some shape) (h : shape.Word ('/' :: more)) :
    id = regexLiteral ∨ id = slash := by
  have hkinds : ∀ i < shapes.length, (shapes[i]?.all fun shape => shape.first.mem '/') = true →
      i + 3 = regexLiteral.index ∨ i + 3 = slash.index := by decide
  obtain ⟨c, rest, hc, hfirst⟩ := Shape.exists_first_of_word h
  rw [← (List.cons.inj hc).1] at hfirst
  rw [shapeOf] at hshape
  split at hshape
  · rename_i hle
    have hlt := (List.getElem?_eq_some_iff.1 hshape).1
    have hindex := hkinds (id.index - 3) hlt (by rw [hshape]; exact hfirst)
    rw [Nat.sub_add_cancel hle] at hindex
    cases id
    exact hindex.imp (congrArg KindId.mk) (congrArg KindId.mk)
  · cases hshape

/-- The only word that is a slash is the sign of division. -/
theorem kind_eq_slash {id : KindId} {shape : Shape} (hshape : shapeOf id = some shape)
    (h : shape.Word ['/']) : id = slash := by
  refine (kind_of_slash hshape h).resolve_left ?_
  rintro rfl
  cases hshape
  obtain ⟨body, flags, htext, -⟩ := h
  cases (List.append_eq_nil_iff.1 (List.cons.inj htext).2.symm).2

/-- Only regular expressions begin like block comments. -/
theorem kind_eq_regex {id : KindId} {shape : Shape} {word : Text}
    (hshape : shapeOf id = some shape) (h : shape.Word word) (hopen : ['/', '*'] <+: word) :
    id = regexLiteral := by
  obtain ⟨more, rfl⟩ := hopen
  refine (kind_of_slash hshape h).resolve_right ?_
  rintro rfl
  cases hshape
  cases h

/-! ## Replacing what is behind a cut -/

/-- Nothing, or a text that begins with a line feed. -/
def Breaks (tail : Text) : Prop := tail = [] ∨ ∃ rest, tail = '\n' :: rest

theorem Breaks.head?_ne (h : Breaks tail') {c : Char} (hc : c ≠ '\n') : tail'.head? ≠ some c := by
  rcases h with rfl | ⟨rest, rfl⟩
  · simp
  · simpa using hc.symm

theorem Unclosed.append_break {a : Text} (ha : Unclosed a) (hbreaks : Breaks tail')
    (h : Unclosed tail') : Unclosed (a ++ tail') := by
  rcases hbreaks with rfl | ⟨rest, rfl⟩
  · rw [List.append_nil]
    exact ha
  · exact ha.append_newline (unclosed_cons.1 h).2

theorem Solid.replace (h : Solid (front ++ tail)) (hne : front ≠ []) (hbreaks : Breaks tail')
    (hopen : ['/', '*'] <+: front → Unclosed tail') : Solid (front ++ tail') := by
  obtain ⟨c, front, rfl⟩ := List.exists_cons_of_ne_nil hne
  obtain ⟨hblank, hline, hblock⟩ := h
  refine ⟨hblank, fun hslash => ?_, fun hstar => ?_⟩
  · have hfront := prefix_of_append hne (hbreaks.head?_ne (by decide)) hslash
    exact hline (hfront.trans (List.prefix_append _ _))
  · obtain ⟨more, hmore⟩ := prefix_of_append hne (hbreaks.head?_ne (by decide)) hstar
    obtain ⟨rfl, rfl⟩ := List.cons.inj hmore
    have hbody : Unclosed (more ++ tail) := hblock ⟨more ++ tail, rfl⟩
    exact hbody.of_append.append_break hbreaks (hopen ⟨more, rfl⟩)

theorem takes_replace {id : KindId} {shape : Shape} (hshape : shapeOf id = some shape) {word : Text}
    (h : lexicon.Takes id word (front ++ tail)) (hdot : front.head? ≠ some '.')
    (hbreaks : Breaks tail') : lexicon.Takes id word (front ++ tail') := by
  cases front with
  | nil =>
    rcases hbreaks with rfl | ⟨rest, rfl⟩
    · exact takes_nil hshape h
    · have hnewline : blank.mem '\n' = true := by decide
      have hmore :=
        CharClass.mem_eq_false_of_disjoint (blank_disjoint (mem_shapes hshape)).2 hnewline
      exact takes_of_word hshape (word_of_takes hshape h) (CharClass.clear_cons.2 hmore)
  | cons c front => exact takes_cons hshape h fun hc => hdot (by rw [List.head?_cons, hc])

/-- A word that does not begin a comment does not begin one with what stands behind it either,
unless it is a sign of division with no operand behind it. -/
theorem not_opens_of_divided {shape : Shape} (hshape : shapeOf t.kind = some shape)
    (hword : shape.Word t.text)
    (hdivided : t.kind = slash → ∃ u ∈ tokens.head?, u.kind ∈ operandKinds)
    (hstar : (∃ u ∈ tokens.head?, u.kind ∈ operandKinds) → front.head? ≠ some '*')
    (hopen : ¬ ['/', '*'] <+: t.text) : ¬ ['/', '*'] <+: t.text ++ front := by
  intro hbegins
  obtain ⟨c, more, htext, -⟩ := Shape.exists_first_of_word hword
  rw [htext] at hword hopen hbegins
  cases more with
  | nil =>
    obtain ⟨rfl, rest, hrest⟩ := List.cons_prefix_cons.1 hbegins
    have hfront : front = '*' :: rest := hrest.symm
    exact hstar (hdivided (kind_eq_slash hshape hword)) (by rw [hfront]; rfl)
  | cons d more =>
    obtain ⟨rfl, hnext⟩ := List.cons_prefix_cons.1 hbegins
    rw [← (List.cons_prefix_cons.1 hnext).1] at hopen
    exact hopen ⟨more, rfl⟩

/-- Tokens are read as before if what is behind the gap that follows them is replaced. The new text
does not end a comment, or else no token begins like one, with the token behind it or alone. -/
theorem Reads.replace (hskips : Skips scanner) {p q : Place} (h : scanner.Reads p tokens q)
    (hkinds : ∀ t ∈ tokens, ∃ shape, shapeOf t.kind = some shape) (hrest : q.rest = gap ++ tail)
    (hgap : scanner.Gap gap tail) (hbreaks : Breaks tail')
    (hopen : Unclosed tail' ∨ (Divided tokens ∧ ∀ t ∈ tokens, ¬ ['/', '*'] <+: t.text)) :
    ∃ front, p.rest = front ++ tail ∧ front.head? ≠ some '.' ∧
      ((∃ t ∈ tokens.head?, t.kind ∈ operandKinds) → front.head? ≠ some '*') ∧
      scanner.Reads ⟨p.before, front ++ tail'⟩ tokens ⟨q.before, gap ++ tail'⟩ := by
  induction h with
  | @nil p =>
    refine ⟨gap, hrest, head?_ne_of_gap hskips hgap (by decide), ?_, .nil⟩
    rintro ⟨t, ht, -⟩
    cases ht
  | @cons p q t between rest tokens hp hbetween htakes hstart hstop _ ih =>
    obtain ⟨⟨shape, hshape⟩, hkinds⟩ := List.forall_mem_cons.1 hkinds
    have hafter : Unclosed tail' ∨ (Divided tokens ∧ ∀ t ∈ tokens, ¬ ['/', '*'] <+: t.text) :=
      hopen.imp_right fun ⟨hdivided, hwords⟩ =>
        ⟨hdivided.2, fun u hu => hwords u (List.mem_cons_of_mem t hu)⟩
    obtain ⟨front, rfl, hdot, hstar, hreads⟩ := ih hkinds hrest hafter
    rw [hskips.lexicon_eq] at htakes
    have hword := word_of_takes hshape htakes
    have hne : t.text ≠ [] := htakes.ne_nil
    rw [← List.append_assoc] at hbetween
    obtain ⟨htrivia, hsolid⟩ := trivia_of_gap hskips hbetween (by simp [hne])
    refine ⟨between ++ (t.text ++ front), by rw [hp]; simp, ?_, ?_, ?_⟩
    · exact head?_append_ne (htrivia.head?_ne (by decide))
        (head?_append_ne (head?_ne_of_word hword (first_mem_dot hshape)) hdot)
    · rintro ⟨u, hu, hoperand⟩
      cases hu
      refine head?_append_ne (htrivia.head?_ne (by decide)) ?_
      rw [List.head?_append, List.head?_eq_some_head hne, Option.some_or, ← List.head?_eq_some_head]
      exact head?_ne_of_word hword (first_mem_star hshape hoperand)
    · have hopens : ['/', '*'] <+: t.text ++ front → Unclosed tail' := by
        intro hbegins
        rcases hopen with hunclosed | ⟨hdivided, hwords⟩
        · exact hunclosed
        · exact absurd hbegins (not_opens_of_divided hshape hword hdivided.1 hstar
            (hwords t List.mem_cons_self))
      have hnew := hsolid.replace (by simp [hne]) hbreaks hopens
      rw [List.append_assoc] at hnew
      have hgap' : scanner.Gap between (t.text ++ (front ++ tail')) :=
        gap_of_trivia hskips htrivia hnew
      refine .cons (by simp) hgap' ?_ hstart hstop hreads
      rw [hskips.lexicon_eq]
      exact takes_replace hshape htakes hdot hbreaks

end PredictiveParsing.Ecma
