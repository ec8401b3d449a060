import PredictiveParsing.Proofs.Ecma.Outcomes

/-!
# Spans of parsed programs

The nodes of a parsed program stand in its source as their texts do: a node holds its parts, the
parts are in order and apart, and the texts of leaves, parentheses and statements are what the
source has at their spans.

* `Reads.exists_text`: what several tokens take of a source is one text.
* `Expr.Placed`, `Statement.Placed`: what the spans of a tree say about a source.
* `parsed_program_placed`: every program that is parsed is placed in its source.
-/

namespace PredictiveParsing

open Text

/-! ## Spans and texts -/

namespace Span

/-- A span holds some text of a source, from one boundary between characters to another. -/
structure Within (span : Span) (source : Text) : Prop where
  nonempty : span.start < span.stop
  inside : span.stop ≤ byteLength source
  start_boundary : IsBoundary source span.start
  stop_boundary : IsBoundary source span.stop

/-- A span holds all of another. -/
def Covers (s t : Span) : Prop := s.start ≤ t.start ∧ t.stop ≤ s.stop

theorem Covers.trans {s t u : Span} (hst : s.Covers t) (htu : t.Covers u) : s.Covers u :=
  ⟨Nat.le_trans hst.1 htu.1, Nat.le_trans htu.2 hst.2⟩

/-- The text of a source at a span. -/
def textIn (span : Span) (source : Text) : Option Text := slice source span.start span.stop

/-- Between a text in front of it and one behind it, a text is placed in the whole. -/
theorem of_parts {span : Span} {before text : Text} (after : Text) (hne : text ≠ [])
    (hstart : span.start = byteLength before) (hstop : span.stop = byteLength (before ++ text)) :
    span.Within (before ++ text ++ after) ∧
      span.textIn (before ++ text ++ after) = some text := by
  have hpos := Nat.pos_of_ne_zero fun h => hne (byteLength_eq_zero_iff.1 h)
  rw [byteLength_append] at hstop
  refine ⟨⟨by omega, ?_, ?_, ?_⟩, ?_⟩
  · rw [hstop, byteLength_append, byteLength_append]
    omega
  · exact ⟨before, text ++ after, List.append_assoc _ _ _, hstart⟩
  · exact ⟨before ++ text, after, rfl, by rw [hstop, byteLength_append]⟩
  · rw [textIn, hstart, hstop, slice_append]

end Span

namespace Scanner

variable {scanner : Scanner} {p q : Place} {tokens : List Token}

/-- The span of sorted tokens covers that of each of them. -/
theorem Sorted.covers (h : Sorted tokens) {t : Token} (ht : t ∈ tokens) :
    (cover tokens).Covers t.span := by
  have hne : tokens ≠ [] := List.ne_nil_of_mem ht
  refine ⟨?_, ?_⟩
  · rw [cover_start hne]
    rw [← List.cons_head_tail hne] at h ht
    rcases List.mem_cons.1 ht with rfl | ht
    · exact Nat.le_refl _
    · exact ((List.pairwise_cons.1 h).1 t ht).1
  · rw [cover_stop hne]
    rw [← List.dropLast_concat_getLast hne] at h ht
    rcases List.mem_append.1 ht with ht | ht
    · exact ((List.pairwise_append.1 h).2.2 t ht _ (List.mem_singleton_self _)).2
    · exact Nat.le_of_eq (congrArg (·.span.stop) (List.mem_singleton.1 ht))

/-- The span of sorted tokens covers that of some of them. -/
theorem Sorted.cover_covers (h : Sorted tokens) {a : List Token} (hne : a ≠ [])
    (ha : a ⊆ tokens) : (cover tokens).Covers (cover a) := by
  have hfirst := h.covers (ha (List.head_mem hne))
  have hlast := h.covers (ha (List.getLast_mem hne))
  refine ⟨?_, ?_⟩
  · rw [cover_start hne]
    exact hfirst.1
  · rw [cover_stop hne]
    exact hlast.2

/-- Between two places, tokens take one text behind the first gap: it begins with the text of the
first token and ends with that of the last. -/
theorem Reads.exists_text (h : scanner.Reads p tokens q) (hne : tokens ≠ []) :
    ∃ gap text, q.before = p.before ++ gap ++ text ∧
      (cover tokens).start = byteLength (p.before ++ gap) ∧
      (cover tokens).stop = byteLength q.before ∧
      (∀ t ∈ tokens.head?, t.text <+: text) ∧ ∀ t ∈ tokens.getLast?, t.text <:+ text := by
  induction h with
  | nil => exact absurd rfl hne
  | @cons p q t gap rest tokens hrest hgap htakes hstart hstop hmore ih =>
    cases tokens with
    | nil =>
      cases hmore
      refine ⟨gap, t.text, rfl, hstart, hstop, ?_, ?_⟩
      · intro u hu
        cases hu
        exact List.prefix_refl _
      · intro u hu
        cases hu
        exact List.suffix_refl _
    | cons u tokens =>
      obtain ⟨gap', text, hbefore, -, hend, -, hlast⟩ := ih (List.cons_ne_nil _ _)
      refine ⟨gap, t.text ++ (gap' ++ text), ?_, hstart, hend, ?_, ?_⟩
      · simpa using hbefore
      · intro v hv
        cases hv
        exact List.prefix_append _ _
      · intro v hv
        rw [List.getLast?_cons_cons] at hv
        exact ((hlast v hv).trans (List.suffix_append _ _)).trans (List.suffix_append _ _)

/-- Tokens are placed in their source, between the places from which and to which they are read. -/
theorem Reads.cover_placed (h : scanner.Reads p tokens q) (hne : tokens ≠ []) :
    (cover tokens).Within p.source ∧ byteLength p.before ≤ (cover tokens).start ∧
      (cover tokens).stop = byteLength q.before ∧
      ∃ text, (cover tokens).textIn p.source = some text ∧
        (∀ t ∈ tokens.head?, t.text <+: text) ∧ ∀ t ∈ tokens.getLast?, t.text <:+ text := by
  obtain ⟨gap, text, hbefore, hstart, hstop, hfirst, hlast⟩ := h.exists_text hne
  have hsource : p.source = p.before ++ gap ++ text ++ q.rest := by
    rw [← hbefore, ← h.source_eq, Place.source]
  have htext : text ≠ [] := by
    have hmem := h.span_mem (List.head_mem hne)
    have hlt : (cover tokens).start < (cover tokens).stop := by
      rw [cover_start hne, hstop]
      exact Nat.lt_of_lt_of_le hmem.2.1 hmem.2.2
    rintro rfl
    rw [hstart, hstop, hbefore, List.append_nil] at hlt
    exact Nat.lt_irrefl _ hlt
  rw [hbefore] at hstop
  obtain ⟨hwithin, hslice⟩ := Span.of_parts q.rest htext hstart hstop
  rw [← hsource] at hwithin hslice
  refine ⟨hwithin, ?_, by rw [hstop, hbefore], text, hslice, hfirst, hlast⟩
  rw [hstart, byteLength_append]
  omega

end Scanner

namespace Ecma

open Scanner

variable {scanner : Scanner} {p q : Place} {tokens : List Token} {source : Text}

/-! ## Expressions -/

namespace Expr

/-- An expression with all expressions in it. -/
def nodes : Expr → List Expr
  | .binary op left right span => .binary op left right span :: (left.nodes ++ right.nodes)
  | .paren inner span => .paren inner span :: inner.nodes
  | leaf => [leaf]

/-- The nodes of an expression are placed in a source. A leaf is the text at its span. An operation
reaches from its left operand to its right one, which begins behind the end of the left one. What
stands between parentheses stands strictly inside their span. -/
def Placed (source : Text) : Expr → Prop
  | .number text span => span.Within source ∧ span.textIn source = some text
  | .regex pattern flags span =>
    span.Within source ∧ span.textIn source = some ('/' :: (pattern ++ '/' :: flags))
  | .ident name span => span.Within source ∧ span.textIn source = some name
  | .binary _ left right span =>
    span.Within source ∧ left.Placed source ∧ right.Placed source ∧
      span.start = left.span.start ∧ left.span.stop < right.span.start ∧
      span.stop = right.span.stop
  | .paren inner span =>
    span.Within source ∧ inner.Placed source ∧
      span.start < inner.span.start ∧ inner.span.stop < span.stop ∧
      ∃ text, span.textIn source = some text ∧ ['('] <+: text ∧ [')'] <:+ text

theorem Placed.within {e : Expr} (h : e.Placed source) : e.span.Within source := by
  cases e <;> exact h.1

/-- Every node stands inside the span of the whole, in the source, and is itself placed. -/
theorem Placed.node {e : Expr} (h : e.Placed source) :
    ∀ node ∈ e.nodes, node.Placed source ∧ e.span.Covers node.span := by
  have hself : ∀ e : Expr, e.span.Covers e.span := fun _ => ⟨Nat.le_refl _, Nat.le_refl _⟩
  induction e with
  | number text span => exact List.forall_mem_singleton.2 ⟨h, hself (.number text span)⟩
  | regex pattern flags span =>
    exact List.forall_mem_singleton.2 ⟨h, hself (.regex pattern flags span)⟩
  | ident name span => exact List.forall_mem_singleton.2 ⟨h, hself (.ident name span)⟩
  | binary op left right span ihl ihr =>
    obtain ⟨-, hleft, hright, hstart, horder, hstop⟩ := id h
    have hl := hleft.within.nonempty
    have hr := hright.within.nonempty
    have hcovers : span.Covers left.span ∧ span.Covers right.span := by
      simp only [Span.Covers]
      omega
    intro node hnode
    rcases List.mem_cons.1 hnode with rfl | hnode
    · exact ⟨h, hself _⟩
    · rcases List.mem_append.1 hnode with hnode | hnode
      · exact ⟨(ihl hleft node hnode).1, hcovers.1.trans (ihl hleft node hnode).2⟩
      · exact ⟨(ihr hright node hnode).1, hcovers.2.trans (ihr hright node hnode).2⟩
  | paren inner span ih =>
    obtain ⟨-, hinner, hstart, hstop, -⟩ := id h
    have hcovers : span.Covers inner.span := ⟨Nat.le_of_lt hstart, Nat.le_of_lt hstop⟩
    intro node hnode
    rcases List.mem_cons.1 hnode with rfl | hnode
    · exact ⟨h, hself _⟩
    · exact ⟨(ih hinner node hnode).1, hcovers.trans (ih hinner node hnode).2⟩

/-- A token that is a leaf is placed where it is read. -/
theorem leaf_placed {t : Token} (h : scanner.Reads p [t] q) :
    t.span.Within p.source ∧ t.span.textIn p.source = some t.text := by
  obtain ⟨hwithin, -, -, -⟩ := h.cover_placed (List.cons_ne_nil _ _)
  exact ⟨hwithin, h.slice (List.mem_singleton_self t)⟩

/-- What is spelled by tokens is placed where they are read. -/
theorem Spells.placed {e : Expr} (hspells : e.Spells tokens) (h : scanner.Reads p tokens q) :
    e.Placed p.source := by
  induction hspells generalizing p q with
  | number _ => exact leaf_placed h
  | @regex t pattern flags _ htext _ =>
    rw [Placed, ← htext]
    exact leaf_placed h
  | ident _ => exact leaf_placed h
  | @binary op left right a b t hleft _ hright ihl ihr =>
    obtain ⟨hwithin, -, hstop, -⟩ := h.cover_placed (by simp)
    obtain ⟨p₁, ha, hmore⟩ := h.split
    obtain ⟨p₂, ht, hb⟩ := Reads.split (a := [t]) hmore
    obtain ⟨-, -, hleftStop, -⟩ := ha.cover_placed hleft.ne_nil
    obtain ⟨-, hrightStart, hrightStop, -⟩ := hb.cover_placed hright.ne_nil
    have hsign := ht.span_mem (List.mem_singleton_self t)
    have hstart : (cover (a ++ t :: b)).start = (cover a).start := by
      rw [cover, cover, List.head?_append, List.head?_eq_some_head hleft.ne_nil]
      rfl
    have hplaced := ihr hb
    rw [ht.source_eq, ha.source_eq] at hplaced
    refine ⟨hwithin, ihl ha, hplaced, ?_, ?_, ?_⟩
    · rw [hstart, hleft.span_eq]
    · rw [hleft.span_eq, hright.span_eq]
      omega
    · rw [hright.span_eq, hstop, hrightStop]
  | @paren inner a first last hfirst hinner hlast ih =>
    obtain ⟨hwithin, hbegin, hstop, text, htext, hhead, htail⟩ := h.cover_placed (by simp)
    obtain ⟨p₁, hopen, hmore⟩ := Reads.split (a := [first]) h
    obtain ⟨p₂, ha, hclose⟩ := hmore.split
    obtain ⟨-, hinnerStart, hinnerStop, -⟩ := ha.cover_placed hinner.ne_nil
    have hfirstSpan := hopen.span_mem (List.mem_singleton_self first)
    have hlastSpan := hclose.span_mem (List.mem_singleton_self last)
    have hplaced := ih ha
    rw [hopen.source_eq] at hplaced
    have hstart : (cover (first :: (a ++ [last]))).start = first.span.start := rfl
    have hopenText : first.text = ['('] := congrArg Prod.snd hfirst
    have hcloseText : last.text = [')'] := congrArg Prod.snd hlast
    refine ⟨hwithin, hplaced, ?_, ?_, text, htext, ?_, ?_⟩
    · rw [hstart, hinner.span_eq]
      omega
    · rw [hinner.span_eq, hinnerStop, hstop]
      omega
    · rw [← hopenText]
      exact hhead first rfl
    · rw [← hcloseText]
      exact htail last (by simp [List.getLast?_cons])

end Expr

/-! ## Statements -/

namespace Statement

/-- The expressions that a statement is made of. -/
def exprs : Statement → List Expr
  | .returned value _ => value.toList
  | .declared _ init _ => init.toList
  | .evaluated expr _ => [expr]

/-- A statement is placed in a source: its text ends with a semicolon, and all expressions in it are
placed inside its span. -/
structure Placed (source : Text) (s : Statement) : Prop where
  within : s.span.Within source
  text : ∃ text, s.span.textIn source = some text ∧ [';'] <:+ text
  exprs : ∀ e ∈ s.exprs, e.Placed source ∧ ∀ node ∈ e.nodes, s.span.Covers node.span

/-- The tokens of a statement end with a semicolon, and those of an expression in it stand
together. -/
theorem Spells.exists_parts {s : Statement} (h : s.Spells tokens) :
    s.span = cover tokens ∧ (∃ last, tokens.getLast? = some last ∧ last.text = [';']) ∧
      ∀ e ∈ s.exprs, ∃ a b c, tokens = a ++ (b ++ c) ∧ e.Spells b := by
  cases h with
  | returned hfirst hlast =>
    exact ⟨rfl, ⟨_, rfl, congrArg Prod.snd hlast⟩, fun e he => absurd he List.not_mem_nil⟩
  | @returnedValue e a first last hfirst he hlast =>
    refine ⟨rfl, ⟨last, by simp [List.getLast?_cons], congrArg Prod.snd hlast⟩, ?_⟩
    exact List.forall_mem_singleton.2 ⟨[first], a, [last], rfl, he⟩
  | declared hfirst hname hlast =>
    exact ⟨rfl, ⟨_, rfl, congrArg Prod.snd hlast⟩, fun e he => absurd he List.not_mem_nil⟩
  | @declaredInit e a first name sign last hfirst hname hsign he hlast =>
    refine ⟨rfl, ⟨last, by simp [List.getLast?_cons], congrArg Prod.snd hlast⟩, ?_⟩
    exact List.forall_mem_singleton.2 ⟨[first, name, sign], a, [last], rfl, he⟩
  | @evaluated e a last he hlast =>
    refine ⟨rfl, ⟨last, by simp, congrArg Prod.snd hlast⟩, ?_⟩
    exact List.forall_mem_singleton.2 ⟨[], a, [last], rfl, he⟩

theorem Spells.placed {s : Statement} (hspells : s.Spells tokens)
    (h : scanner.Reads p tokens q) : s.Placed p.source := by
  obtain ⟨hspan, ⟨last, hlast, hsemicolon⟩, hexprs⟩ := hspells.exists_parts
  obtain ⟨hwithin, -, -, text, htext, -, htail⟩ := h.cover_placed hspells.ne_nil
  refine ⟨hspan ▸ hwithin, ⟨text, hspan ▸ htext, hsemicolon ▸ htail last hlast⟩, ?_⟩
  intro e he
  obtain ⟨a, b, c, rfl, hb⟩ := hexprs e he
  obtain ⟨p₁, ha, hmore⟩ := h.split
  obtain ⟨p₂, hinside, -⟩ := hmore.split
  have hplaced := hb.placed hinside
  rw [ha.source_eq] at hplaced
  have hcovers : (cover (a ++ (b ++ c))).Covers (cover b) :=
    h.sorted.cover_covers hb.ne_nil fun t ht => by simp [ht]
  rw [← hspan, ← hb.span_eq] at hcovers
  exact ⟨hplaced, fun node hnode => hcovers.trans (hplaced.node node hnode).2⟩

end Statement

/-! ## Programs -/

/-- Statements that are spelled are placed one behind the other. -/
theorem SpellsAll.placed {body : List Statement} (hspells : SpellsAll body tokens)
    (h : scanner.Reads p tokens q) :
    (∀ s ∈ body, s.Placed p.source ∧ byteLength p.before ≤ s.span.start) ∧
      body.Pairwise fun s t => s.span.stop ≤ t.span.start := by
  induction hspells generalizing p with
  | nil => exact ⟨fun s hs => absurd hs List.not_mem_nil, List.Pairwise.nil⟩
  | @cons s body a b hs _ ih =>
    obtain ⟨p₁, ha, hb⟩ := h.split
    obtain ⟨hall, hpairwise⟩ := ih hb
    obtain ⟨hspan, -, -⟩ := hs.exists_parts
    obtain ⟨-, hstart, hstop, -⟩ := ha.cover_placed hs.ne_nil
    rw [← hspan] at hstart hstop
    rw [ha.source_eq] at hall
    refine ⟨List.forall_mem_cons.2 ⟨⟨hs.placed ha, hstart⟩, fun t ht => ?_⟩,
      List.pairwise_cons.2 ⟨fun t ht => ?_, hpairwise⟩⟩
    · exact ⟨(hall t ht).1, Nat.le_trans ha.before_le (hall t ht).2⟩
    · rw [hstop]
      exact (hall t ht).2

variable {μ : Type}

/-- Whatever source is parsed, in whatever state and configuration: the statements of the program
are placed in the source, one behind the other, and the program reaches from the start of the
source to the end of its last statement. -/
theorem parsed_program_placed {config : ScanConfig} {messages : MessageBuilder} {source : Text}
    {s s' : ParserState} {program : Program} {errors : List ParseError}
    {records : List (Emission μ)}
    (h : parseWith (parser config messages) source s =
      ⟨.ok ⟨some program, errors⟩, s', records⟩) :
    (∀ statement ∈ program.body, statement.Placed source) ∧
      (program.body.Pairwise fun a b => a.span.stop ≤ b.span.start) ∧
      program.span = ⟨0, program.body.getLast?.elim 0 (·.span.stop)⟩ := by
  by_cases hlen : byteLength source < offsetLimit
  · rcases parse_outcome (Standard.of_config config messages) hlen s with
      ⟨tokens, q, body, records', haccepted, hrun, -⟩ | ⟨_, _, _, _, _, -, hrun, -⟩
    · rw [hrun] at h
      obtain ⟨hexit, -, -⟩ := Run.mk.inj h
      cases Option.some.inj (ParseOutput.mk.inj (Exit.ok.inj hexit)).1
      obtain ⟨hall, hpairwise⟩ := haccepted.spells.placed haccepted.reads
      exact ⟨fun statement hs => (hall statement hs).1, hpairwise, rfl⟩
    · rw [hrun] at h
      obtain ⟨hexit, -, -⟩ := Run.mk.inj h
      cases (ParseOutput.mk.inj (Exit.ok.inj hexit)).1
  · have hlong : (parseWith (parser config messages) source s :
        Run (Emission μ) ParserState ParseError (ParseOutput Program)).exit =
          .fault (.sourceTooLong (byteLength source)) := Parser.run_of_long hlen s
    rw [h] at hlong
    cases hlong

/-- Parentheses and a regular expression, behind a comment and a character of two bytes in it. -/
theorem parsed_program_placed_product :
    ∃ (source : Text) (program : Program) (s' : ParserState) (records : List (Emission Empty)),
      parseWith (parser {} .standard) source (ParserState.start []) =
        ⟨.ok ⟨some program, []⟩, s', records⟩ ∧
      program.body.length = 2 ∧ (∀ statement ∈ program.body, statement.Placed source) ∧
      (program.body.Pairwise fun a b => a.span.stop ≤ b.span.start) ∧
      program.span = ⟨0, program.body.getLast?.elim 0 (·.span.stop)⟩ := by
  let source : Text := "/*é*/a * ( /b/c );return;".toList
  let product : Expr :=
    .binary .mul (.ident ['a'] ⟨6, 7⟩) (.paren (.regex ['b'] ['c'] ⟨12, 16⟩) ⟨10, 18⟩) ⟨6, 18⟩
  let program : Program := ⟨[.evaluated product ⟨6, 19⟩, .returned none ⟨19, 26⟩], ⟨0, 26⟩⟩
  let run : Run (Emission Empty) ParserState ParseError (ParseOutput Program) :=
    parseWith (parser {} .standard) source (ParserState.start [])
  have hexit : run.exit = .ok ⟨some program, []⟩ := by decide +kernel
  have hrun := Run.eq_of_exit hexit
  exact ⟨source, program, run.state, run.records, hrun, rfl, parsed_program_placed hrun⟩

end Ecma

end PredictiveParsing
