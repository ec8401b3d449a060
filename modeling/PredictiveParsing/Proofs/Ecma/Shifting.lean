import PredictiveParsing.Proofs.Ecma.RoundTrip

/-!
# What stands behind a text is shifted

A source is read behind another text as it is read alone, with every span shifted by the length of
the text in front of it. Trivia in front of a source belongs to its first gap.

* `Reads.shift`, `SpellsAll.shift`: tokens and trees are shifted together.
* `Reads.prepend`: trivia in front of a source is passed over.
-/

namespace PredictiveParsing

open Text

/-! ## Spans and tokens -/

def Span.shift (n : Nat) (s : Span) : Span := ⟨n + s.start, n + s.stop⟩

def Token.shift (n : Nat) (t : Token) : Token := { t with span := t.span.shift n }

namespace Scanner

variable {scanner : Scanner} {p q : Place} {tokens : List Token}

theorem cover_shift (n : Nat) (hne : tokens ≠ []) :
    cover (tokens.map (Token.shift n)) = (cover tokens).shift n := by
  rw [cover, cover, List.head?_map, List.getLast?_map, List.head?_eq_some_head hne,
    List.getLast?_eq_some_getLast hne]
  rfl

/-- Behind a text, tokens are read where they are read without it, shifted by its length. -/
theorem Reads.shift (before : Text) (h : scanner.Reads p tokens q) :
    scanner.Reads ⟨before ++ p.before, p.rest⟩ (tokens.map (Token.shift (byteLength before)))
      ⟨before ++ q.before, q.rest⟩ := by
  induction h with
  | nil => exact .nil
  | @cons p q t gap rest tokens hrest hgap htakes hstart hstop _ ih =>
    simp only [← List.append_assoc] at ih
    have hlength : ∀ text, byteLength (before ++ p.before ++ text) =
        byteLength before + byteLength (p.before ++ text) := by
      intro text
      rw [List.append_assoc, byteLength_append]
    refine .cons (t := t.shift (byteLength before)) hrest hgap htakes ?_ ?_ ih
    · rw [hlength, ← hstart]
      rfl
    · rw [List.append_assoc] at hstop
      rw [List.append_assoc, hlength]
      exact congrArg (byteLength before + ·) hstop

end Scanner

namespace Ecma

open Scanner

/-! ## Trees -/

/-- An expression behind a text of the length. -/
def Expr.shift (n : Nat) : Expr → Expr
  | .number text span => .number text (span.shift n)
  | .regex pattern flags span => .regex pattern flags (span.shift n)
  | .ident name span => .ident name (span.shift n)
  | .binary op left right span => .binary op (left.shift n) (right.shift n) (span.shift n)
  | .paren inner span => .paren (inner.shift n) (span.shift n)

/-- A statement behind a text of the length. -/
def Statement.shift (n : Nat) : Statement → Statement
  | .returned value span => .returned (value.map (Expr.shift n)) (span.shift n)
  | .declared name init span => .declared name (init.map (Expr.shift n)) (span.shift n)
  | .evaluated expr span => .evaluated (expr.shift n) (span.shift n)

theorem Expr.bare_shift (n : Nat) (e : Expr) : (e.shift n).bare = e.bare := by
  induction e with
  | binary op left right span ihl ihr => rw [shift, bare, bare, ihl, ihr]
  | paren inner span ih => rw [shift, bare, bare, ih]
  | number text span => rfl
  | regex pattern flags span => rfl
  | ident name span => rfl

theorem Statement.bare_shift (n : Nat) (s : Statement) : (s.shift n).bare = s.bare := by
  have hoption : ∀ value : Option Expr,
      (value.map (Expr.shift n)).map Expr.bare = value.map Expr.bare := by
    intro value
    rw [Option.map_map]
    exact congrArg (Option.map · value) (funext (Expr.bare_shift n))
  cases s with
  | returned value span => rw [shift, bare, bare, hoption]
  | declared name init span => rw [shift, bare, bare, hoption]
  | evaluated expr span => rw [shift, bare, bare, Expr.bare_shift]

/-- Shifting keeps whether statements stand in programs. -/
theorem stands_shift (n : Nat) {body : List Statement} (h : ∀ s ∈ body, s.Grouped ∧ s.Proper) :
    ∀ s ∈ body.map (Statement.shift n), s.Grouped ∧ s.Proper := by
  intro s hs
  obtain ⟨s, hmem, rfl⟩ := List.mem_map.1 hs
  obtain ⟨hgrouped, hproper⟩ := h s hmem
  rw [← Statement.grouped_bare, ← Statement.proper_bare, Statement.bare_shift,
    Statement.grouped_bare, Statement.proper_bare]
  exact ⟨hgrouped, hproper⟩

variable {tokens : List Token}

theorem Expr.Spells.shift (n : Nat) {e : Expr} (h : e.Spells tokens) :
    (e.shift n).Spells (tokens.map (Token.shift n)) := by
  induction h with
  | @number t hkind => exact .number (t := t.shift n) hkind
  | @regex t pattern flags hkind htext hflags =>
    exact .regex (t := t.shift n) hkind htext hflags
  | @ident t hkind => exact .ident (t := t.shift n) hkind
  | @binary op left right a b t _ hop _ ihl ihr =>
    rw [Expr.shift, ← cover_shift n (by simp), List.map_append, List.map_cons]
    exact .binary ihl hop ihr
  | @paren inner a first last hfirst _ hlast ih =>
    rw [Expr.shift, ← cover_shift n (by simp), List.map_cons, List.map_append,
      List.map_singleton]
    exact .paren hfirst ih hlast

theorem Statement.Spells.shift (n : Nat) {s : Statement} (h : s.Spells tokens) :
    (s.shift n).Spells (tokens.map (Token.shift n)) := by
  cases h with
  | returned hfirst hlast =>
    rw [Statement.shift, ← cover_shift n (by simp)]
    exact .returned hfirst hlast
  | returnedValue hfirst he hlast =>
    rw [Statement.shift, ← cover_shift n (by simp), List.map_cons, List.map_append,
      List.map_singleton]
    exact .returnedValue hfirst (he.shift n) hlast
  | @declared first name last hfirst hname hlast =>
    rw [Statement.shift, ← cover_shift n (by simp)]
    exact @Spells.declared (first.shift n) (name.shift n) (last.shift n) hfirst hname hlast
  | @declaredInit e a first name sign last hfirst hname hsign he hlast =>
    rw [Statement.shift, ← cover_shift n (by simp), List.map_cons, List.map_cons, List.map_cons,
      List.map_append, List.map_singleton]
    exact @Spells.declaredInit _ _ (first.shift n) (name.shift n) (sign.shift n) (last.shift n)
      hfirst hname hsign (he.shift n) hlast
  | evaluated he hlast =>
    rw [Statement.shift, ← cover_shift n (by simp), List.map_append, List.map_singleton]
    exact .evaluated (he.shift n) hlast

theorem SpellsAll.shift (n : Nat) {body : List Statement} (h : SpellsAll body tokens) :
    SpellsAll (body.map (Statement.shift n)) (tokens.map (Token.shift n)) := by
  induction h with
  | nil => exact .nil
  | cons hs _ ih =>
    rw [List.map_cons, List.map_append]
    exact .cons (hs.shift n) ih

/-! ## Trivia in front -/

section

variable {scanner : Scanner} {before gap more rest : Text} {q : Place}

theorem Trivia.gap_append (hskips : Skips scanner) (h : Trivia gap)
    (hmore : scanner.Gap more rest) :
    scanner.Gap (gap ++ more) rest := by
  rw [gap_iff hskips, List.append_assoc, h.afterTrivia_append]
  exact (gap_iff hskips).1 hmore

/-- Behind trivia and what else is passed over is the same place. -/
theorem behind_trivia (hskips : Skips scanner) (h : Trivia gap) :
    scanner.behind ⟨before, gap ++ rest⟩ = scanner.behind ⟨before ++ gap, rest⟩ := by
  obtain ⟨more, rest, rfl, hmore, hbehind⟩ := scanner.exists_behind ⟨before ++ gap, rest⟩
  rw [hbehind, ← List.append_assoc, behind_of_gap (h.gap_append hskips hmore), List.append_assoc]

/-- Trivia belongs to the gap in front of the first token. -/
theorem Reads.prepend_cons (hskips : Skips scanner) (h : Trivia gap) {t : Token}
    (hreads : scanner.Reads ⟨before ++ gap, rest⟩ (t :: tokens) q) :
    scanner.Reads ⟨before, gap ++ rest⟩ (t :: tokens) q := by
  cases hreads with
  | @cons _ _ _ more after _ hrest hmore htakes hstart hstop hafter =>
    have htext : gap ++ rest = gap ++ more ++ (t.text ++ after) := by
      rw [List.append_assoc]
      exact congrArg (gap ++ ·) hrest
    simp only [List.append_assoc before gap more] at hstart hstop hafter
    exact .cons htext (h.gap_append hskips hmore) htakes hstart hstop hafter

/-- Trivia belongs to the gap in front of the first token, or to the last gap if there is none. -/
theorem Reads.prepend (hskips : Skips scanner) (h : Trivia gap)
    (hreads : scanner.Reads ⟨before ++ gap, rest⟩ tokens q) :
    ∃ q', scanner.Reads ⟨before, gap ++ rest⟩ tokens q' ∧
      scanner.behind q' = scanner.behind q := by
  cases tokens with
  | nil =>
    cases hreads
    exact ⟨_, .nil, behind_trivia hskips h⟩
  | cons t tokens => exact ⟨q, Reads.prepend_cons hskips h hreads, rfl⟩

end

end Ecma

end PredictiveParsing
