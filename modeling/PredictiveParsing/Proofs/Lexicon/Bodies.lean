import PredictiveParsing.Lexicon.Basic
import PredictiveParsing.Proofs.Regex.Scope

/-!
# The patterns of a lexicon

The rules of a lexicon are written out as patterns, which are put in parentheses to be tied to the
start of a text and to be joined to others. Their lexemes are those of the parts that are patterns
already, with fixed lexemes around them, as long as each part is complete on its own.

* `Rule.closed_parts`, `Rule.closed_body`: the parts and the body of a rule whose matcher has been
  built can be put in parentheses.
* `Rule.lexes_anchored`: the lexemes of a rule that is tied to the start of a text.
-/

namespace PredictiveParsing

open Text

/-! ## Escaped texts -/

namespace Lexes

variable {outer : List Bool} {rest : Text} {lexemes : List Lexeme} {last : Scope}

/-- A character that has been escaped if need be is a literal. -/
theorem read?_escaped (c : Char) (more : Text) :
    Lexeme.read? false (escapeText [c] ++ more) = .ok (some (.literal c, more)) := by
  by_cases hc : c ∈ "\\.+*?()|[]\x7b\x7d^$#&-~".toList
  · have hspecial : "\\.+*?()|[]\x7b\x7d^$#&-~".toList.all
        (fun c => decide (Lexeme.Escape.ofChar? c = some (.literal c))) = true := rfl
    have hchar : Lexeme.Escape.ofChar? c = some (.literal c) :=
      of_decide_eq_true (List.all_eq_true.1 hspecial c hc)
    have htext : escapeText [c] = ['\\', c] := by simp only [escapeText, List.flatMap_cons, hc]; rfl
    have hescape : Lexeme.readEscape (c :: more) = .ok (.literal c, more) := by
      simp only [Lexeme.readEscape, hchar]
    have hat : Lexeme.readAt false '\\' (c :: more) = .ok (.literal c, more) := by
      show (Lexeme.readEscape (c :: more)).map _ = _
      rw [hescape]
      rfl
    rw [htext]
    show (Lexeme.readAt false '\\' (c :: more)).map some = _
    rw [hat]
    rfl
  · have htext : escapeText [c] = [c] := by simp only [escapeText, List.flatMap_cons, hc]; rfl
    have hplain : Lexeme.readAt false c more = .ok (.literal c, more) := by
      unfold Lexeme.readAt
      split <;> first | rfl | exact absurd (by decide) hc
    rw [htext]
    show (Lexeme.readAt false c more).map some = _
    rw [hplain]
    rfl

theorem escaped (text : Text) (h : Lexes ⟨false, outer⟩ rest lexemes last) :
    Lexes ⟨false, outer⟩ (escapeText text ++ rest) (text.map .literal ++ lexemes) last := by
  induction text with
  | nil => exact h
  | cons c text ih =>
    have htext : escapeText (c :: text) = escapeText [c] ++ escapeText text :=
      @List.flatMap_append _ _ [c] text _
    rw [htext, List.append_assoc]
    exact .step (read?_escaped c (escapeText text ++ rest)) rfl ih

end Lexes

theorem foldlM_take_literals (text : Text) (scope : Scope) :
    (text.map Lexeme.literal).foldlM Scope.take scope = some scope := by
  induction text with
  | nil => rfl
  | cons c text ih => exact ih

theorem closed_escapeText (text : Text) : Closed (escapeText text) (text.map .literal) where
  balanced := ⟨false, foldlM_take_literals text {}⟩
  closes := fun hmore => .escaped text (.closing false false hmore)

/-! ## Rules -/

/-- The body of a keyword goes on with any number of characters of words. -/
theorem closed_keyword (text : Text) {word : Text} {lexemes : List Lexeme}
    (h : Closed word lexemes) :
    Closed (Rule.keyword text word).body
      (text.map .literal ++
        (.openGroup [] :: (lexemes ++ [.closeGroup, .repeat 0 none false]))) where
  balanced := by
    obtain ⟨extended, hfold⟩ := h.balanced
    refine ⟨false, ?_⟩
    rw [List.foldlM_append, foldlM_take_literals]
    show (lexemes ++ [Lexeme.closeGroup, Lexeme.repeat 0 none false]).foldlM Scope.take
      (Scope.within {} [false]) = _
    rw [List.foldlM_append, Scope.foldlM_take_within hfold]
    rfl
  closes := by
    intro outer tail more last hmore
    have hbody : (Rule.keyword text word).body ++ ')' :: tail =
        escapeText text ++ ("(?:".toList ++ (word ++ ')' :: '*' :: ')' :: tail)) := by
      simp only [Rule.body, List.append_assoc]
      rfl
    have hread : Lexeme.read? false ('*' :: ')' :: tail) =
        .ok (some (.repeat 0 none false, ')' :: tail)) := rfl
    have hstar : Lexes ⟨false, false :: outer⟩ ('*' :: ')' :: tail)
        (.repeat 0 none false :: .closeGroup :: more) last :=
      .step hread rfl (.closing false false hmore)
    rw [hbody, List.append_assoc, List.cons_append, List.append_assoc]
    exact .escaped text (.openPlain (h.closes hstar))

namespace Rule

/-- The parts of a rule that are patterns by themselves. -/
def parts : Rule → List Text
  | .literal _ => []
  | .pattern p => [p]
  | .keyword _ word => [word]

/-- The lexemes of a rule as a pattern, whose parts are complete on their own. -/
def lexemes : Rule → List Lexeme
  | .literal text => text.map .literal
  | .pattern p => (Regex.lexemes? p).getD []
  | .keyword text word =>
    text.map .literal ++ (.openGroup [] ::
      ((Regex.lexemes? word).getD [] ++ [.closeGroup, .repeat 0 none false]))

theorem anchored_eq (rule : Rule) :
    rule.anchored = "\\A".toList ++ ("(?:".toList ++ (rule.body ++ [')'])) := by
  delta anchored
  simp only [List.append_assoc]
  rfl

/-- A rule cannot end in a comment that swallows the parenthesis behind it. -/
theorem not_swallowed {rule : Rule} {r : Regex} (hread : Regex.read rule.anchored = .ok r)
    {lexemes : List Lexeme} {extended : Bool} {frame : Bool} {frames : List Bool} :
    ¬ Lexes ⟨false, [false]⟩ (rule.body ++ [')']) lexemes ⟨extended, frame :: frames⟩ := by
  intro hswallowed
  obtain ⟨found, _, hfound, _, _⟩ := Regex.read_ok hread
  obtain ⟨_, hlexes⟩ := Regex.lexemes?_eq_some_iff.1 hfound
  rw [anchored_eq] at hlexes
  have hlast := (hlexes.unique (Lexes.start (Lexes.openPlain hswallowed))).2
  cases hlast

/-- If a rule can be tied to the start of a text, each of its parts that is complete on its own can
be put in parentheses. -/
theorem closed_parts {rule : Rule} {r : Regex} (hread : Regex.read rule.anchored = .ok r)
    (hparts : ∀ p ∈ rule.parts, (Regex.lexemes? p).isSome) :
    ∀ p ∈ rule.parts, Closed p ((Regex.lexemes? p).getD []) := by
  cases rule with
  | literal text => exact fun p hp => absurd hp List.not_mem_nil
  | pattern p =>
    refine List.forall_mem_singleton.2 ?_
    obtain ⟨lexemes, hlexemes⟩ := Option.isSome_iff_exists.1 (hparts p List.mem_cons_self)
    rw [hlexemes]
    rcases closed_or_swallows hlexemes with hclosed | hswallows
    · exact hclosed
    · obtain ⟨extended, hswallowed⟩ := hswallows [false] [] (by simp)
      exact absurd hswallowed (not_swallowed hread)
  | keyword text word =>
    refine List.forall_mem_singleton.2 ?_
    obtain ⟨lexemes, hlexemes⟩ := Option.isSome_iff_exists.1 (hparts word List.mem_cons_self)
    rw [hlexemes]
    rcases closed_or_swallows hlexemes with hclosed | hswallows
    · exact hclosed
    · obtain ⟨extended, hswallowed⟩ := hswallows [false, false] ['*', ')'] (by decide)
      have hbody : (Rule.keyword text word).body ++ [')'] =
          escapeText text ++ ("(?:".toList ++ (word ++ ')' :: ['*', ')'])) := by
        simp only [Rule.body, List.append_assoc]
        rfl
      have hlexes := Lexes.escaped text (.openPlain hswallowed)
      rw [← hbody] at hlexes
      exact absurd hlexes (not_swallowed hread)

/-- The body of a rule that can be tied to the start of a text can be put in parentheses, if its
parts are complete on their own. -/
theorem closed_body {rule : Rule} {r : Regex} (hread : Regex.read rule.anchored = .ok r)
    (hparts : ∀ p ∈ rule.parts, (Regex.lexemes? p).isSome) : Closed rule.body rule.lexemes := by
  have hclosed := closed_parts hread hparts
  cases rule with
  | literal text => exact closed_escapeText text
  | pattern p => exact hclosed p List.mem_cons_self
  | keyword text word => exact closed_keyword text (hclosed word List.mem_cons_self)

/-- The lexemes of a rule that is tied to the start of a text. -/
theorem lexes_anchored {rule : Rule} {lexemes : List Lexeme} (h : Closed rule.body lexemes) :
    Lexes {} rule.anchored
      (.look .textStart :: .openGroup [] :: (lexemes ++ [.closeGroup])) {} := by
  rw [anchored_eq]
  exact .start (.openPlain (h.closes (.done rfl)))

end Rule

end PredictiveParsing
