import PredictiveParsing.Proofs.Lexicon.Bodies
import PredictiveParsing.Proofs.Lexicon.Building
import PredictiveParsing.Proofs.Regex.Rests

/-!
# Matches begin at the start of the text

The pattern of a rule is put in parentheses behind the condition that the text starts there. As
long as the parts of the rule are complete on their own, the group that is opened in front of them
is the one that is closed behind them, so the condition stands before all branches and every match
of the kind begins where the text does. A part that closes the group itself, such as `a)|(?:b`,
leaves its second branch without the condition.

* `Engine.Anchors`: what is asked of an engine; `Matcher.anchors`: the one of this library does it.
* `Kind.find_of_matchLength`, `Kind.start_of_matchLength`: a token begins at the start of the text.
* `matchLength_unbalanced`: a lexicon with a token that begins behind it.
-/

namespace PredictiveParsing

open Text

/-! ## Matchers that are tied to the start -/

namespace Matcher

theorem start_of_find {m : Matcher} (hm : m.anchored = true) {text : Text} {found : Match}
    (h : m.find text = some found) : found.start = 0 := by
  obtain ⟨q, -, rfl⟩ := exists_of_find hm h
  rfl

end Matcher

namespace Regex

/-- A sequence that begins with a condition. -/
theorem concat_look (a : Assertion) (r : Regex) :
    concat [.look a, r] = .look a ∨ ∃ rest, concat [.look a, r] = .seq (.look a) rest := by
  have hfactors : concat [.look a, r] = ofFactors (.look a :: (r.factors ++ []).foldr prepend []) :=
    rfl
  rw [hfactors]
  cases (r.factors ++ []).foldr prepend [] with
  | nil => exact Or.inl rfl
  | cons next rest => exact Or.inr ⟨_, rfl⟩

theorem alternation_concat_look (a : Assertion) (r : Regex) :
    alternation [concat [.look a, r]] = concat [.look a, r] := by
  rcases concat_look a r with h | ⟨rest, h⟩ <;> rw [h] <;> rfl

theorem anchored_concat_look (r : Regex) :
    (Matcher.ofRegex (concat [.look .textStart, r])).anchored = true := by
  rcases concat_look .textStart r with h | ⟨rest, h⟩ <;> rw [h]
  · rfl
  · show (Code.andThen (.look .textStart) ((Code.ofRegex rest).run 0).1).isAnchored = true
    cases ((Code.ofRegex rest).run 0).1 <;> rfl

end Regex

/-! ## Rules -/

namespace Rule

/-- The expression of a rule whose body can be put in parentheses asks for the start of the text
before anything else. -/
theorem read_anchored {rule : Rule} {lexemes : List Lexeme} (h : Closed rule.body lexemes)
    {r : Regex} (hread : Regex.read rule.anchored = .ok r) :
    ∃ inside, r = Regex.concat [.look .textStart, inside] := by
  obtain ⟨found, s, hfound, hfold, hfinish⟩ := Regex.read_ok hread
  obtain ⟨_, hlexes⟩ := Regex.lexemes?_eq_some_iff.1 hfound
  obtain ⟨rfl, _⟩ := hlexes.unique (lexes_anchored h)
  obtain ⟨extended, hbalanced⟩ := h.balanced
  let first : OpenGroup := { pieces := [⟨.look .textStart, 0, true⟩] }
  let opened : PatternReader := { outer := [first] }
  change (lexemes ++ [Lexeme.closeGroup]).foldlM PatternReader.take opened = .ok s at hfold
  rw [List.foldlM_append] at hfold
  obtain ⟨s', hinside, hclose⟩ := exists_of_bind_eq_ok hfold
  obtain ⟨s'', hclose, hlast⟩ := exists_of_bind_eq_ok hclose
  cases hlast
  have hopened : opened.outer = [] ++ [first] := rfl
  obtain ⟨inside, houter, hlength⟩ :=
    PatternReader.foldlM_take_outer hinside hopened rfl hbalanced
  obtain rfl : inside = [] := List.length_eq_zero_iff.1 hlength
  obtain ⟨group, outer, houter', rfl⟩ := PatternReader.closeGroup_ok hclose
  rw [houter'] at houter
  cases houter
  rw [PatternReader.finish] at hfinish
  split at hfinish
  · cases hfinish
  · split at hfinish
    · cases hfinish
      exact ⟨s'.inner.closed.regex, Regex.alternation_concat_look _ _⟩
    · cases hfinish

/-- So it is matched at the start of a text only. -/
theorem anchored_of_closed {rule : Rule} {lexemes : List Lexeme} (h : Closed rule.body lexemes)
    {m : Matcher} (hread : Matcher.read rule.anchored = .ok m) : m.anchored = true := by
  obtain ⟨r, hregex, rfl⟩ := Matcher.read_ok hread
  obtain ⟨inside, rfl⟩ := read_anchored h hregex
  exact Regex.anchored_concat_look inside

end Rule

/-! ## Engines -/

/-- What an engine makes of patterns that are complete on their own. Escaped texts are, and keywords
if their words are; and in a group behind the condition that the text starts, such a pattern is
found at the start only. -/
structure Engine.Anchors (M : Type) [Engine M] (complete : Text → Prop) : Prop where
  escaped (text : Text) : complete (escapeText text)
  keyword (text : Text) {word : Text} (h : complete word) : complete (Rule.keyword text word).body
  start {rule : Rule} (h : complete rule.body) {m : M} (hread : Engine.read rule.anchored = .ok m)
    {text : Text} {found : Match} (hfound : Engine.find m text = some found) : found.start = 0

/-- In this library the complete patterns are those that can be put in parentheses. -/
theorem Matcher.anchors : Engine.Anchors Matcher fun p => ∃ lexemes, Closed p lexemes where
  escaped text := ⟨_, closed_escapeText text⟩
  keyword text _ := fun ⟨_, hword⟩ => ⟨_, closed_keyword text hword⟩
  start := fun ⟨_, hbody⟩ _ hread _ _ hfound =>
    start_of_find (Rule.anchored_of_closed hbody hread) hfound

/-! ## Kinds -/

namespace Kind

/-- Whatever engine matches them, the kinds whose parts are complete on their own are found where a
text starts: the match that gives a token its length begins there. -/
theorem find_of_matchLength {M : Type} [Engine M] {complete : Text → Prop}
    (hanchors : Engine.Anchors M complete) {definitions : List KindDefinition}
    {lexicon : Lexicon M} (hbuild : Lexicon.build definitions = .ok lexicon) {kind : Kind M}
    (hkind : kind ∈ lexicon.kinds) (hparts : ∀ p ∈ kind.rule.parts, complete p) {text : Text}
    {length : Nat} (h : kind.matchLength text = some length) :
    Engine.find kind.matcher text = some ⟨0, length⟩ := by
  have hbody : complete kind.rule.body := by
    cases hrule : kind.rule with
    | literal text => exact hanchors.escaped text
    | pattern p =>
      rw [hrule] at hparts
      exact hparts p List.mem_cons_self
    | keyword text word =>
      rw [hrule] at hparts
      exact hanchors.keyword text (hparts word List.mem_cons_self)
  obtain ⟨found, hfound, hlength⟩ := Option.bind_eq_some_iff.1 h
  have hstart := hanchors.start hbody (Lexicon.compiled_of_mem hbuild hkind).read hfound
  split at hlength
  · cases hlength
    rw [hfound, ← hstart]
  · cases hlength

/-- In every lexicon, a kind whose rule has parts with balanced parentheses matches at the start of
a text only: the match that gives a token its length begins there. -/
theorem start_of_matchLength {definitions : List KindDefinition} {lexicon : Lexicon}
    (hbuild : Lexicon.build definitions = .ok lexicon) {kind : Kind}
    (hkind : kind ∈ lexicon.kinds) (hparts : ∀ p ∈ kind.rule.parts, (Regex.lexemes? p).isSome)
    {text : Text} {length : Nat} (h : kind.matchLength text = some length) :
    kind.matcher.find text = some ⟨0, length⟩ := by
  obtain ⟨r, hregex, _⟩ := Matcher.read_ok (Lexicon.compiled_of_mem hbuild hkind).read
  have hclosed := Rule.closed_parts hregex hparts
  exact find_of_matchLength Matcher.anchors hbuild hkind (fun p hp => ⟨_, hclosed p hp⟩) h

/-- Both branches of `a|b` are tied to the start of the text. -/
theorem start_of_matchLength_choice :
    ∃ definitions lexicon kind, Lexicon.build definitions = .ok lexicon ∧ kind ∈ lexicon.kinds ∧
      kind.rule = .pattern "a|b".toList ∧ kind.matchLength "ba".toList = some 1 ∧
      kind.matcher.find "ba".toList = some ⟨0, 1⟩ := by
  let definitions : List KindDefinition := [{ name := "LETTER", rule := .pattern "a|b".toList }]
  have hlexemes : (Regex.lexemes? "a|b".toList).isSome := rfl
  refine ⟨definitions, _, _, rfl, List.mem_cons_self, rfl, rfl, ?_⟩
  exact @start_of_matchLength definitions _ rfl _ List.mem_cons_self
    (List.forall_mem_singleton.2 hlexemes) _ _ rfl

/-- A pattern that closes the group around it has a branch that is not tied to the start of the
text, and a token of its kind begins behind the start. -/
theorem matchLength_unbalanced :
    ∃ lexicon kind,
      Lexicon.build [{ name := "P", rule := .pattern "a)|(?:b".toList }] = .ok lexicon ∧
      kind ∈ lexicon.kinds ∧ kind.matchLength "xb".toList = some 2 ∧
      kind.matcher.find "xb".toList = some ⟨1, 2⟩ :=
  ⟨_, _, rfl, List.mem_cons_self, rfl, rfl⟩

end Kind

end PredictiveParsing
