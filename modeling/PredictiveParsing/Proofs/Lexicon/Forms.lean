import PredictiveParsing.Proofs.Lexicon.Bodies
import PredictiveParsing.Proofs.Regex.Order

/-!
# The written forms of the patterns of a lexicon

Where the parts of a rule are complete on their own, the pattern that ties the rule to the start of
a text is written as the condition and the rule behind it, and the pattern for runs of tokens as the
condition and one or more rounds of a choice between the rules, in their order.

* `Rule.written?_anchored`, `written?_runPattern`: these two forms.
-/

namespace PredictiveParsing

open Text

namespace Rule

/-- The written form of a rule whose parts are complete on their own. -/
def form : Rule → Regex
  | .literal text => Regex.ofFactors (text.map fun c => .literal [c])
  | .pattern p => (Regex.written? p).getD .empty
  | .keyword text word =>
    Regex.ofFactors ((text.map fun c => .literal [c]) ++
      [.repeat ((Regex.written? word).getD .empty) 0 none true])

/-- Whether each part of a rule is complete on its own and asks for no condition on a place. -/
def isPlain (rule : Rule) : Bool :=
  rule.parts.all fun p => (Regex.written? p).any Regex.isPlain

variable {rule : Rule}

theorem written?_of_isPlain (h : rule.isPlain = true) {p : Text} (hp : p ∈ rule.parts) :
    ∃ r, Regex.written? p = some r ∧ r.isPlain = true :=
  (Option.any_eq_true _ _).1 (List.all_eq_true.1 h p hp)

theorem written?_isSome (h : rule.isPlain = true) :
    ∀ p ∈ rule.parts, (Regex.written? p).isSome := by
  intro p hp
  obtain ⟨r, hr, _⟩ := written?_of_isPlain h hp
  exact Option.isSome_iff_exists.2 ⟨r, hr⟩

theorem isPlain_form (h : rule.isPlain = true) : rule.form.isPlain = true := by
  have hliterals (text : Text) :
      ∀ r ∈ text.map fun c => Regex.literal [c], r.isPlain = true := by
    intro r hr
    obtain ⟨c, _, rfl⟩ := List.mem_map.1 hr
    rfl
  cases rule with
  | literal text => exact Regex.isPlain_ofFactors (hliterals text)
  | pattern p =>
    obtain ⟨r, hr, hplain⟩ := written?_of_isPlain h List.mem_cons_self
    rw [form, hr]
    exact hplain
  | keyword text word =>
    obtain ⟨r, hr, hplain⟩ := written?_of_isPlain h List.mem_cons_self
    rw [form, hr]
    refine Regex.isPlain_ofFactors fun s hs => ?_
    rcases List.mem_append.1 hs with hs | hs
    · exact hliterals text s hs
    · obtain rfl := List.mem_singleton.1 hs
      exact hplain

theorem lexemes?_isSome (h : ∀ p ∈ rule.parts, (Regex.written? p).isSome) :
    ∀ p ∈ rule.parts, (Regex.lexemes? p).isSome := by
  intro p hp
  obtain ⟨r, hr⟩ := Option.isSome_iff_exists.1 (h p hp)
  obtain ⟨lexemes, hlexemes, _⟩ := Option.bind_eq_some_iff.1 hr
  exact Option.isSome_iff_exists.2 ⟨lexemes, hlexemes⟩

/-- The lexemes of a rule write its form. -/
theorem ofLexemes?_lexemes (h : ∀ p ∈ rule.parts, (Regex.written? p).isSome) :
    Regex.ofLexemes? rule.lexemes = some rule.form := by
  cases rule with
  | literal text =>
    rw [lexemes, Regex.ofLexemes?_of_foldlM (DraftReader.foldlM_take_literals text rfl)]
    simp [Draft.content, Draft.branch, form, Regex.ofBranches, Function.comp_def]
  | pattern p =>
    obtain ⟨r, hr⟩ := Option.isSome_iff_exists.1 (h p List.mem_cons_self)
    obtain ⟨lexemes, hlexemes, hforms⟩ := Option.bind_eq_some_iff.1 hr
    rw [Rule.lexemes, form, hlexemes, hr]
    exact hforms
  | keyword text word =>
    obtain ⟨r, hr⟩ := Option.isSome_iff_exists.1 (h word List.mem_cons_self)
    obtain ⟨lexemes, hlexemes, hforms⟩ := Option.bind_eq_some_iff.1 hr
    rw [Rule.lexemes, form, hlexemes, hr]
    have hword (s : DraftReader) (hs : s.inner.flags = {}) :
        (Lexeme.openGroup [] :: (lexemes ++ [.closeGroup, .repeat 0 none false])).foldlM
          DraftReader.take s = some (s.push (.repeat r 0 none true)) := by
      have hsplit : Lexeme.openGroup [] :: (lexemes ++ [.closeGroup, .repeat 0 none false]) =
          (.openGroup [] :: (lexemes ++ [.closeGroup])) ++ [.repeat 0 none false] := by simp
      rw [hsplit, List.foldlM_append, DraftReader.foldlM_take_group hforms hs]
      show some (s.push (.repeat r 0 none (false == s.inner.flags.swapGreed))) = _
      rw [hs]
      rfl
    have hfold : (text.map Lexeme.literal ++ (Lexeme.openGroup [] ::
        (lexemes ++ [.closeGroup, .repeat 0 none false]))).foldlM DraftReader.take {} =
          some (DraftReader.push { inner := { pieces :=
            (text.map fun c => (Regex.literal [c], true)).reverse ++ [] } }
              (.repeat r 0 none true)) := by
      rw [List.foldlM_append, DraftReader.foldlM_take_literals text rfl]
      exact hword _ rfl
    rw [Option.getD_some, Regex.ofLexemes?_of_foldlM hfold]
    simp [Draft.content, Draft.branch, Draft.push, Regex.ofBranches, Function.comp_def]

/-- A rule whose body can be put in parentheses is written behind the condition that the text
starts. -/
theorem written?_anchored (hclosed : Closed rule.body rule.lexemes)
    (h : ∀ p ∈ rule.parts, (Regex.written? p).isSome) :
    Regex.written? rule.anchored = some (.seq (.look .textStart) rule.form) := by
  have hlexemes := Regex.lexemes?_eq_some_iff.2 ⟨_, lexes_anchored hclosed⟩
  have hfold : (Lexeme.look .textStart :: .openGroup [] :: (rule.lexemes ++ [.closeGroup])).foldlM
      DraftReader.take {} =
        some (DraftReader.push (DraftReader.push {} (.look .textStart)) rule.form) :=
    DraftReader.foldlM_take_group (ofLexemes?_lexemes h) rfl
  rw [Regex.written?, hlexemes]
  exact Regex.ofLexemes?_of_foldlM hfold

end Rule

/-! ## Runs of tokens -/

/-- The lexemes of a choice between rules. -/
def runLexemes : List Rule → List Lexeme
  | [] => []
  | [rule] => .openGroup [] :: (rule.lexemes ++ [.closeGroup])
  | rule :: next :: rules =>
    .openGroup [] :: (rule.lexemes ++ .closeGroup :: .bar :: runLexemes (next :: rules))

/-- The choice between rules, each in parentheses. -/
def runText (rules : List Rule) : Text :=
  "|".toList.intercalate (rules.map fun rule => "(?:".toList ++ rule.body ++ ")".toList)

theorem lexes_runText {rules : List Rule} (hne : rules ≠ [])
    (hclosed : ∀ rule ∈ rules, Closed rule.body rule.lexemes) {outer : List Bool} {rest : Text}
    {lexemes : List Lexeme} {last : Scope} (h : Lexes ⟨false, outer⟩ rest lexemes last) :
    Lexes ⟨false, outer⟩ (runText rules ++ rest) (runLexemes rules ++ lexemes) last := by
  induction rules with
  | nil => exact absurd rfl hne
  | cons rule rules ih =>
    have hrule := hclosed rule List.mem_cons_self
    cases rules with
    | nil =>
      have htext : runText [rule] ++ rest = "(?:".toList ++ (rule.body ++ ')' :: rest) := by
        simp [runText, List.intercalate]
      rw [htext, runLexemes, List.cons_append, List.append_assoc]
      exact .openPlain (hrule.closes h)
    | cons next rules =>
      have htext : runText (rule :: next :: rules) ++ rest =
          "(?:".toList ++ (rule.body ++ ')' :: '|' :: (runText (next :: rules) ++ rest)) := by
        simp [runText, List.intercalate]
      have hlater := ih (by simp) fun r hr => hclosed r (List.mem_cons_of_mem _ hr)
      have hbar : Lexeme.read? false ('|' :: (runText (next :: rules) ++ rest)) =
          .ok (some (.bar, runText (next :: rules) ++ rest)) := rfl
      rw [htext, runLexemes, List.cons_append, List.append_assoc]
      exact .openPlain (hrule.closes (.step hbar rfl hlater))

/-- Behind finished branches, a choice between rules adds one branch for each. -/
theorem foldlM_take_runLexemes {rules : List Rule} (hne : rules ≠ [])
    (hforms : ∀ rule ∈ rules, Regex.ofLexemes? rule.lexemes = some rule.form)
    (branches : List Regex) (outer : List Draft) :
    ∃ d : Draft,
      (runLexemes rules).foldlM DraftReader.take ⟨{ branches := branches }, outer⟩ =
        some ⟨d, outer⟩ ∧
      d.content = Regex.ofBranches (branches.reverse ++ rules.map (·.form)) := by
  induction rules generalizing branches with
  | nil => exact absurd rfl hne
  | cons rule rules ih =>
    have hrule := DraftReader.foldlM_take_group (hforms rule List.mem_cons_self)
      (s := ⟨{ branches := branches }, outer⟩) rfl
    cases rules with
    | nil =>
      refine ⟨_, hrule, ?_⟩
      simp [Draft.content, Draft.branch, Draft.push, Regex.ofFactors]
    | cons next rules =>
      obtain ⟨d, hfold, hcontent⟩ := ih (by simp)
        (fun r hr => hforms r (List.mem_cons_of_mem _ hr)) (rule.form :: branches)
      refine ⟨d, ?_, by simpa using hcontent⟩
      have hsplit : runLexemes (rule :: next :: rules) =
          (.openGroup [] :: (rule.lexemes ++ [.closeGroup])) ++
            .bar :: runLexemes (next :: rules) := by
        simp [runLexemes]
      rw [hsplit, List.foldlM_append, hrule]
      exact hfold

/-- The pattern for runs of tokens is written as one or more rounds of a choice behind the condition
that the text starts. -/
theorem written?_runPattern {rules : List Rule} (hne : rules ≠ [])
    (hclosed : ∀ rule ∈ rules, Closed rule.body rule.lexemes)
    (h : ∀ rule ∈ rules, ∀ p ∈ rule.parts, (Regex.written? p).isSome) :
    Regex.written? (Lexicon.runPattern (rules.map (·.body))) =
      some (.seq (.look .textStart)
        (.repeat (Regex.ofBranches (rules.map (·.form))) 1 none true)) := by
  have htext : Lexicon.runPattern (rules.map (·.body)) =
      "\\A".toList ++ ("(?:".toList ++ (runText rules ++ ")+".toList)) := by
    delta Lexicon.runPattern runText
    simp only [List.map_map, List.append_assoc]
    rfl
  have hplus : Lexeme.read? false ['+'] = .ok (some (.repeat 1 none false, [])) := rfl
  have hend : Lexes ⟨false, [false]⟩ ")+".toList [.closeGroup, .repeat 1 none false] {} :=
    .closing false false (.step hplus rfl (.done rfl))
  have hlexes := Lexes.start (Lexes.openPlain (lexes_runText hne hclosed hend))
  rw [← htext] at hlexes
  obtain ⟨d, hfold, hcontent⟩ := foldlM_take_runLexemes hne
    (fun rule hrule => Rule.ofLexemes?_lexemes (h rule hrule)) [] []
  have hgroup : (Lexeme.look .textStart :: .openGroup [] ::
      (runLexemes rules ++ [.closeGroup])).foldlM DraftReader.take {} =
        some (DraftReader.push (DraftReader.push {} (.look .textStart)) d.content) :=
    DraftReader.foldlM_take_group (Regex.ofLexemes?_of_foldlM hfold) rfl
  have hrounds : (Lexeme.look .textStart :: .openGroup [] ::
      (runLexemes rules ++ [.closeGroup, .repeat 1 none false])).foldlM DraftReader.take {} =
        some (DraftReader.push (DraftReader.push {} (.look .textStart))
          (.repeat d.content 1 none true)) := by
    have hsplit : Lexeme.look .textStart :: .openGroup [] ::
        (runLexemes rules ++ [.closeGroup, .repeat 1 none false]) =
        (.look .textStart :: .openGroup [] :: (runLexemes rules ++ [.closeGroup])) ++
          [.repeat 1 none false] := by simp
    rw [hsplit, List.foldlM_append, hgroup]
    rfl
  rw [Regex.written?, Regex.lexemes?_eq_some_iff.2 ⟨_, hlexes⟩]
  refine (Regex.ofLexemes?_of_foldlM hrounds).trans ?_
  rw [hcontent]
  rfl

end PredictiveParsing
