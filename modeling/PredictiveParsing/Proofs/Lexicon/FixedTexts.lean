import PredictiveParsing.Proofs.Lexicon.Building
import PredictiveParsing.Proofs.Lexicon.Notation
import PredictiveParsing.Proofs.Regex.Items

/-!
# Kinds that give their text

A literal and a keyword give the text that a token has to have. Its characters are escaped, so that
they mean themselves in a pattern. A keyword takes the rest of the word with it and is refused where
there is any: then the match is longer than the text. All that an engine has to do for this is to
keep the notation in which such rules are written out.

* `Rule.writes_literal`, `Rule.writes_keyword`: what the patterns of literals and keywords write.
* `Kind.matchLength_exact`: literals match their text and nothing else, and keywords do so where no
  character of a word follows.
-/

namespace PredictiveParsing

open Text

/-! ## What is written -/

namespace Rule

variable {classOf : Text → Option CharClass}

theorem writes_anchored {rule : Rule} {rs : List Regex} (h : Writes classOf rule.body rs) :
    Writes classOf rule.anchored [.look .textStart, .ofFactors rs] := by
  have hanchored : rule.anchored =
      "\\A".toList ++ ("(?:".toList ++ rule.body ++ ")".toList ++ []) := by
    rw [List.append_nil]
    rfl
  rw [hanchored]
  exact .start (.group h .nil)

/-- The pattern of a literal writes its characters. -/
theorem writes_literal (text : Text) :
    Writes classOf (Rule.literal text).anchored
      [.look .textStart, .ofFactors (text.map (fun c => .literal [c]) ++ [])] := by
  have hbody : Writes classOf (escapeText text ++ []) _ := .escaped .nil text
  rw [List.append_nil] at hbody
  exact writes_anchored hbody

/-- The pattern of a keyword writes its characters and any number of characters of words. -/
theorem writes_keyword {word : Text} {k : CharClass} (hclass : classOf word = some k)
    (text : Text) :
    Writes classOf (Rule.keyword text word).anchored [.look .textStart,
      .ofFactors (text.map (fun c => .literal [c]) ++ [.repeat (.chars k) 0 none true])] := by
  have hbody := (Writes.run hclass .nil).escaped text
  rw [List.append_nil, ← List.append_assoc, ← List.append_assoc] at hbody
  exact writes_anchored hbody

end Rule

/-! ## What is found -/

namespace Engine.KeepsNotation

variable {M : Type} [Engine M] {classOf : Text → Option CharClass} {m : M} {rest : Text}

/-- Behind the condition that the text starts, the rest of a pattern is matched at the front. -/
theorem find_eq (hkeeps : KeepsNotation M classOf) {p : Text} {r : Regex}
    (hread : Engine.read p = .ok m) (hwrites : Writes classOf p [.look .textStart, r])
    (rest : Text) :
    Engine.find m rest = (r.ends ⟨0, none, rest⟩).head?.map fun q => ⟨0, q.passed⟩ :=
  (hkeeps p _ hwrites m hread rest).trans (Regex.leftmost_seq_textStart r rest)

/-- A rule with a fixed text is not found elsewhere. -/
theorem find_eq_none (hkeeps : KeepsNotation M classOf) {p text : Text} {rs : List Regex}
    (hread : Engine.read p = .ok m)
    (hwrites : Writes classOf p
      [.look .textStart, .ofFactors (text.map (fun c => .literal [c]) ++ rs)])
    (hfront : ¬ text <+: rest) : Engine.find m rest = none := by
  rw [hkeeps.find_eq hread hwrites, Regex.ends_ofFactors_literals,
    Regex.literalEnds_eq_nil hfront]
  rfl

/-- A literal is found where the text begins with it. -/
theorem find_literal (hkeeps : KeepsNotation M classOf) {text : Text}
    (hread : Engine.read (Rule.literal text).anchored = .ok m) (after : Text) :
    Engine.find m (text ++ after) = some ⟨0, byteLength text⟩ := by
  obtain ⟨q, hends, -, hpassed⟩ :=
    @Regex.literalEnds_of_append ⟨0, none, text ++ after⟩ text after rfl
  rw [hkeeps.find_eq hread (Rule.writes_literal text), Regex.ends_ofFactors_literals, hends]
  show some (Match.mk 0 q.passed) = _
  rw [hpassed, Nat.zero_add]

/-- A keyword is found there with the rest of the word. -/
theorem find_keyword (hkeeps : KeepsNotation M classOf) {text word : Text} {k : CharClass}
    (hread : Engine.read (Rule.keyword text word).anchored = .ok m)
    (hclass : classOf word = some k) (after : Text) :
    ∃ run, after = run ++ after.dropWhile k.mem ∧
      Engine.find m (text ++ after) = some ⟨0, byteLength text + byteLength run⟩ := by
  obtain ⟨q, hends, hrest, hpassed⟩ :=
    @Regex.literalEnds_of_append ⟨0, none, text ++ after⟩ text after rfl
  obtain ⟨last, hlast, hdropped⟩ := Regex.exists_ends_run k q
  obtain ⟨run, hrun, hstop⟩ := Regex.reaches_of_mem_ends (List.mem_of_head? hlast)
  rw [hdropped, hrest] at hrun
  refine ⟨run, hrun, ?_⟩
  rw [hkeeps.find_eq hread (Rule.writes_keyword hclass text), Regex.ends_ofFactors_literals,
    hends, List.flatMap_singleton]
  show (((Regex.repeat (.chars k) 0 none true).ends q).head?).map _ = _
  rw [hlast]
  show some (Match.mk 0 last.passed) = _
  rw [hstop, hpassed, Nat.zero_add]

end Engine.KeepsNotation

/-! ## Lengths -/

theorem CharClass.all_head? {k : CharClass} {text : Text} :
    text.head?.all (!k.mem ·) = true ↔ k.Clear text := by
  cases text <;> simp [Clear]

/-- The text of a kind is not empty. -/
theorem Lexicon.fixedText_ne_of_mem {M : Type} [Engine M] {definitions : List KindDefinition}
    {lexicon : Lexicon M} (hbuild : build definitions = .ok lexicon) {kind : Kind M}
    (hkind : kind ∈ lexicon.kinds) : kind.rule.fixedText ≠ some [] := by
  obtain ⟨⟨draft, hholds, hkinds, -⟩, -⟩ := build_ok hbuild
  refine (hholds.compiles kind.toKindDefinition ?_).fixedText
  rw [← hholds.definitions_eq, hkinds]
  exact List.mem_map_of_mem hkind

namespace Kind

variable {M : Type} [Engine M] {classOf : Text → Option CharClass} {kind : Kind M} {text : Text}

theorem matchLength_literal (hkeeps : Engine.KeepsNotation M classOf)
    (hcompiled : kind.Compiled) (hrule : kind.rule = .literal text) (hne : text ≠ [])
    (rest : Text) :
    kind.matchLength rest = if text <+: rest then some (byteLength text) else none := by
  have hread := hcompiled.read
  rw [hrule] at hread
  rw [matchLength, hrule]
  split
  · rename_i hfront
    obtain ⟨after, rfl⟩ := hfront
    have hpos : 0 < byteLength text := Nat.pos_of_ne_zero (mt byteLength_eq_zero_iff.1 hne)
    rw [hkeeps.find_literal hread]
    exact if_pos ⟨hpos, rfl⟩
  · rename_i hfront
    rw [hkeeps.find_eq_none hread (Rule.writes_literal text) hfront]
    rfl

theorem matchLength_keyword (hkeeps : Engine.KeepsNotation M classOf) {word : Text}
    {k : CharClass} (hcompiled : kind.Compiled) (hrule : kind.rule = .keyword text word)
    (hne : text ≠ []) (hclass : classOf word = some k) (rest : Text) :
    kind.matchLength rest =
      if text <+: rest ∧ (rest.drop text.length).head?.all (!k.mem ·) then
        some (byteLength text)
      else none := by
  have hread := hcompiled.read
  rw [hrule] at hread
  rw [matchLength, hrule]
  by_cases hfront : text <+: rest
  · obtain ⟨after, rfl⟩ := hfront
    have hpos : 0 < byteLength text := Nat.pos_of_ne_zero (mt byteLength_eq_zero_iff.1 hne)
    obtain ⟨run, hrun, hfind⟩ := hkeeps.find_keyword hread hclass after
    rw [hfind, List.drop_left, Option.bind_some]
    by_cases hclear : k.Clear after
    · obtain rfl : run = [] := by
        rw [CharClass.dropWhile_eq_self hclear] at hrun
        exact List.self_eq_append_left.1 hrun
      rw [if_pos ⟨hpos, decide_eq_true rfl⟩]
      exact (if_pos ⟨List.prefix_append text after, CharClass.all_head?.2 hclear⟩).symm
    · -- The rest of the word makes the match too long.
      have hlonger : byteLength run ≠ 0 := by
        intro hzero
        rw [byteLength_eq_zero_iff.1 hzero, List.nil_append] at hrun
        exact hclear (hrun ▸ k.clear_dropWhile after)
      have hlength : byteLength text ≠ byteLength text + byteLength run := by omega
      rw [if_neg fun h => hlength (of_decide_eq_true h.2)]
      exact (if_neg fun h => hclear (CharClass.all_head?.1 h.2)).symm
  · rw [hkeeps.find_eq_none hread (Rule.writes_keyword hclass text) hfront,
      if_neg fun h => hfront h.1]
    rfl

/-- In every lexicon of an engine that keeps the notation, a literal matches its text and nothing
else, whatever characters it has. A keyword whose rule for words is a class matches its text where
no character of the class follows, and nothing else. -/
theorem matchLength_exact (hkeeps : Engine.KeepsNotation M classOf)
    {definitions : List KindDefinition} {lexicon : Lexicon M}
    (hbuild : Lexicon.build definitions = .ok lexicon) (hkind : kind ∈ lexicon.kinds)
    (rest : Text) :
    (∀ text, kind.rule = .literal text →
      kind.matchLength rest = if text <+: rest then some (byteLength text) else none) ∧
    ∀ text word k, kind.rule = .keyword text word → classOf word = some k →
      kind.matchLength rest =
        if text <+: rest ∧ (rest.drop text.length).head?.all (!k.mem ·) then
          some (byteLength text)
        else none := by
  have hcompiled := Lexicon.compiled_of_mem hbuild hkind
  have hne := Lexicon.fixedText_ne_of_mem hbuild hkind
  refine ⟨fun text hrule => ?_, fun text word k hrule hclass => ?_⟩
  · refine matchLength_literal hkeeps hcompiled hrule (fun hnil => hne ?_) rest
    rw [hrule, hnil]
    rfl
  · refine matchLength_keyword hkeeps hcompiled hrule (fun hnil => hne ?_) hclass rest
    rw [hrule, hnil]
    rfl

/-- A literal of special characters, and a keyword whose characters are all characters of words. -/
theorem matchLength_exact_special :
    ∃ (lexicon : Lexicon) (literal keyword : Kind),
      Lexicon.build [{ name := "L", rule := .literal "(.*é".toList },
        { name := "K", rule := .keyword "if".toList "[a-z]".toList }] = .ok lexicon ∧
      lexicon.kinds = [literal, keyword] ∧
      literal.matchLength "(.*é)".toList = some 5 ∧ literal.matchLength "(abé)".toList = none ∧
      keyword.matchLength "if(".toList = some 2 ∧ keyword.matchLength "iff".toList = none := by
  let definitions : List KindDefinition :=
    [{ name := "L", rule := .literal "(.*é".toList },
      { name := "K", rule := .keyword "if".toList "[a-z]".toList }]
  have hclass : Regex.classOf? "[a-z]".toList = some ⟨[(0x61, 0x7a)]⟩ := rfl
  have hliteral := @matchLength_exact Matcher _ _ _ Matcher.keepsNotation definitions _ rfl
    List.mem_cons_self
  have hkeyword := @matchLength_exact Matcher _ _ _ Matcher.keepsNotation definitions _ rfl
    (.tail _ List.mem_cons_self)
  refine ⟨_, _, _, rfl, rfl, ?_, ?_, ?_, ?_⟩
  · exact ((hliteral _).1 _ rfl).trans (by decide +kernel)
  · exact ((hliteral _).1 _ rfl).trans (by decide +kernel)
  · exact ((hkeyword _).2 _ _ _ rfl hclass).trans (by decide +kernel)
  · exact ((hkeyword _).2 _ _ _ rfl hclass).trans (by decide +kernel)

end Kind

end PredictiveParsing
