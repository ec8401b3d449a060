import PredictiveParsing.Proofs.Ecma.Words
import PredictiveParsing.Proofs.Predict.Admitting
import PredictiveParsing.Proofs.Predict.Reordering

/-!
# Kinds that match at one place

A keyword is a name, too, and a regular expression begins with a slash. Apart from that, the kinds
that count begin with different characters, so no two of them match at the front of one text.
Decisions can therefore depend on the order of candidates only where keywords are told from names.

* `sees_keyword_iff`: a keyword matches exactly where the name that stands there is its text.
* `intended_of_clash`: all pairs of kinds that match at one place are meant to.
* `ofKinds_optionalLookaheads`, `ofKinds_alternativeLookaheads`: the lookaheads of the grammar are
  made of their kinds.
* `conflicts_intended`: all of that, and what can be reordered without changing a decision.
-/

namespace PredictiveParsing.Ecma

open Text

/-! ## Pairs of kinds -/

/-- The kinds that count. -/
def significantKinds : List KindId :=
  [returnKeyword, varKeyword, identifier, numericLiteral, regexLiteral, slash, star, plus, minus,
    equals, semicolon, leftParen, rightParen]

/-- The keywords with their texts. -/
def keywords : List (KindId × Text) :=
  [(returnKeyword, "return".toList), (varKeyword, "var".toList)]

/-- The pairs of kinds that are meant to match at one place. -/
def intendedConflicts : List (KindId × KindId) :=
  [(returnKeyword, identifier), (varKeyword, identifier), (regexLiteral, slash)]

theorem mem_significantKinds (id : KindId) :
    id ∈ significantKinds ↔ ∃ kind, lexicon.get? id = some kind ∧ kind.flags.skipped = false := by
  have hkinds : significantKinds = lexicon.kindsWith (!·.flags.skipped) := by decide +kernel
  rw [hkinds, Lexicon.mem_kindsWith]
  simp only [Bool.not_eq_true']

theorem word_of_mem_keywords {keyword : KindId} {word : Text} (h : (keyword, word) ∈ keywords) :
    shapeOf keyword = some (.keyword word) ∧ Shape.name.Word word := by
  rw [keywords, List.mem_cons, List.mem_singleton, Prod.mk.injEq, Prod.mk.injEq] at h
  rcases h with ⟨rfl, rfl⟩ | ⟨rfl, rfl⟩
  · exact ⟨rfl, 'r', "eturn".toList, rfl, rfl, List.all_eq_true.1 (by decide)⟩
  · exact ⟨rfl, 'v', "ar".toList, rfl, rfl, List.all_eq_true.1 (by decide)⟩

theorem sees_keyword_iff {keyword : KindId} {word : Text} (h : (keyword, word) ∈ keywords)
    (text : Text) :
    lexicon.sees text keyword = true ↔
      ∃ rest, text = word ++ rest ∧ lexicon.Takes identifier word rest := by
  obtain ⟨hshape, hname⟩ := word_of_mem_keywords h
  have hidentifier : shapeOf identifier = some .name := rfl
  constructor
  · intro hsees
    obtain ⟨word', rest, rfl, htakes⟩ := Lexicon.exists_takes hsees
    obtain ⟨rfl, -⟩ := word_of_takes hshape htakes
    exact ⟨rest, rfl, takes_of_word hidentifier hname (clear_wordPart hshape rfl htakes)⟩
  · rintro ⟨rest, rfl, htakes⟩
    have hne : word ≠ [] := by
      obtain ⟨c, run, rfl, -⟩ := hname
      exact List.cons_ne_nil c run
    have hkeyword : lexicon.Takes keyword word rest :=
      takes_of_word hshape ⟨rfl, hne⟩ (clear_wordPart hidentifier rfl htakes)
    exact hkeyword.sees

theorem sees_slash {text : Text} (h : lexicon.sees text regexLiteral = true) :
    lexicon.sees text slash = true := by
  have hregex : shapeOf regexLiteral = some .regex := rfl
  have hsign : shapeOf slash = some (.sign '/') := rfl
  obtain ⟨word, rest, rfl, htakes⟩ := Lexicon.exists_takes h
  obtain ⟨body, flags, rfl, -⟩ := word_of_takes hregex htakes
  have hslash : lexicon.Takes slash ['/'] ((body ++ '/' :: flags) ++ rest) :=
    takes_of_word hsign rfl fun _ _ => rfl
  exact hslash.sees

/-- Kinds that begin with the same character are meant to. -/
theorem intended_of_clash {id id' : KindId} (hid : id ∈ significantKinds)
    (hid' : id' ∈ significantKinds) (hne : id ≠ id') (h : lexicon.Clash id id') :
    (id, id') ∈ intendedConflicts ∨ (id', id) ∈ intendedConflicts := by
  have hall : ∀ id ∈ significantKinds, ∀ id' ∈ significantKinds, id = id' ∨
      (id, id') ∈ intendedConflicts ∨ (id', id) ∈ intendedConflicts ∨
      (shapeOf id).any (fun shape =>
        (shapeOf id').any fun shape' => shape.first.disjoint shape'.first) = true := by decide
  rcases hall id hid id' hid' with heq | hmem | hmem | hdisjoint
  · exact absurd heq hne
  · exact Or.inl hmem
  · exact Or.inr hmem
  · simp only [Option.any_eq_true] at hdisjoint
    obtain ⟨shape, hshape, shape', hshape', hdisjoint⟩ := hdisjoint
    obtain ⟨text, hsees, hsees'⟩ := h
    obtain ⟨word, rest, rfl, htakes⟩ := Lexicon.exists_takes hsees
    rw [sees_eq_false hshape hshape' hdisjoint htakes] at hsees'
    cases hsees'

/-! ## Decisions -/

/-- The lookaheads that decide whether something comes next. -/
def optionalLookaheads : List OptionalLookahead :=
  [statementStart, expressionStart, initializerStart, additiveStart, multiplicativeStart]

/-- The lookaheads that decide what comes next. -/
def alternativeLookaheads : List AlternativeLookahead :=
  [statementChoice, additiveChoice, multiplicativeChoice, primaryChoice]

/-- The first kind is not that of names or the second one is no keyword. -/
def InOrder (first second : KindId) : Prop :=
  ¬ (first = identifier ∧ second ∈ keywords.map Prod.fst)

instance : DecidableRel InOrder := fun _ _ => inferInstanceAs (Decidable (¬ _))

/-- The kinds of the first branch are in order with those of the second. -/
def BranchesInOrder (first second : Candidates) : Prop :=
  ∀ id ∈ first.kinds, ∀ id' ∈ second.kinds, InOrder id id'

instance : DecidableRel BranchesInOrder := fun _ _ => inferInstanceAs (Decidable (∀ _ ∈ _, _))

/-- All kinds count, and there is no slash besides regular expressions. -/
def Unmixed (kinds : List KindId) : Prop :=
  (∀ id ∈ kinds, id ∈ significantKinds) ∧ ¬ (regexLiteral ∈ kinds ∧ slash ∈ kinds)

instance : DecidablePred Unmixed := fun _ => inferInstanceAs (Decidable (_ ∧ _))

/-- Among kinds without regular expressions and slashes only names and keywords clash. -/
theorem eq_of_clash {kinds : List KindId} (h : Unmixed kinds) {id id' : KindId} (hid : id ∈ kinds)
    (hid' : id' ∈ kinds) (hclash : lexicon.Clash id id') (horder : InOrder id id')
    (horder' : InOrder id' id) : id = id' := by
  by_contra hne
  have hall : ∀ pair ∈ intendedConflicts,
      pair = (regexLiteral, slash) ∨ pair.1 ∈ keywords.map Prod.fst ∧ pair.2 = identifier := by
    decide
  rcases intended_of_clash (h.1 id hid) (h.1 id' hid') hne hclash with hmem | hmem
  · rcases hall _ hmem with heq | ⟨hkeyword, hname⟩
    · obtain ⟨rfl, rfl⟩ := Prod.mk.inj heq
      exact h.2 ⟨hid, hid'⟩
    · exact horder' ⟨hname, hkeyword⟩
  · rcases hall _ hmem with heq | ⟨hkeyword, hname⟩
    · obtain ⟨rfl, rfl⟩ := Prod.mk.inj heq
      exact h.2 ⟨hid', hid⟩
    · exact horder ⟨hname, hkeyword⟩

theorem optionalLookaheads_ordered :
    ∀ start ∈ optionalLookaheads,
      Unmixed start.candidates.kinds ∧ start.candidates.kinds.Pairwise InOrder := by
  decide

theorem alternativeLookaheads_ordered :
    ∀ choice ∈ alternativeLookaheads,
      Unmixed choice.expected ∧ choice.branches.Pairwise BranchesInOrder ∧
        ∀ branch ∈ choice.branches, ∀ branch' ∈ choice.branches, ∀ id ∈ branch.kinds,
          id ∈ branch'.kinds → branch = branch' := by
  decide

/-- The lexicon admits the candidates of each lookahead of the grammar, so that the lookahead can be
made of them. -/
theorem ofKinds_optionalLookaheads :
    ∀ start ∈ optionalLookaheads,
      OptionalLookahead.ofKinds lexicon start.candidates.kinds = .ok start := by
  have hkinds : ∀ start ∈ optionalLookaheads,
      start.candidates.kinds ≠ [] ∧ ∀ id ∈ start.candidates.kinds, id ∈ significantKinds := by
    decide
  intro start hstart
  obtain ⟨hne, hsignificant⟩ := hkinds start hstart
  exact OptionalLookahead.ofKinds_ok_iff.2
    ⟨⟨hne, fun id hid => (mem_significantKinds id).1 (hsignificant id hid)⟩, rfl⟩

theorem ofKinds_alternativeLookaheads :
    ∀ choice ∈ alternativeLookaheads,
      AlternativeLookahead.ofKinds lexicon (choice.branches.map (·.kinds)) = .ok choice := by
  have hkinds : ∀ choice ∈ alternativeLookaheads, choice.branches.map (·.kinds) ≠ [] ∧
      ∀ kinds ∈ choice.branches.map (·.kinds),
        kinds ≠ [] ∧ ∀ id ∈ kinds, id ∈ significantKinds := by
    decide
  intro choice hchoice
  obtain ⟨hne, hbranches⟩ := hkinds choice hchoice
  refine AlternativeLookahead.ofKinds_ok_iff.2 ⟨⟨hne, fun kinds hmem => ?_⟩, rfl⟩
  obtain ⟨hfilled, hsignificant⟩ := hbranches kinds hmem
  exact ⟨hfilled, fun id hid => (mem_significantKinds id).1 (hsignificant id hid)⟩

section

variable {ε : Type} {scanner : Scanner} {s : Store} (hlexicon : scanner.lexicon = lexicon)
  (htrip : scanner.tripwire = none) (hlen : byteLength s.source < offsetLimit)
  (hoffset : s.offset ≤ byteLength s.source)

include hlexicon htrip hlen hoffset

theorem matchingCandidate_reordered {start : OptionalLookahead}
    (hstart : start ∈ optionalLookaheads) {kinds : List KindId}
    (hperm : start.candidates.kinds.Perm kinds) (horder : kinds.Pairwise InOrder) :
    (start.matchingCandidate scanner s : Run Event Store ε (Option KindId)).exit =
      (OptionalLookahead.matchingCandidate ⟨⟨kinds⟩⟩ scanner s :
        Run Event Store ε (Option KindId)).exit := by
  obtain ⟨hunmixed, hordered⟩ := optionalLookaheads_ordered start hstart
  refine OptionalLookahead.matchingCandidate_perm htrip hlen hoffset hperm hordered horder ?_
  rw [hlexicon]
  exact fun id hid id' hid' => eq_of_clash hunmixed hid hid'

theorem matchingBranch_reordered {choice : AlternativeLookahead}
    (hchoice : choice ∈ alternativeLookaheads) {branches : List Candidates}
    (hperm : choice.branches.Perm branches) (horder : branches.Pairwise BranchesInOrder) :
    ∃ hit hit',
      (choice.matchingBranch scanner s : Run Event Store ε (Option Nat)).exit = .ok hit ∧
      (AlternativeLookahead.matchingBranch ⟨branches⟩ scanner s :
        Run Event Store ε (Option Nat)).exit = .ok hit' ∧
      hit.bind (choice.branches[·]?) = hit'.bind (branches[·]?) := by
  obtain ⟨hunmixed, hordered, hdistinct⟩ := alternativeLookaheads_ordered choice hchoice
  refine AlternativeLookahead.matchingBranch_perm htrip hlen hoffset hperm hordered horder ?_
  rw [hlexicon]
  intro branch hbranch branch' hbranch' id hid id' hid' hclash hfirst hsecond
  have hmem := AlternativeLookahead.mem_expected.2 ⟨branch, hbranch, hid⟩
  have hmem' := AlternativeLookahead.mem_expected.2 ⟨branch', hbranch', hid'⟩
  obtain rfl := eq_of_clash hunmixed hmem hmem' hclash (hfirst id hid id' hid')
    (hsecond id' hid' id hid)
  exact hdistinct branch hbranch branch' hbranch' id hid hid'

end

/-- A keyword matches exactly where the name that stands there is its text, and a slash matches
where a regular expression does. No other kinds that count match at the front of one text. So a
decision of the grammar does not depend on the order of the candidates, nor on that of the branches
as long as keywords are tried before names. -/
theorem conflicts_intended {ε : Type} :
    (∀ id, id ∈ significantKinds ↔
      ∃ kind, lexicon.get? id = some kind ∧ kind.flags.skipped = false) ∧
    (∀ text : Text,
      (∀ keyword word, (keyword, word) ∈ keywords →
        (lexicon.sees text keyword = true ↔
          ∃ rest, text = word ++ rest ∧ lexicon.Takes identifier word rest)) ∧
      (lexicon.sees text regexLiteral = true → lexicon.sees text slash = true) ∧
      ∀ id ∈ significantKinds, ∀ id' ∈ significantKinds, id ≠ id' →
        lexicon.sees text id = true → lexicon.sees text id' = true →
          (id, id') ∈ intendedConflicts ∨ (id', id) ∈ intendedConflicts) ∧
    ∀ (config : ScanConfig) (s : Store), byteLength s.source < offsetLimit →
      s.offset ≤ byteLength s.source →
      let scanner : Scanner := { lexicon, config }
      let candidate (start : OptionalLookahead) : Run Event Store ε (Option KindId) :=
        start.matchingCandidate scanner s
      let answer (start : OptionalLookahead) : Run Event Store ε Bool := start.holds scanner s
      let branch (choice : AlternativeLookahead) : Run Event Store ε (Option Nat) :=
        choice.matchingBranch scanner s
      (∀ start ∈ optionalLookaheads, ∀ kinds, start.candidates.kinds.Perm kinds →
        (answer start).exit = (answer ⟨⟨kinds⟩⟩).exit ∧
        (kinds.Pairwise InOrder → (candidate start).exit = (candidate ⟨⟨kinds⟩⟩).exit)) ∧
      ∀ choice ∈ alternativeLookaheads, ∀ branches,
        (List.Forall₂ (fun b b' => b.kinds.Perm b'.kinds) choice.branches branches →
          (branch choice).exit = (branch ⟨branches⟩).exit) ∧
        (choice.branches.Perm branches → branches.Pairwise BranchesInOrder →
          ∃ hit hit', (branch choice).exit = .ok hit ∧ (branch ⟨branches⟩).exit = .ok hit' ∧
            hit.bind (choice.branches[·]?) = hit'.bind (branches[·]?)) := by
  refine ⟨mem_significantKinds, fun text => ⟨fun keyword word h => sees_keyword_iff h text,
    sees_slash, fun id hid id' hid' hne hsees hsees' =>
      intended_of_clash hid hid' hne ⟨text, hsees, hsees'⟩⟩, ?_⟩
  intro config s hlen hoffset scanner candidate answer branch
  have hlexicon : scanner.lexicon = lexicon := by simp only [scanner]
  have htrip : scanner.tripwire = none := rfl
  refine ⟨fun start hstart kinds hperm => ⟨?_, fun horder => ?_⟩, fun choice hchoice branches =>
    ⟨fun hcandidates => ?_, fun hperm horder => ?_⟩⟩
  · exact OptionalLookahead.holds_perm htrip hlen hoffset hperm
  · exact matchingCandidate_reordered hlexicon htrip hlen hoffset hstart hperm horder
  · exact AlternativeLookahead.matchingBranch_candidates htrip hlen hoffset hcandidates
  · exact matchingBranch_reordered hlexicon htrip hlen hoffset hchoice hperm horder

/-- A declaration is told from an expression also where its keyword is tried before the other one,
and where the candidates are tried in the opposite order. -/
theorem conflicts_intended_declaration :
    let s : Store := ⟨"var x;".toList, 0⟩
    let scanner : Scanner := { lexicon }
    let branches : List Candidates := [⟨[varKeyword]⟩, ⟨[returnKeyword]⟩, ⟨operandKinds⟩]
    let reversed : List KindId := statementStart.candidates.kinds.reverse
    let branch (choice : AlternativeLookahead) : Run Event Store Empty (Option Nat) :=
      choice.matchingBranch scanner s
    let answer (start : OptionalLookahead) : Run Event Store Empty Bool := start.holds scanner s
    (lexicon.sees s.source varKeyword = true ∧ lexicon.sees s.source identifier = true ∧
      (varKeyword, identifier) ∈ intendedConflicts) ∧
      (∃ rest, s.source = "var".toList ++ rest ∧ lexicon.Takes identifier "var".toList rest) ∧
      lexicon.sees "/=/".toList slash = true ∧
      (answer statementStart).exit = (answer ⟨⟨reversed⟩⟩).exit ∧
      (branch statementChoice).exit = .ok (some 1) ∧
      ∃ hit, (branch ⟨branches⟩).exit = .ok hit ∧
        hit.bind (branches[·]?) = some ⟨[varKeyword]⟩ := by
  intro s scanner branches reversed branch answer
  obtain ⟨-, htexts, hdecisions⟩ := conflicts_intended (ε := Empty)
  obtain ⟨hkeyword, -, hclash⟩ := htexts s.source
  obtain ⟨hvar, hname, hregex, hfirst⟩ : lexicon.sees s.source varKeyword = true ∧
      lexicon.sees s.source identifier = true ∧ lexicon.sees "/=/".toList regexLiteral = true ∧
      (branch statementChoice).exit = .ok (some 1) := by
    decide +kernel
  have hpair : (varKeyword, identifier) ∈ intendedConflicts := by
    refine (hclash varKeyword (by decide) identifier (by decide) (by decide) hvar hname).elim id ?_
    decide
  obtain ⟨hstarts, hchoices⟩ := hdecisions {} s (by decide) (by decide)
  have hanswer := (hstarts statementStart (by decide) reversed (List.reverse_perm _).symm).1
  obtain ⟨hit, hit', hhit, hhit', hsame⟩ :=
    (hchoices statementChoice (by decide) branches).2 (.swap _ _ _) (by decide)
  refine ⟨⟨hvar, hname, hpair⟩, (hkeyword varKeyword "var".toList (by decide)).1 hvar,
    (htexts "/=/".toList).2.1 hregex, hanswer, hfirst, hit', hhit', ?_⟩
  obtain rfl := Exit.ok.inj (hhit.symm.trans hfirst)
  exact hsame.symm

end PredictiveParsing.Ecma
