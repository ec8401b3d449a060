import Mathlib.Algebra.Group.Nat.Defs
import PredictiveParsing.Proofs.Ecma.Completeness
import PredictiveParsing.Proofs.Ecma.Replacing

/-!
# Where an error stands the source can be completed

A source that is rejected is cut where its error stands, and words that complete its tokens are
laid out behind the cut. The tokens in front of the cut are read as before, since the words behind
it do not end a comment.

* `Rejected.cut`: what is behind the cut can be replaced.
* `parse_cut`: every kind that an error expects could have come where it stands.
-/

namespace PredictiveParsing.Ecma

open Text PredictiveParsing.Parser Scanner

variable {scanner : Scanner} {before gap front tail tail' text : Text} {t : Token}
  {tokens : List Token}

/-! ## Kinds of rejected sources -/

/-- The tokens of a rejected source are of kinds that programs are spelled with. -/
theorem Rejected.exists_shape {parser : Parser} {source : Text} {q : Place}
    {expected : List KindId} {active : Option String}
    (h : Rejected parser source tokens q expected active) :
    ∀ t ∈ tokens, ∃ shape, shapeOf t.kind = some shape := by
  rcases h.completes with ⟨-, body, hspells, -⟩ | hcompletes
  · exact hspells.exists_shape
  · have hne : ∀ pair ∈ missing, pair.2 ≠ [] := by decide
    obtain ⟨id, hid⟩ := List.exists_mem_of_ne_nil expected (hne _ h.mem_missing)
    obtain ⟨word, -, -, more, -, -, hspells⟩ := hcompletes id hid
    -- Where the completing words stand does not matter, as long as they stand behind the tokens.
    let stop := byteLength q.before
    let next : List Token := (word :: more).map fun word => ⟨word.1, word.2, ⟨stop, stop⟩⟩
    have hnext : next.map Token.word = word :: more := by
      rw [List.map_map]
      exact List.map_id _
    have hspan : ∀ t ∈ next, t.span = ⟨stop, stop⟩ := by
      intro t ht
      obtain ⟨word, -, rfl⟩ := List.mem_map.1 ht
      rfl
    have hsorted : Sorted (tokens ++ next) := by
      refine List.pairwise_append.2 ⟨h.reads.sorted, ?_, ?_⟩
      · refine List.Pairwise.imp_of_mem (fun ht hu _ => ?_)
          (List.pairwise_of_forall fun _ _ => trivial)
        rw [hspan _ ht, hspan _ hu]
        exact ⟨Nat.le_refl _, Nat.le_refl _⟩
      · intro t ht u hu
        have hmem := h.reads.span_mem ht
        rw [hspan u hu]
        exact ⟨Nat.le_of_lt (Nat.lt_of_lt_of_le hmem.2.1 hmem.2.2), hmem.2.2⟩
    obtain ⟨body, hall, -⟩ := hspells next hnext hsorted
    exact fun t ht => hall.exists_shape t (List.mem_append_left next ht)

/-! ## Completing words -/

theorem byteLength_lines {words : List (KindId × Text)}
    (h : ∀ word ∈ words, byteLength word.2 = 1) :
    byteLength (lines words) = 2 * words.length + 1 := by
  induction words with
  | nil => rfl
  | cons word words ih =>
    have hword := h word List.mem_cons_self
    have hlines := ih fun word hmem => h word (List.mem_cons_of_mem _ hmem)
    have hnewline : byteLength ['\n'] = 1 := by decide
    rw [lines_cons, byteLength_append, byteLength_append, List.length_cons]
    omega

theorem unclosed_of_not_mem (h : '*' ∉ text) : Unclosed text := by
  intro hinside
  exact h (hinside.subset List.mem_cons_self)

/-- The words that complete a source do not end a comment. -/
theorem unclosed_lines {words : List (KindId × Text)} (h : ∀ word ∈ words, '*' ∉ word.2) :
    Unclosed (lines words) := by
  refine unclosed_of_not_mem fun hmem => ?_
  rcases List.mem_append.1 hmem with hmem | hmem
  · obtain ⟨word, hword, hstar⟩ := List.mem_flatMap.1 hmem
    rcases List.mem_cons.1 hstar with hnewline | hstar
    · revert hnewline
      decide
    · exact h word hword hstar
  · revert hmem
    decide

section

variable {word : KindId × Text} {words : List (KindId × Text)}

theorem breaks_lines : Breaks (lines (word :: words)) := by
  rw [lines_cons]
  exact Or.inr ⟨_, rfl⟩

theorem unclosed_completing (hword : word ∈ samples) (hwords : words ⊆ fillers) :
    Unclosed (lines (word :: words)) := by
  have hsamples : ∀ w ∈ samples, '*' ∉ w.2 := by decide
  have hfillers : ∀ w ∈ fillers, '*' ∉ w.2 := by decide
  exact unclosed_lines
    (List.forall_mem_cons.2 ⟨hsamples word hword, fun w hw => hfillers w (hwords hw)⟩)

theorem byteLength_lines_le (hword : word ∈ samples) (hwords : words ⊆ fillers) :
    byteLength (lines (word :: words)) ≤ 2 * words.length + 5 := by
  have hsamples : ∀ w ∈ samples, byteLength w.2 ≤ 3 := by decide
  have hfillers : ∀ w ∈ fillers, byteLength w.2 = 1 := by decide
  have hfirst := hsamples word hword
  have hrest := byteLength_lines fun w hw => hfillers w (hwords hw)
  have hnewline : byteLength ['\n'] = 1 := by decide
  rw [lines_cons, byteLength_append, byteLength_append]
  omega

end

theorem whole_of_mem_fillers {word : KindId × Text} (h : word ∈ fillers) : Whole word := by
  simp only [fillers, List.mem_cons, List.not_mem_nil, or_false] at h
  rcases h with rfl | rfl | rfl
  · have hword : Shape.number.Word ['1'] := ⟨'1', [], by decide, by simp, Or.inl rfl⟩
    exact ⟨⟨.number, rfl, hword⟩, by decide⟩
  · exact whole_sign rfl
  · exact whole_sign rfl

theorem whole_of_mem_samples {word : KindId × Text} (h : word ∈ samples) : Whole word := by
  simp only [samples, List.mem_cons, List.not_mem_nil, or_false] at h
  rcases h with rfl | rfl | rfl | rfl | rfl | rfl
  · exact whole_of_mem_fillers (by decide)
  · refine ⟨⟨.regex, rfl, ['a'], [], rfl, by simp, ?_, by simp⟩, by decide⟩
    have hitem : RegexItem ['a'] := .plain (by decide)
    exact .cons hitem .nil
  · have hword : Shape.name.Word ['a'] := ⟨'a', [], rfl, by decide, by simp⟩
    exact ⟨⟨.name, rfl, hword⟩, by decide⟩
  · exact whole_sign rfl
  · exact whole_sign rfl
  · exact whole_sign rfl

/-! ## Completing sources -/

section

variable {source : Text} {q : Place} {expected : List KindId} {active : Option String}

theorem Rejected.source_eq {parser : Parser}
    (h : Rejected parser source tokens q expected active) (hrest : q.rest = gap ++ tail) :
    source = q.before ++ gap ++ tail := by
  have hwhole := h.reads.source_eq
  rw [Place.source, Place.source, hrest, List.nil_append, ← List.append_assoc] at hwhole
  exact hwhole.symm

/-- The tokens of a rejected source are read whatever replaces what is in the way. -/
theorem Rejected.cut (h : Rejected (parser {} .standard) source tokens q expected active)
    (hrest : q.rest = gap ++ tail) (hgap : (parser {} .standard).scanner.Gap gap tail)
    (hbreaks : Breaks tail') (hunclosed : Unclosed tail') :
    (parser {} .standard).scanner.Reads ⟨[], q.before ++ gap ++ tail'⟩ tokens
      ⟨q.before, gap ++ tail'⟩ := by
  have hskips : Skips (parser {} .standard).scanner := .of_config .standard rfl
  obtain ⟨front, hsource, -, -, hreads⟩ :=
    Reads.replace hskips h.reads h.exists_shape hrest hgap hbreaks (Or.inl hunclosed)
  have hwhole : q.before ++ gap ++ tail = front ++ tail := (h.source_eq hrest).symm.trans hsource
  rw [List.append_cancel_right hwhole]
  exact hreads

/-- Where nothing but the end of the input is expected, the tokens are a program. -/
theorem Rejected.parse_end (h : Rejected (parser {} .standard) source tokens q expected active)
    (hlen : byteLength source < offsetLimit) (hrest : q.rest = gap ++ tail)
    (hgap : (parser {} .standard).scanner.Gap gap tail) (hspells : SpellsProgram tokens) :
    ∃ program, (parse (q.before ++ gap)).exit = .ok ⟨some program, []⟩ := by
  have hskips : Skips (parser {} .standard).scanner := .of_config .standard rfl
  have hend : (parser {} .standard).scanner.Gap gap [] := by
    cases tail with
    | nil => exact hgap
    | cons c tail =>
      have htrivia := (trivia_of_afterTrivia ((gap_iff hskips).1 hgap)).1 (List.cons_ne_nil c tail)
      exact gap_of_trivia hskips htrivia trivial
  have hbehind : (parser {} .standard).scanner.behind ⟨q.before, gap ++ []⟩ =
      ⟨q.before ++ gap, []⟩ := behind_of_gap hend
  have hreads := h.cut hrest hgap (Or.inl rfl) unclosed_nil
  rw [List.append_nil] at hreads
  obtain ⟨body, hall, hstands⟩ := hspells
  have haccepted : Accepted (parser {} .standard) (q.before ++ gap) tokens
      ⟨q.before, gap ++ []⟩ body := ⟨hreads, by rw [hbehind], hall, hstands⟩
  have hshort : byteLength (q.before ++ gap) < offsetLimit := by
    rw [h.source_eq hrest, byteLength_append] at hlen
    omega
  obtain ⟨records, hrun, -⟩ :=
    haccepted.parse (Standard.of_config {} .standard) hshort (ParserState.start [])
  exact ⟨_, congrArg Run.exit hrun⟩

/-- Where a kind is expected, a word of it and lines behind it complete the source. -/
theorem Rejected.parse_lines (h : Rejected (parser {} .standard) source tokens q expected active)
    (hlen : byteLength source < 2 ^ 30) (hrest : q.rest = gap ++ tail)
    (hgap : (parser {} .standard).scanner.Gap gap tail)
    (hcompletes : Completes 3 SpellsProgram tokens expected) {id : KindId} (hid : id ∈ expected) :
    ∃ (more : Text) (program : Program) (t : Token) (next : List Token),
      (parse (q.before ++ gap ++ more)).exit = .ok ⟨some program, []⟩ ∧
      commits (parse (q.before ++ gap ++ more)).records =
        (parser {} .standard).named (tokens ++ t :: next) ∧
      t.kind = id ∧ byteLength (q.before ++ gap) ≤ t.span.start := by
  have hskips : Skips (parser {} .standard).scanner := .of_config .standard rfl
  obtain ⟨word, hword, hkind, words, hwords, hfew, hspells⟩ := hcompletes id hid
  have hwhole : ∀ w ∈ word :: words, Whole w :=
    List.forall_mem_cons.2
      ⟨whole_of_mem_samples hword, fun w hw => whole_of_mem_fillers (hwords hw)⟩
  have htrivia : Trivia (gap ++ ['\n']) := (trivia_of_afterTrivia ((gap_iff hskips).1 hgap)).2
  obtain ⟨t, next, r, hnext, hstart, hbehind, hend⟩ :=
    exists_reads_lines hskips q.before htrivia hwhole
  have hcut := h.cut hrest hgap breaks_lines (unclosed_completing hword hwords)
  have hall := hcut.append hbehind
  obtain ⟨body, hbody, hstands⟩ := hspells (t :: next) hnext hall.sorted
  have hshort : byteLength (q.before ++ gap ++ lines (word :: words)) < offsetLimit := by
    have hlines := byteLength_lines_le hword hwords
    have htokens : byteLength q.rest + tokens.length ≤ byteLength source := h.reads.length_le
    have hfront := congrArg byteLength (h.source_eq hrest)
    rw [byteLength_append] at hfront ⊢
    rw [offsetLimit]
    omega
  obtain ⟨records, hrun, hcommits⟩ := Accepted.parse (Standard.of_config {} .standard)
    ⟨hall, hend, hbody, hstands⟩ hshort (ParserState.start [])
  have hkind' : t.kind = word.1 := kind_eq_of_word (List.cons.inj hnext).1
  refine ⟨_, _, t, next, congrArg Run.exit hrun, ?_, hkind'.trans hkind, hstart⟩
  rw [parse, hrun, hcommits]

end

/-- The first token that is committed at an offset or behind it. -/
theorem find?_named {parser : Parser} {n : Nat} {next : List Token}
    (hbefore : ∀ u ∈ tokens, u.span.start < n) (ht : n ≤ t.span.start) :
    (parser.named (tokens ++ t :: next)).find? (fun commit => n ≤ commit.2.start) =
      some (parser.scanner.lexicon.name t.kind, t.span) := by
  have hnone : (parser.named tokens).find? (fun commit => n ≤ commit.2.start) = none := by
    rw [List.find?_eq_none]
    intro commit hcommit
    obtain ⟨u, hu, rfl⟩ := List.mem_map.1 hcommit
    have hstart := hbefore u hu
    simp only [decide_eq_true_eq]
    omega
  rw [named_append, List.find?_append, hnone, Option.none_or, named, List.map_cons]
  exact List.find?_cons_of_pos (decide_eq_true ht)

/-- An error stands where the source could still be completed: cut there, and with some text of
every kind that is expected behind the cut, it is a program. Nothing is needed behind the cut where
the end of the input is expected. -/
theorem parse_cut {source : Text} (hlen : byteLength source < 2 ^ 30)
    {output : ParseOutput Program} (h : (parse source).exit = .ok output) {e : ParseError}
    (he : e ∈ output.errors) :
    ∃ front tail : Text, source = front ++ tail ∧ byteLength front = e.found.span.start ∧
      ∀ id ∈ e.expected, ∃ (more : Text) (program : Program),
        (parse (front ++ more)).exit = .ok ⟨some program, []⟩ ∧
        (id = KindId.eof → more = []) ∧
        (id ≠ KindId.eof → ∃ span,
          (commits (parse (front ++ more)).records).find?
              (fun commit => byteLength front ≤ commit.2.start) =
            some (lexicon.name id, span)) := by
  have hlimit : byteLength source < offsetLimit := Nat.lt_trans hlen (by decide)
  rcases parse_outcome (Standard.of_config {} .standard) hlimit (ParserState.start []) with
    ⟨tokens, q, body, records, -, hrun, -⟩ |
      ⟨tokens, q, expected, active, records, hrejected, hrun, -⟩
  · rw [parse, hrun] at h
    rw [← Exit.ok.inj h] at he
    exact absurd he List.not_mem_nil
  · rw [parse, hrun] at h
    rw [← Exit.ok.inj h] at he
    rw [List.mem_singleton.1 he]
    obtain ⟨gap, tail, hrest, hgap, hbehind⟩ := (parser {} .standard).scanner.exists_behind q
    have hstart := (shows_found {} .standard ((parser {} .standard).scanner.behind q)).2
    refine ⟨q.before ++ gap, tail, hrejected.source_eq hrest, ?_, ?_⟩
    · rw [errorAt, hstart, hbehind]
    · intro id hid
      rcases hrejected.completes with ⟨hend, hspells⟩ | hcompletes
      · obtain ⟨program, hprogram⟩ := hrejected.parse_end hlimit hrest hgap hspells
        have hid' : id ∈ expected := hid
        rw [hend, List.mem_singleton] at hid'
        refine ⟨[], program, ?_, fun _ => rfl, fun hne => absurd hid' hne⟩
        rw [List.append_nil]
        exact hprogram
      · have hne : id ≠ KindId.eof := by
          have hsamples : ∀ w ∈ samples, w.1 ≠ KindId.eof := by decide
          obtain ⟨word, hword, hkind, -⟩ := hcompletes id hid
          rw [← hkind]
          exact hsamples word hword
        obtain ⟨more, program, t, next, hprogram, hcommits, hkind, hbehind'⟩ :=
          hrejected.parse_lines hlen hrest hgap hcompletes hid
        refine ⟨more, program, hprogram, fun hid' => absurd hid' hne, fun _ => ⟨t.span, ?_⟩⟩
        have hbefore : ∀ u ∈ tokens, u.span.start < byteLength (q.before ++ gap) := by
          intro u hu
          have hmem := hrejected.reads.span_mem hu
          rw [byteLength_append]
          omega
        rw [hcommits, find?_named hbefore hbehind', hkind,
          (Standard.of_config {} .standard).lexicon_eq]

/-- Behind a sign of division, in front of a comment that is not ended, any operand could stand. -/
theorem parse_cut_comment :
    ∃ front tail : Text, "a / /* b".toList = front ++ tail ∧ byteLength front = 4 ∧
      ∀ id ∈ operandKinds, ∃ (more : Text) (program : Program),
        (parse (front ++ more)).exit = .ok ⟨some program, []⟩ ∧
        (id = KindId.eof → more = []) ∧
        (id ≠ KindId.eof → ∃ span,
          (commits (parse (front ++ more)).records).find?
              (fun commit => byteLength front ≤ commit.2.start) =
            some (lexicon.name id, span)) := by
  let e : ParseError :=
    { expected := operandKinds
      found := ⟨KindId.error, ['/'], ⟨4, 5⟩⟩
      rule := some "Primary"
      message := "expected one of NumericLiteral, RegularExpressionLiteral, Identifier, '(', " ++
        "found \x60/\x60 while parsing Primary" }
  have hexit : (parse "a / /* b".toList).exit = .ok ⟨none, [e]⟩ := by decide +kernel
  have hlen : byteLength "a / /* b".toList < 2 ^ 30 := by decide
  exact parse_cut hlen hexit (List.mem_singleton_self e)

end PredictiveParsing.Ecma
