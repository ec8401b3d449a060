import PredictiveParsing.Proofs.Ecma.Spelling
import PredictiveParsing.Proofs.Ecma.Trivia

/-!
# Words laid out with separators

A layout of tokens has a separator before, between and behind them: some trivia that begins with a
blank. Where the words are whole, a scanner that passes over trivia reads the tokens back.

* `Whole.solid`, `Whole.takes`: what stands behind a whole word does not matter if it begins with
  a blank.
* `Layout.reads`: what is laid out is read.
-/

namespace PredictiveParsing.Ecma

open Text Scanner

variable {scanner : Scanner} {before gap rest text : Text} {t : Token} {tokens : List Token}

/-! ## Whole words -/

/-- A word of a kind that counts and that does not begin a block comment. -/
structure Whole (word : KindId × Text) : Prop where
  shape : ∃ shape, shapeOf word.1 = some shape ∧ shape.Word word.2
  opens : ¬ ['/', '*'] <+: word.2

theorem mem_shapes {id : KindId} {shape : Shape} (h : shapeOf id = some shape) :
    shape ∈ shapes := by
  obtain ⟨-, -, -, -, hmem⟩ := exists_kind_of_shape h
  exact hmem

theorem blank_disjoint {shape : Shape} (h : shape ∈ shapes) :
    blank.disjoint shape.first = true ∧ blank.disjoint shape.more = true := by
  have hall : (shapes.all fun shape =>
      blank.disjoint shape.first && blank.disjoint shape.more) = true := by decide
  have hboth := List.all_eq_true.1 hall shape h
  rwa [Bool.and_eq_true] at hboth

/-- No word begins with two slashes. -/
theorem second_ne_slash {shape : Shape} (hmem : shape ∈ shapes) {d : Char} {more : Text}
    (h : shape.Word ('/' :: d :: more)) : d ≠ '/' := by
  obtain ⟨c, rest, hc, hfirst⟩ := Shape.exists_first_of_word h
  rw [← (List.cons.inj hc).1] at hfirst
  cases shape with
  | keyword word =>
    simp only [shapes, List.mem_append, List.mem_cons, Shape.keyword.injEq] at hmem
    have hword := h.1
    rcases hmem with (rfl | rfl | hmem) | hmem
    · cases hword
    · cases hword
    · simp at hmem
    · simp at hmem
  | name => cases hfirst
  | number => cases hfirst
  | regex =>
    obtain ⟨body, flags, htext, hne, hitems, -⟩ := h
    cases hitems with
    | nil => exact absurd rfl hne
    | @cons first rest hitem _ =>
      rintro rfl
      have hbody := (List.cons.inj htext).2
      rw [List.append_assoc] at hbody
      exact hitem.append_ne hbody.symm
  | sign c => cases h

theorem whole_sign {id : KindId} {c : Char} (h : shapeOf id = some (.sign c)) :
    Whole (id, [c]) where
  shape := ⟨_, h, rfl⟩
  opens := by simp [List.cons_prefix_cons]

theorem whole_keyword {id : KindId} {word : Text} (h : shapeOf id = some (.keyword word))
    (hne : word ≠ []) (hopen : ¬ ['/', '*'] <+: word) : Whole (id, word) :=
  ⟨⟨_, h, rfl, hne⟩, hopen⟩

theorem whole_of_takes {id : KindId} {shape : Shape} {text : Text} (h : shapeOf id = some shape)
    (hslash : shape.first.mem '/' = false) (ht : lexicon.Takes id text []) : Whole (id, text) := by
  have hword := word_of_takes h ht
  refine ⟨⟨shape, h, hword⟩, fun hopen => ?_⟩
  obtain ⟨c, rest, rfl, hc⟩ := Shape.exists_first_of_word hword
  rw [← (List.cons_prefix_cons.1 hopen).1, hslash] at hc
  cases hc

/-- What begins with two characters does so in its first part, if the second part does not begin
with the second of them. -/
theorem prefix_of_append {c d : Char} {front tail : Text} (hne : front ≠ [])
    (hd : tail.head? ≠ some d)
    (h : [c, d] <+: front ++ tail) : [c, d] <+: front := by
  obtain ⟨e, front, rfl⟩ := List.exists_cons_of_ne_nil hne
  obtain ⟨hc, hnext⟩ := List.cons_prefix_cons.1 h
  refine List.cons_prefix_cons.2 ⟨hc, ?_⟩
  cases front with
  | nil =>
    obtain ⟨more, hmore⟩ := hnext
    have htail : tail = d :: more := hmore.symm
    exact absurd (by rw [htail]; rfl) hd
  | cons e front =>
    rw [(List.cons_prefix_cons.1 hnext).1]
    exact ⟨front, rfl⟩

/-- Nothing is passed over in front of a word that does not make a comment with what follows it. -/
theorem solid_of_word {id : KindId} {shape : Shape} {word : Text}
    (hshape : shapeOf id = some shape) (hword : shape.Word word) (hslash : rest.head? ≠ some '/')
    (hstar : rest.head? ≠ some '*') (hopen : ['/', '*'] <+: word → Unclosed (word.drop 2 ++ rest)) :
    Solid (word ++ rest) := by
  have hmem := mem_shapes hshape
  obtain ⟨d, more, rfl, hfirst⟩ := Shape.exists_first_of_word hword
  refine ⟨?_, fun hline => ?_, fun hblock => ?_⟩
  · cases hd : blank.mem d with
    | false => rfl
    | true =>
      rw [CharClass.mem_eq_false_of_disjoint (blank_disjoint hmem).1 hd] at hfirst
      cases hfirst
  · obtain ⟨after, hafter⟩ := prefix_of_append (List.cons_ne_nil d more) hslash hline
    rw [← hafter] at hword
    exact second_ne_slash hmem hword rfl
  · have hbegins := prefix_of_append (List.cons_ne_nil d more) hstar hblock
    obtain ⟨after, hafter⟩ := hbegins
    rw [← hafter] at hopen
    rw [← (List.cons.inj hafter).2]
    exact hopen ⟨after, rfl⟩

theorem Whole.solid {word : KindId × Text} (h : Whole word) {c : Char}
    (hc : blank.mem c = true) : Solid (word.2 ++ c :: rest) := by
  obtain ⟨⟨shape, hshape, hword⟩, hopen⟩ := h
  refine solid_of_word hshape hword ?_ ?_ fun hbegins => absurd hbegins hopen
  · rintro hhead
    rw [Option.some.inj hhead] at hc
    cases hc
  · rintro hhead
    rw [Option.some.inj hhead] at hc
    cases hc

theorem Whole.takes {word : KindId × Text} (h : Whole word) {c : Char}
    (hc : blank.mem c = true) : lexicon.Takes word.1 word.2 (c :: rest) := by
  obtain ⟨⟨shape, hshape, hword⟩, -⟩ := h
  have hmore := CharClass.mem_eq_false_of_disjoint (blank_disjoint (mem_shapes hshape)).2 hc
  exact takes_of_word hshape hword (CharClass.clear_cons.2 hmore)

/-! ## Gaps of trivia -/

/-- A scanner of the language that passes over trivia. -/
structure Skips (scanner : Scanner) : Prop where
  lexicon_eq : scanner.lexicon = lexicon
  skipping_eq : scanner.config.skipping = true

theorem Skips.of_config {config : ScanConfig} (messages : MessageBuilder)
    (h : config.skipping = true) : Skips (parser config messages).scanner where
  lexicon_eq := by rw [parser]
  skipping_eq := h

theorem gap_iff (hskips : Skips scanner) :
    scanner.Gap gap rest ↔ afterTrivia (gap ++ rest) = rest := by
  obtain ⟨front, hfront⟩ := exists_append_afterTrivia (gap ++ rest)
  have hlen := congrArg byteLength hfront
  rw [byteLength_append, byteLength_append] at hlen
  rw [Gap, gapLength, if_pos hskips.skipping_eq, hskips.lexicon_eq, skipLength_lexicon,
    byteLength_append]
  constructor
  · intro hgap
    exact (eq_of_append_eq hfront (by omega)).symm
  · intro hafter
    rw [hafter]
    omega

theorem gap_of_trivia (hskips : Skips scanner) (hgap : Trivia gap) (hrest : Solid rest) :
    scanner.Gap gap rest := by
  rw [gap_iff hskips, hgap.afterTrivia_append, solid_iff.1 hrest]

/-- What is passed over in front of a text is trivia, and nothing else is passed over there. -/
theorem trivia_of_gap (hskips : Skips scanner) (h : scanner.Gap gap rest) (hne : rest ≠ []) :
    Trivia gap ∧ Solid rest := by
  have hafter := (gap_iff hskips).1 h
  have htrivia : Trivia gap := (trivia_of_afterTrivia hafter).1 hne
  rw [htrivia.afterTrivia_append] at hafter
  exact ⟨htrivia, solid_iff.2 hafter⟩

/-! ## Layouts -/

/-- Some trivia that begins with a blank. -/
structure Separator (gap : Text) : Prop where
  trivia : Trivia gap
  blank : ∃ c more, gap = c :: more ∧ c ∈ [' ', '\t', '\r', '\n']

/-- Behind one text, tokens are laid out in another with separators before, between and behind
them. -/
inductive Layout : Text → List Token → Text → Prop where
  | nil {before gap : Text} : Separator gap → Layout before [] gap
  | cons {before gap rest : Text} {t : Token} {tokens : List Token} : Separator gap →
      t.span = ⟨byteLength (before ++ gap), byteLength (before ++ gap ++ t.text)⟩ →
      Layout (before ++ gap ++ t.text) tokens rest →
      Layout before (t :: tokens) (gap ++ (t.text ++ rest))

theorem Layout.exists_blank (h : Layout before tokens text) :
    ∃ c more, text = c :: more ∧ blank.mem c = true := by
  cases h with
  | nil hgap =>
    obtain ⟨c, more, htext, hc⟩ := hgap.blank
    exact ⟨c, more, htext, mem_blank_iff_mem.2 hc⟩
  | cons hgap _ _ =>
    obtain ⟨c, more, htext, hc⟩ := hgap.blank
    exact ⟨c, _, by rw [htext, List.cons_append], mem_blank_iff_mem.2 hc⟩

/-- A whole word is read behind trivia and in front of a blank. -/
theorem reads_of_whole (hskips : Skips scanner) (hgap : Trivia gap) (hword : Whole t.word)
    (hspan : t.span = ⟨byteLength (before ++ gap), byteLength (before ++ gap ++ t.text)⟩)
    (hrest : ∃ c more, rest = c :: more ∧ blank.mem c = true) {q : Place}
    (hmore : scanner.Reads ⟨before ++ gap ++ t.text, rest⟩ tokens q) :
    scanner.Reads ⟨before, gap ++ (t.text ++ rest)⟩ (t :: tokens) q := by
  obtain ⟨c, more, rfl, hc⟩ := hrest
  refine .cons rfl (gap_of_trivia hskips hgap (hword.solid hc)) ?_ (by rw [hspan])
    (by rw [hspan]) hmore
  rw [hskips.lexicon_eq]
  exact hword.takes hc

/-- What is laid out is read, and nothing is left but the last separator. -/
theorem Layout.reads (hskips : Skips scanner) (h : Layout before tokens text)
    (hwords : ∀ t ∈ tokens, Whole t.word) :
    ∃ q, scanner.Reads ⟨before, text⟩ tokens q ∧ (scanner.behind q).rest = [] := by
  induction h with
  | @nil before gap hgap =>
    have hend : scanner.Gap gap [] := gap_of_trivia hskips hgap.trivia trivial
    have hbehind : scanner.behind ⟨before, gap ++ []⟩ = ⟨before ++ gap, []⟩ := behind_of_gap hend
    rw [List.append_nil] at hbehind
    exact ⟨⟨before, gap⟩, .nil, by rw [hbehind]⟩
  | @cons before gap rest t tokens hgap hspan hlayout ih =>
    obtain ⟨q, hmore, hend⟩ := ih fun t ht => hwords t (List.mem_cons_of_mem _ ht)
    exact ⟨q, reads_of_whole hskips hgap.trivia (hwords t List.mem_cons_self) hspan
      hlayout.exists_blank hmore, hend⟩

/-- Words, each on a line of its own. -/
def lines (words : List (KindId × Text)) : Text :=
  words.flatMap (fun word => '\n' :: word.2) ++ ['\n']

theorem lines_cons (word : KindId × Text) (words : List (KindId × Text)) :
    lines (word :: words) = ['\n'] ++ (word.2 ++ lines words) := by
  simp [lines]

theorem separator_newline : Separator ['\n'] :=
  ⟨.blank (by decide) .nil, '\n', [], rfl, by decide⟩

/-- Lines are a layout of tokens with their words. -/
theorem exists_layout_lines (before : Text) (words : List (KindId × Text)) :
    ∃ tokens : List Token, tokens.map Token.word = words ∧ Layout before tokens (lines words) := by
  induction words generalizing before with
  | nil => exact ⟨[], rfl, .nil separator_newline⟩
  | cons word words ih =>
    obtain ⟨tokens, hwords, hlayout⟩ := ih (before ++ ['\n'] ++ word.2)
    let t : Token :=
      ⟨word.1, word.2, ⟨byteLength (before ++ ['\n']), byteLength (before ++ ['\n'] ++ word.2)⟩⟩
    refine ⟨t :: tokens, by rw [List.map_cons, hwords]; rfl, ?_⟩
    rw [lines_cons]
    exact .cons (t := t) separator_newline rfl hlayout

/-- Behind what becomes trivia by a line feed, lines of whole words are read. -/
theorem exists_reads_lines (hskips : Skips scanner) (before : Text)
    (hgap : Trivia (gap ++ ['\n'])) {word : KindId × Text} {words : List (KindId × Text)}
    (hwords : ∀ w ∈ word :: words, Whole w) :
    ∃ (t : Token) (next : List Token) (q : Place),
      (t :: next).map Token.word = word :: words ∧ byteLength (before ++ gap) ≤ t.span.start ∧
      scanner.Reads ⟨before, gap ++ lines (word :: words)⟩ (t :: next) q ∧
      (scanner.behind q).rest = [] := by
  let front := before ++ (gap ++ ['\n'])
  let t : Token := ⟨word.1, word.2, ⟨byteLength front, byteLength (front ++ word.2)⟩⟩
  obtain ⟨next, hnext, hlayout⟩ := exists_layout_lines (front ++ word.2) words
  obtain ⟨hfirst, hothers⟩ := List.forall_mem_cons.1 hwords
  have hwhole : ∀ u ∈ next, Whole u.word := by
    intro u hu
    have hmem : u.word ∈ words := hnext ▸ List.mem_map_of_mem hu
    exact hothers _ hmem
  obtain ⟨q, hmore, hend⟩ := hlayout.reads hskips hwhole
  have hreads := reads_of_whole (t := t) hskips hgap hfirst rfl hlayout.exists_blank hmore
  rw [List.append_assoc, ← lines_cons] at hreads
  refine ⟨t, next, q, by rw [List.map_cons, hnext]; rfl, ?_, hreads, hend⟩
  show byteLength (before ++ gap) ≤ byteLength (before ++ (gap ++ ['\n']))
  rw [← List.append_assoc, byteLength_append (before ++ gap)]
  omega

end PredictiveParsing.Ecma
