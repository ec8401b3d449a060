import PredictiveParsing.Proofs.Ecma.Words

/-!
# What is passed over

Blanks, line comments and block comments are passed over. A block comment ends with the first
asterisk and slash, a line comment in front of the next line feed.

* `afterTrivia_blank`, `afterTrivia_line`, `afterTrivia_block`: what is left behind one piece.
* `skipLength_lexicon`: the run that is passed over ends where nothing of the kind follows.
* `Trivia.afterTrivia_append`, `trivia_of_afterTrivia`: what is passed over is trivia, and trivia
  is passed over whatever follows.
-/

namespace PredictiveParsing.Ecma

open Text Code

/-! ## The code of trivia -/

def blank : CharClass := ⟨[(9, 10), (13, 13), (32, 32)]⟩

theorem mem_blank {c : Char} :
    blank.mem c = true ↔ c = ' ' ∨ c = '\t' ∨ c = '\r' ∨ c = '\n' := by
  simp only [CharClass.mem, blank, Text.inRanges, ← Char.toNat_inj]
  simp
  omega

theorem mem_notNewline {c : Char} : CharClass.notNewline.mem c = true ↔ c ≠ '\n' := by
  have hranges : CharClass.notNewline.ranges = [(0, 9), (11, 0x10ffff)] := by decide
  have hvalid := CharClass.mem_any c
  simp only [CharClass.any, CharClass.mem, Text.inRanges, hranges, ne_eq, ← Char.toNat_inj]
    at hvalid ⊢
  simp at hvalid ⊢
  omega

theorem notNewline_mem_eq_false {c : Char} (h : CharClass.notNewline.mem c = false) : c = '\n' := by
  by_cases hc : c = '\n'
  · exact hc
  · rw [mem_notNewline.2 hc] at h
    cases h

def lineCode : Code :=
  .seq ((Code.ofText ['/', '/']).run 5).1 (.loop 7 (.chars 8 CharClass.notNewline) true)

def closeCode : Code :=
  .seq (.loop 11 (.chars 12 CharClass.any) false) ((Code.ofText ['*', '/']).run 13).1

def blockCode : Code := .seq ((Code.ofText ['/', '*']).run 9).1 closeCode

def triviaCode : Code :=
  .fork 1 (Code.run 3 2 3 blank blank) (.fork 4 lineCode blockCode)

theorem skip_lexicon :
    lexicon.skip = some (anchored (.seq triviaCode (.loop 0 triviaCode true))) := by
  decide +kernel

/-! ## Ends of comments -/

/-- A text does not hold the end of a block comment. -/
def Unclosed (text : Text) : Prop := ¬ ['*', '/'] <:+: text

/-- What is left behind the first end of a block comment. -/
def closeRest : Text → Option Text
  | [] => none
  | c :: rest => if ['*', '/'] <+: c :: rest then some rest.tail else closeRest rest

theorem unclosed_nil : Unclosed [] := by
  simp [Unclosed]

theorem unclosed_cons {c : Char} {text : Text} :
    Unclosed (c :: text) ↔ ¬ ['*', '/'] <+: c :: text ∧ Unclosed text := by
  rw [Unclosed, List.infix_cons_iff, not_or]
  rfl

theorem closeRest_eq_none_iff {text : Text} : closeRest text = none ↔ Unclosed text := by
  induction text with
  | nil => simp [closeRest, unclosed_nil]
  | cons c text ih =>
    rw [closeRest, unclosed_cons, ← ih]
    split
    · rename_i hend
      simp [hend]
    · rename_i hend
      simp [hend]

theorem head?_rests_closeCode (text : Text) : (closeCode.rests text).head? = closeRest text := by
  have hloop : ∀ text : Text, (closeCode.rests text).head? =
      (if ['*', '/'] <+: text then some (text.drop 2) else none).or
        (((Code.chars 12 CharClass.any).rests text).head?.bind fun rest =>
          (closeCode.rests rest).head?) := by
    intro text
    rw [closeCode, rests_seq _ rfl, rests_loop rfl rfl, if_neg Bool.false_ne_true,
      List.flatMap_cons, List.head?_append, rests_ofText]
    cases text with
    | nil => rfl
    | cons c text =>
      rw [rests_chars_cons, if_pos (CharClass.mem_any c), List.flatMap_singleton, List.head?_cons,
        Option.bind_some, rests_seq _ rfl]
      split <;> rfl
  induction text with
  | nil => rw [hloop]; rfl
  | cons c rest ih =>
    rw [hloop, rests_chars_cons, if_pos (CharClass.mem_any c), List.head?_cons, Option.bind_some,
      ih, closeRest]
    split
    · rw [Option.some_or, List.drop_succ_cons, List.drop_one]
    · rfl

theorem closeRest_append {body : Text} (h : Unclosed body) (rest : Text) :
    closeRest (body ++ '*' :: '/' :: rest) = some rest := by
  induction body with
  | nil => rfl
  | cons c body ih =>
    rw [unclosed_cons] at h
    rw [List.cons_append, closeRest, if_neg, ih h.2]
    intro hend
    cases body with
    | nil => simp [List.cons_prefix_cons] at hend
    | cons d body => exact h.1 (by simpa [List.cons_prefix_cons] using hend)

theorem exists_of_closeRest {text rest : Text} (h : closeRest text = some rest) :
    ∃ body, text = body ++ '*' :: '/' :: rest ∧ Unclosed body := by
  induction text with
  | nil => cases h
  | cons c text ih =>
    rw [closeRest] at h
    split at h
    · rename_i hend
      obtain ⟨more, hmore⟩ := hend
      rw [List.cons_append, List.cons_append, List.nil_append, List.cons.injEq] at hmore
      rw [← hmore.2, List.tail_cons, Option.some.injEq] at h
      exact ⟨[], by rw [← hmore.1, ← hmore.2, h]; rfl, unclosed_nil⟩
    · rename_i hend
      obtain ⟨body, rfl, hbody⟩ := ih h
      refine ⟨c :: body, rfl, unclosed_cons.2 ⟨fun hprefix => hend ?_, hbody⟩⟩
      exact hprefix.trans (List.prefix_append (c :: body) _)

theorem Unclosed.of_append {a rest : Text} (h : Unclosed (a ++ rest)) : Unclosed a :=
  fun hinside => h (hinside.trans (List.prefix_append a rest).isInfix)

/-- A line feed comes between an asterisk and a slash. -/
theorem Unclosed.append_newline {a rest : Text} (h : Unclosed a) (hrest : Unclosed rest) :
    Unclosed (a ++ '\n' :: rest) := by
  induction a with
  | nil => exact unclosed_cons.2 ⟨by simp [List.cons_prefix_cons], hrest⟩
  | cons c a ih =>
    rw [unclosed_cons] at h
    refine unclosed_cons.2 ⟨fun hend => ?_, ih h.2⟩
    cases a with
    | nil => simp [List.cons_prefix_cons] at hend
    | cons d a => exact h.1 (by simpa [List.cons_prefix_cons] using hend)

/-! ## One piece after the other -/

/-- What is left behind all that is passed over. -/
def afterTrivia (text : Text) : Text :=
  ((Code.loop 0 triviaCode true).rests text).head?.getD text

theorem head?_rests_trivia (text : Text) :
    ((Code.loop 0 triviaCode true).rests text).head? = some (afterTrivia text) := by
  have hne : (Code.loop 0 triviaCode true).rests text ≠ [] := rests_loop_ne_nil rfl rfl text
  obtain ⟨first, others, hfirst⟩ := List.exists_cons_of_ne_nil hne
  rw [afterTrivia, hfirst]
  rfl

theorem afterTrivia_of_none {text : Text} (h : (triviaCode.rests text).head? = none) :
    afterTrivia text = text := by
  rw [afterTrivia, head?_rests_loop rfl rfl, h]
  rfl

theorem afterTrivia_of_some {text rest : Text} (h : (triviaCode.rests text).head? = some rest) :
    afterTrivia text = afterTrivia rest := by
  rw [afterTrivia, head?_rests_loop rfl rfl, h]
  simp only [head?_rests_trivia]
  rfl

theorem head?_rests_lineCode (text : Text) :
    (lineCode.rests text).head? =
      if ['/', '/'] <+: text then some ((text.drop 2).dropWhile CharClass.notNewline.mem)
      else none := by
  rw [lineCode, head?_rests_seq_of_ne_nil _ rfl fun _ _ => rests_loop_ne_nil rfl rfl _,
    rests_ofText]
  split
  · rw [List.head?_cons, Option.bind_some, head?_rests_loop_chars]
    rfl
  · rfl

theorem head?_rests_blockCode (text : Text) :
    (blockCode.rests text).head? =
      if ['/', '*'] <+: text then closeRest (text.drop 2) else none := by
  rw [blockCode, rests_seq _ rfl, rests_ofText]
  split
  · rw [List.flatMap_singleton, head?_rests_closeCode]
    rfl
  · rfl

theorem head?_rests_triviaCode (c : Char) (rest : Text) :
    (triviaCode.rests (c :: rest)).head? =
      if blank.mem c then some (rest.dropWhile blank.mem)
      else if ['/', '/'] <+: c :: rest then
        some (rest.tail.dropWhile CharClass.notNewline.mem)
      else if ['/', '*'] <+: c :: rest then closeRest rest.tail
      else none := by
  rw [triviaCode, rests_fork, rests_fork, List.head?_append, List.head?_append, head?_rests_run,
    head?_rests_lineCode, head?_rests_blockCode, List.drop_succ_cons, List.drop_one]
  split
  · rfl
  · split
    · rfl
    · rfl

theorem afterTrivia_blank {c : Char} (hc : blank.mem c = true) (rest : Text) :
    afterTrivia (c :: rest) = afterTrivia rest := by
  have hrun : ∀ {d : Char} (rest : Text), blank.mem d = true →
      afterTrivia (d :: rest) = afterTrivia (rest.dropWhile blank.mem) := by
    intro d rest hd
    exact afterTrivia_of_some (by rw [head?_rests_triviaCode, if_pos hd])
  rw [hrun rest hc]
  cases rest with
  | nil => rfl
  | cons d rest =>
    by_cases hd : blank.mem d = true
    · rw [List.dropWhile_cons_of_pos hd, hrun rest hd]
    · rw [List.dropWhile_cons_of_neg hd]

theorem afterTrivia_line (rest : Text) :
    afterTrivia ('/' :: '/' :: rest) = afterTrivia (rest.dropWhile CharClass.notNewline.mem) := by
  apply afterTrivia_of_some
  rw [head?_rests_triviaCode, if_neg (by decide), if_pos ⟨rest, rfl⟩, List.tail_cons]

theorem afterTrivia_block {body : Text} (h : Unclosed body) (rest : Text) :
    afterTrivia ('/' :: '*' :: (body ++ '*' :: '/' :: rest)) = afterTrivia rest := by
  apply afterTrivia_of_some
  rw [head?_rests_triviaCode, if_neg (by decide), if_neg (by simp [List.cons_prefix_cons]),
    if_pos ⟨_, rfl⟩, List.tail_cons, closeRest_append h]

/-! ## Where nothing is passed over -/

/-- Nothing that is passed over comes first. -/
def Solid : Text → Prop
  | [] => True
  | c :: rest =>
    blank.mem c = false ∧ ¬ ['/', '/'] <+: c :: rest ∧
      (['/', '*'] <+: c :: rest → Unclosed rest.tail)

theorem exists_append_afterTrivia (text : Text) : ∃ gap, text = gap ++ afterTrivia text :=
  exists_append_of_mem_rests (List.mem_of_mem_head? (head?_rests_trivia text))

theorem length_afterTrivia_le (text : Text) : (afterTrivia text).length ≤ text.length := by
  obtain ⟨gap, hgap⟩ := exists_append_afterTrivia text
  have h := congrArg List.length hgap
  rw [List.length_append] at h
  omega

theorem afterTrivia_eq_self_iff {text : Text} :
    afterTrivia text = text ↔ (triviaCode.rests text).head? = none := by
  refine ⟨fun h => ?_, afterTrivia_of_none⟩
  cases hhead : (triviaCode.rests text).head? with
  | none => rfl
  | some rest =>
    have hlt := length_lt_of_mem_rests (r := triviaCode) rfl (List.mem_of_mem_head? hhead)
    have hle := length_afterTrivia_le rest
    rw [← afterTrivia_of_some hhead, h] at hle
    omega

theorem solid_iff {text : Text} : Solid text ↔ afterTrivia text = text := by
  rw [afterTrivia_eq_self_iff]
  cases text with
  | nil => exact iff_of_true trivial rfl
  | cons c rest =>
    rw [head?_rests_triviaCode, Solid, ← closeRest_eq_none_iff]
    by_cases hblank : blank.mem c = true
    · simp [hblank]
    · by_cases hline : ['/', '/'] <+: c :: rest
      · simp [hblank, hline]
      · by_cases hblock : ['/', '*'] <+: c :: rest
        · simp [hblank, hline, hblock]
        · simp [hblank, hline, hblock]

/-- What is passed over at the front of a text reaches to where nothing is passed over. -/
theorem skipLength_lexicon (text : Text) :
    lexicon.skipLength text = byteLength text - byteLength (afterTrivia text) := by
  have hsolid : (Code.seq triviaCode (.loop 0 triviaCode true)).isSolid = true := rfl
  rw [Lexicon.skipLength, skip_lexicon, Option.bind_some, anchored,
    Matcher.engine_find, Matcher.find_anchored hsolid,
    head?_rests_seq_of_ne_nil _ rfl fun _ _ => rests_loop_ne_nil rfl rfl _]
  cases h : (triviaCode.rests text).head? with
  | none =>
    rw [afterTrivia_of_none h]
    simp
  | some rest =>
    rw [afterTrivia_of_some h, Option.bind_some, head?_rests_trivia]
    rfl

/-! ## Trivia -/

/-- Blanks, block comments that end with the first asterisk and slash, and line comments with the
line feeds behind them. -/
inductive Trivia : Text → Prop where
  | nil : Trivia []
  | blank {c : Char} {rest : Text} : c ∈ [' ', '\t', '\r', '\n'] → Trivia rest → Trivia (c :: rest)
  | block {body rest : Text} : ¬ ['*', '/'] <:+: body → Trivia rest →
      Trivia ('/' :: '*' :: (body ++ '*' :: '/' :: rest))
  | line {body rest : Text} : '\n' ∉ body → Trivia rest →
      Trivia ('/' :: '/' :: (body ++ '\n' :: rest))

theorem mem_blank_iff_mem {c : Char} : blank.mem c = true ↔ c ∈ [' ', '\t', '\r', '\n'] := by
  rw [mem_blank]
  simp

theorem dropWhile_notNewline {body rest : Text} (h : '\n' ∉ body) :
    (body ++ '\n' :: rest).dropWhile CharClass.notNewline.mem = '\n' :: rest := by
  refine CharClass.dropWhile_of_clear (fun c hc => mem_notNewline.2 ?_) (CharClass.clear_cons.2 rfl)
  rintro rfl
  exact h hc

/-- Trivia is passed over, whatever follows. -/
theorem Trivia.afterTrivia_append {gap : Text} (h : Trivia gap) (rest : Text) :
    afterTrivia (gap ++ rest) = afterTrivia rest := by
  induction h with
  | nil => rfl
  | blank hc _ ih => rw [List.cons_append, afterTrivia_blank (mem_blank_iff_mem.2 hc), ih]
  | @block body more hbody _ ih =>
    have htext : '/' :: '*' :: (body ++ '*' :: '/' :: more) ++ rest =
        '/' :: '*' :: (body ++ '*' :: '/' :: (more ++ rest)) := by simp
    rw [htext, afterTrivia_block hbody, ih]
  | @line body more hbody _ ih =>
    have htext : '/' :: '/' :: (body ++ '\n' :: more) ++ rest =
        '/' :: '/' :: (body ++ '\n' :: (more ++ rest)) := by simp
    rw [htext, afterTrivia_line, dropWhile_notNewline hbody, afterTrivia_blank (by rfl), ih]

theorem Trivia.append {a b : Text} (ha : Trivia a) (hb : Trivia b) : Trivia (a ++ b) := by
  induction ha with
  | nil => exact hb
  | blank hc _ ih => exact .blank hc ih
  | @block body more hbody _ ih =>
    have htext : '/' :: '*' :: (body ++ '*' :: '/' :: more) ++ b =
        '/' :: '*' :: (body ++ '*' :: '/' :: (more ++ b)) := by simp
    rw [htext]
    exact .block hbody ih
  | @line body more hbody _ ih =>
    have htext : '/' :: '/' :: (body ++ '\n' :: more) ++ b =
        '/' :: '/' :: (body ++ '\n' :: (more ++ b)) := by simp
    rw [htext]
    exact .line hbody ih

theorem exists_of_afterTrivia {text rest : Text} (h : afterTrivia text = rest) :
    ∃ gap, text = gap ++ rest := by
  obtain ⟨gap, hgap⟩ := exists_append_afterTrivia text
  exact ⟨gap, by rw [← h]; exact hgap⟩

theorem not_length_lt_of_afterTrivia {text rest : Text} (h : afterTrivia text = rest) :
    ¬ text.length < rest.length := by
  have hle := length_afterTrivia_le text
  rw [h] at hle
  omega

theorem exists_line {gap rest : Text} (h : afterTrivia ('/' :: (gap ++ rest)) = rest)
    (hline : ['/', '/'] <+: '/' :: (gap ++ rest)) :
    ∃ body, '\n' ∉ body ∧ ((gap = '/' :: body ∧ rest = []) ∨
      ∃ more, gap = '/' :: (body ++ '\n' :: more) ∧ afterTrivia (more ++ rest) = rest) := by
  obtain ⟨after, hafter⟩ := (List.cons_prefix_cons.1 hline).2
  rw [List.singleton_append] at hafter
  rw [← hafter, afterTrivia_line] at h
  have hle : (after.dropWhile CharClass.notNewline.mem).length ≤ after.length :=
    (List.dropWhile_sublist _).length_le
  cases gap with
  | nil =>
    -- The second slash would be part of what is left.
    rw [List.nil_append] at hafter
    refine absurd ?_ (not_length_lt_of_afterTrivia h)
    rw [← hafter, List.length_cons]
    omega
  | cons d gap =>
    rw [List.cons_append, List.cons.injEq] at hafter
    obtain ⟨rfl, rfl⟩ := hafter
    obtain ⟨body, hgap, hbody⟩ := CharClass.exists_run CharClass.notNewline gap
    have hnewline : '\n' ∉ body := fun hmem => mem_notNewline.1 (hbody _ hmem) rfl
    have hstop := CharClass.clear_dropWhile CharClass.notNewline gap
    refine ⟨body, hnewline, ?_⟩
    cases hmore : gap.dropWhile CharClass.notNewline.mem with
    | nil =>
      rw [hmore, List.append_nil] at hgap
      refine Or.inl ⟨by rw [hgap], ?_⟩
      have hdrop : (gap ++ rest).dropWhile CharClass.notNewline.mem =
          rest.dropWhile CharClass.notNewline.mem := by
        rw [List.dropWhile_append, hmore]
        rfl
      rw [hdrop] at h
      cases rest with
      | nil => rfl
      | cons e rest =>
        have hlen := not_length_lt_of_afterTrivia h
        by_cases he : CharClass.notNewline.mem e = true
        · rw [List.dropWhile_cons_of_pos he] at hlen
          have hle : (rest.dropWhile CharClass.notNewline.mem).length ≤ rest.length :=
            (List.dropWhile_sublist _).length_le
          rw [List.length_cons] at hlen
          omega
        · have hblank : blank.mem e = true := by
            rw [notNewline_mem_eq_false (Bool.eq_false_iff.2 he)]
            rfl
          rw [List.dropWhile_cons_of_neg he, afterTrivia_blank hblank] at h
          exact absurd (Nat.lt_succ_self _) (not_length_lt_of_afterTrivia h)
    | cons e more =>
      rw [hmore] at hgap hstop
      obtain rfl := notNewline_mem_eq_false (CharClass.clear_cons.1 hstop)
      refine Or.inr ⟨more, by rw [hgap], ?_⟩
      rw [hgap, List.append_assoc, List.cons_append, dropWhile_notNewline hnewline,
        afterTrivia_blank (by rfl)] at h
      exact h

theorem exists_block {gap rest : Text} (h : afterTrivia ('/' :: (gap ++ rest)) = rest)
    (hblock : ['/', '*'] <+: '/' :: (gap ++ rest))
    (hclose : closeRest (gap ++ rest).tail ≠ none) :
    ∃ body more, gap = '*' :: (body ++ '*' :: '/' :: more) ∧ Unclosed body ∧
      afterTrivia (more ++ rest) = rest := by
  obtain ⟨after, hafter⟩ := (List.cons_prefix_cons.1 hblock).2
  rw [List.singleton_append] at hafter
  obtain ⟨other, hother⟩ := Option.ne_none_iff_exists'.1 hclose
  rw [← hafter, List.tail_cons] at hother
  obtain ⟨body, rfl, hbody⟩ := exists_of_closeRest hother
  rw [← hafter, afterTrivia_block hbody] at h
  obtain ⟨more, rfl⟩ := exists_of_afterTrivia h
  cases gap with
  | nil =>
    rw [List.nil_append] at hafter
    refine absurd ?_ (not_length_lt_of_afterTrivia h)
    have hlen := congrArg List.length hafter
    simp only [List.length_cons, List.length_append] at hlen
    omega
  | cons d gap =>
    rw [List.cons_append, List.cons.injEq] at hafter
    obtain ⟨rfl, hgap⟩ := hafter
    have heq : (body ++ '*' :: '/' :: more) ++ rest = gap ++ rest := by rw [← hgap]; simp
    exact ⟨body, more, by rw [List.append_cancel_right heq], hbody, h⟩

/-- What is passed over is trivia. Only a line comment at the very end of the text is not, before
a line feed follows it. -/
theorem trivia_of_afterTrivia {gap rest : Text} (h : afterTrivia (gap ++ rest) = rest) :
    (rest ≠ [] → Trivia gap) ∧ Trivia (gap ++ ['\n']) := by
  have hnewline : Trivia ['\n'] := .blank (by decide) .nil
  suffices hcases : (rest = [] ∧ Trivia (gap ++ ['\n'])) ∨ Trivia gap by
    rcases hcases with ⟨hnil, hgap⟩ | hgap
    · exact ⟨fun hne => absurd hnil hne, hgap⟩
    · exact ⟨fun _ => hgap, hgap.append hnewline⟩
  induction hn : gap.length using Nat.strongRecOn generalizing gap with
  | ind n ih =>
    cases gap with
    | nil => exact Or.inr .nil
    | cons c gap =>
      have hnone : (triviaCode.rests (c :: (gap ++ rest))).head? ≠ none := by
        intro hnone
        have hlen := congrArg List.length (afterTrivia_of_none hnone)
        rw [List.cons_append] at h
        rw [h, List.length_cons, List.length_append] at hlen
        omega
      rw [head?_rests_triviaCode] at hnone
      rw [List.cons_append] at h
      rw [List.length_cons] at hn
      split at hnone
      · rename_i hblank
        rw [afterTrivia_blank hblank] at h
        rcases ih gap.length (by omega) h rfl with ⟨hnil, hgap⟩ | hgap
        · exact Or.inl ⟨hnil, .blank (mem_blank_iff_mem.1 hblank) hgap⟩
        · exact Or.inr (.blank (mem_blank_iff_mem.1 hblank) hgap)
      · split at hnone
        · rename_i hline
          obtain rfl := (List.cons_prefix_cons.1 hline).1
          obtain ⟨body, hbody, ⟨rfl, hnil⟩ | ⟨more, rfl, hmore⟩⟩ := exists_line h hline
          · exact Or.inl ⟨hnil, .line hbody .nil⟩
          · rcases ih more.length (by simp at hn; omega) hmore rfl with ⟨hnil, hgap⟩ | hgap
            · refine Or.inl ⟨hnil, ?_⟩
              have htext : '/' :: '/' :: (body ++ '\n' :: more) ++ ['\n'] =
                  '/' :: '/' :: (body ++ '\n' :: (more ++ ['\n'])) := by simp
              rw [htext]
              exact .line hbody hgap
            · exact Or.inr (.line hbody hgap)
        · split at hnone
          · rename_i hblock
            obtain rfl := (List.cons_prefix_cons.1 hblock).1
            obtain ⟨body, more, rfl, hbody, hmore⟩ := exists_block h hblock hnone
            rcases ih more.length (by simp at hn; omega) hmore rfl with ⟨hnil, hgap⟩ | hgap
            · refine Or.inl ⟨hnil, ?_⟩
              have htext : '/' :: '*' :: (body ++ '*' :: '/' :: more) ++ ['\n'] =
                  '/' :: '*' :: (body ++ '*' :: '/' :: (more ++ ['\n'])) := by simp
              rw [htext]
              exact .block hbody hgap
            · exact Or.inr (.block hbody hgap)
          · exact absurd rfl hnone

end PredictiveParsing.Ecma
