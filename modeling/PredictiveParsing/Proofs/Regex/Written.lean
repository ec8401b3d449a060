import PredictiveParsing.Proofs.Regex.Scope

/-!
# Patterns as they are written

The reader of patterns reduces expressions while it builds them. The written form of a pattern is
the expression without reductions: a sequence for each branch, a choice for each group, a repetition
for each mark. Parentheses that count leave no trace.

* `Regex.written?`: the expression of a pattern as it is written.
* `written?_isSome`: every pattern that is read has a written form.
-/

namespace PredictiveParsing

open Text

/-- A group as far as it has been written: the flags in force, the finished branches, and the pieces
of the last branch with whether each may be repeated. Branches and pieces are kept latest first. -/
structure Draft where
  flags : Flags := {}
  branches : List Regex := []
  pieces : List (Regex × Bool) := []
  deriving DecidableEq

namespace Draft

/-- The branch that is being written. -/
def branch (d : Draft) : Regex :=
  Regex.ofFactors (d.pieces.reverse.map (·.1))

/-- What is in the group. -/
def content (d : Draft) : Regex :=
  Regex.ofBranches (d.branch :: d.branches).reverse

/-- Adds a piece to the branch that is being written. -/
def push (d : Draft) (r : Regex) (repeatable : Bool := true) : Draft :=
  { d with pieces := (r, repeatable) :: d.pieces }

/-- Repeats the last piece. -/
def repeatLast? (d : Draft) (low : Nat) (high : Option Nat) (marked : Bool) : Option Draft :=
  match d.pieces with
  | (r, true) :: pieces =>
    some { d with pieces := (.repeat r low high (marked == d.flags.swapGreed), true) :: pieces }
  | _ => none

end Draft

/-- A pattern that has been written in part: the innermost open group and the groups around it, from
the inside out. -/
structure DraftReader where
  inner : Draft := {}
  outer : List Draft := []
  deriving DecidableEq

namespace DraftReader

/-- Adds a piece to the innermost group. -/
def push (s : DraftReader) (r : Regex) : DraftReader :=
  { s with inner := s.inner.push r }

/-- Takes in one lexeme. -/
def take (s : DraftReader) : Lexeme → Option DraftReader
  | .literal c => some (s.push (PatternReader.literal c s.inner.flags.caseless))
  | .dot => some (s.push (.chars (if s.inner.flags.dotAll then .any else .notNewline)))
  | .caret => some (s.push (.look (if s.inner.flags.multiline then .lineStart else .textStart)))
  | .dollar => some (s.push (.look (if s.inner.flags.multiline then .lineEnd else .textEnd)))
  | .set items negated =>
    some (s.push (.chars (CharClass.ofItems items s.inner.flags.caseless negated)))
  | .property which negated => some (s.push (.chars (ClassItem.property which negated).charClass))
  | .look a => some (s.push (.look a))
  | .repeat low high marked => do return { s with inner := ← s.inner.repeatLast? low high marked }
  | .bar =>
    some { s with inner := { s.inner with
      branches := s.inner.branch :: s.inner.branches, pieces := [] } }
  | .openGroup changes =>
    some ⟨{ flags := s.inner.flags.change changes }, s.inner :: s.outer⟩
  | .openCounted _ => some ⟨{ flags := s.inner.flags }, s.inner :: s.outer⟩
  | .closeGroup =>
    match s.outer with
    | [] => none
    | group :: outer => some ⟨group.push s.inner.content, outer⟩
  | .directive changes =>
    some { s with inner := { s.inner.push .empty false with
      flags := s.inner.flags.change changes } }

/-- A reader with further groups around it. -/
def within (s : DraftReader) (frames : List Draft) : DraftReader :=
  { s with outer := s.outer ++ frames }

theorem take_within {s s' : DraftReader} {lexeme : Lexeme} (h : s.take lexeme = some s')
    (frames : List Draft) : (s.within frames).take lexeme = some (s'.within frames) := by
  cases lexeme with
  | closeGroup =>
    obtain ⟨inner, outer⟩ := s
    cases outer with
    | nil => cases h
    | cons group outer => cases h; rfl
  | «repeat» low high marked =>
    obtain ⟨inner, hinner, h⟩ := Option.bind_eq_some_iff.1 h
    cases h
    exact Option.bind_eq_some_iff.2 ⟨inner, hinner, rfl⟩
  | _ => cases h; rfl

/-- What is around an open group has no influence on what is written in it. -/
theorem foldlM_take_within {s s' : DraftReader} {lexemes : List Lexeme}
    (h : lexemes.foldlM take s = some s') (frames : List Draft) :
    lexemes.foldlM take (s.within frames) = some (s'.within frames) := by
  induction lexemes generalizing s with
  | nil => cases h; rfl
  | cons lexeme lexemes ih =>
    rw [List.foldlM_cons] at h ⊢
    obtain ⟨next, hnext, h⟩ := Option.bind_eq_some_iff.1 h
    exact Option.bind_eq_some_iff.2 ⟨_, take_within hnext frames, ih h⟩

end DraftReader

/-- What some lexemes write, if they close the groups that they open. -/
def Regex.ofLexemes? (lexemes : List Lexeme) : Option Regex :=
  match lexemes.foldlM DraftReader.take {} with
  | some ⟨inner, []⟩ => some inner.content
  | _ => none

/-- The expression of a pattern as it is written. -/
def Regex.written? (pattern : Text) : Option Regex := do
  Regex.ofLexemes? (← Regex.lexemes? pattern)

theorem Regex.ofLexemes?_of_foldlM {lexemes : List Lexeme} {d : Draft}
    (h : lexemes.foldlM DraftReader.take {} = some ⟨d, []⟩) :
    Regex.ofLexemes? lexemes = some d.content := by
  rw [Regex.ofLexemes?, h]

theorem Regex.ofLexemes?_eq_some {lexemes : List Lexeme} {r : Regex}
    (h : Regex.ofLexemes? lexemes = some r) :
    ∃ d : Draft, lexemes.foldlM DraftReader.take {} = some ⟨d, []⟩ ∧ r = d.content := by
  rw [Regex.ofLexemes?] at h
  split at h
  · rename_i d hfold
    cases h
    exact ⟨d, hfold, rfl⟩
  · cases h

namespace DraftReader

/-- A group in which no flag is set writes what its lexemes write by themselves. -/
theorem foldlM_take_group {lexemes : List Lexeme} {r : Regex}
    (h : Regex.ofLexemes? lexemes = some r) {s : DraftReader} (hflags : s.inner.flags = {}) :
    (.openGroup [] :: (lexemes ++ [.closeGroup])).foldlM take s = some (s.push r) := by
  obtain ⟨d, hfold, rfl⟩ := Regex.ofLexemes?_eq_some h
  have hopen : s.take (.openGroup []) = some (within {} (s.inner :: s.outer)) := by
    rw [take, hflags]
    rfl
  rw [List.foldlM_cons, hopen]
  show (lexemes ++ [Lexeme.closeGroup]).foldlM take (within {} (s.inner :: s.outer)) = _
  rw [List.foldlM_append, foldlM_take_within hfold]
  rfl

/-- Characters that stand for themselves become one piece each. -/
theorem foldlM_take_literals (text : Text) {s : DraftReader} (hflags : s.inner.flags = {}) :
    (text.map Lexeme.literal).foldlM take s =
      some { s with inner := { s.inner with
        pieces := (text.map fun c => (Regex.literal [c], true)).reverse ++ s.inner.pieces } } := by
  induction text generalizing s with
  | nil => rfl
  | cons c text ih =>
    have hfirst : s.take (.literal c) = some (s.push (.literal [c])) := by
      rw [take, hflags]
      rfl
    have hlater := @ih (s.push (.literal [c])) hflags
    rw [List.map_cons, List.foldlM_cons, hfirst]
    refine hlater.trans ?_
    simp [push, Draft.push]

end DraftReader

/-! ## Every pattern that is read has a written form -/

/-- What decides in an open group about later lexemes: the flags, and which pieces may be
repeated. -/
def OpenGroup.shape (g : OpenGroup) : Flags × List Bool :=
  (g.flags, g.pieces.map (·.repeatable))

/-- What decides in a draft about later lexemes. -/
def Draft.shape (d : Draft) : Flags × List Bool :=
  (d.flags, d.pieces.map (·.2))

namespace DraftReader

/-- Whether a draft has come as far as a reader. -/
structure Agrees (d : DraftReader) (s : PatternReader) : Prop where
  inner : d.inner.shape = s.inner.shape
  outer : d.outer.map Draft.shape = s.outer.map OpenGroup.shape

variable {s s' : PatternReader} {d : DraftReader}

theorem Agrees.flags (h : d.Agrees s) : d.inner.flags = s.inner.flags :=
  congrArg Prod.fst h.inner

theorem Agrees.pieces (h : d.Agrees s) :
    d.inner.pieces.map (·.2) = s.inner.pieces.map (·.repeatable) :=
  congrArg Prod.snd h.inner

theorem Agrees.push (h : d.Agrees s) (r r' : Regex) (depth : Nat) :
    (d.push r).Agrees (s.push r' depth) where
  inner := Prod.ext h.flags (congrArg (true :: ·) h.pieces)
  outer := h.outer

theorem take_of_agrees {lexeme : Lexeme} (h : d.Agrees s) (htake : s.take lexeme = .ok s') :
    ∃ d', d.take lexeme = some d' ∧ d'.Agrees s' := by
  have houter : (d.inner :: d.outer).map Draft.shape =
      (s.inner :: s.outer).map OpenGroup.shape := by
    rw [List.map_cons, List.map_cons, h.inner, h.outer]
  cases lexeme with
  | openGroup changes =>
    cases htake
    exact ⟨_, rfl, Prod.ext (congrArg (Flags.change · changes) h.flags) rfl, houter⟩
  | openCounted name =>
    obtain ⟨hinner, houter'⟩ := PatternReader.openCounted_ok htake
    refine ⟨_, rfl, ?_, houter.trans (congrArg _ houter'.symm)⟩
    rw [hinner]
    exact Prod.ext h.flags rfl
  | closeGroup =>
    obtain ⟨group, groups, hgroups, rfl⟩ := PatternReader.closeGroup_ok htake
    have hmap := h.outer
    rw [hgroups] at hmap
    obtain ⟨frame, frames, hframes, hframe, hmap⟩ := List.map_eq_cons_iff.1 hmap
    have hflags : frame.flags = group.flags := congrArg Prod.fst hframe
    have hpieces : frame.pieces.map (·.2) = group.pieces.map (·.repeatable) :=
      congrArg Prod.snd hframe
    exact ⟨⟨frame.push d.inner.content, frames⟩, by simp only [take, hframes],
      Prod.ext hflags (congrArg (true :: ·) hpieces), hmap⟩
  | directive changes =>
    cases htake
    refine ⟨_, rfl, Prod.ext (congrArg (Flags.change · changes) h.flags) ?_, h.outer⟩
    exact congrArg (false :: ·) h.pieces
  | «repeat» low high marked =>
    obtain ⟨r, depth, pieces, hpieces, rfl⟩ := PatternReader.take_repeat_ok htake
    have hmap := h.pieces
    rw [hpieces] at hmap
    obtain ⟨⟨r', mark⟩, pieces', hpieces', rfl, hmap⟩ := List.map_eq_cons_iff.1 hmap
    have hrepeat : d.inner.repeatLast? low high marked = some { d.inner with
        pieces := (.repeat r' low high (marked == d.inner.flags.swapGreed), true) :: pieces' } := by
      simp only [Draft.repeatLast?, hpieces']
    exact ⟨_, Option.bind_eq_some_iff.2 ⟨_, hrepeat, rfl⟩,
      Prod.ext h.flags (congrArg (true :: ·) hmap), h.outer⟩
  | bar =>
    cases htake
    exact ⟨_, rfl, Prod.ext h.flags rfl, h.outer⟩
  | _ =>
    cases htake
    exact ⟨_, rfl, h.push _ _ _⟩

theorem foldlM_take_of_agrees {lexemes : List Lexeme} (h : d.Agrees s)
    (hfold : lexemes.foldlM PatternReader.take s = .ok s') :
    ∃ d', lexemes.foldlM take d = some d' ∧ d'.Agrees s' := by
  induction lexemes generalizing s d with
  | nil => cases hfold; exact ⟨d, rfl, h⟩
  | cons lexeme lexemes ih =>
    rw [List.foldlM_cons] at hfold
    obtain ⟨next, htake, hfold⟩ := exists_of_bind_eq_ok hfold
    obtain ⟨d₁, hd₁, h₁⟩ := take_of_agrees h htake
    obtain ⟨d', hd', h'⟩ := ih h₁ hfold
    refine ⟨d', ?_, h'⟩
    rw [List.foldlM_cons, hd₁]
    exact hd'

end DraftReader

/-- Every pattern that is read has a written form. -/
theorem Regex.written?_isSome {pattern : Text} {r : Regex} (h : Regex.read pattern = .ok r) :
    (Regex.written? pattern).isSome := by
  obtain ⟨lexemes, s, hlexemes, hfold, hfinish⟩ := Regex.read_ok h
  have hstart : DraftReader.Agrees {} {} := ⟨rfl, rfl⟩
  obtain ⟨d, hd, hagrees⟩ := DraftReader.foldlM_take_of_agrees hstart hfold
  have houter : d.outer = [] := by
    have hmap := hagrees.outer
    rw [PatternReader.outer_of_finish hfinish] at hmap
    exact List.map_eq_nil_iff.1 hmap
  obtain ⟨inner, outer⟩ := d
  cases houter
  rw [Regex.written?, hlexemes]
  show (Regex.ofLexemes? lexemes).isSome
  rw [Regex.ofLexemes?, hd]
  rfl

end PredictiveParsing
