import PredictiveParsing.Proofs.Regex.Lexemes
import PredictiveParsing.Regex.Pattern

/-!
# The lexemes of a pattern

Which lexeme comes next depends on the text and on whether blanks and comments are ignored there,
which the groups around it decide. A scope keeps that and nothing else. So the lexemes of a pattern
are known before anything is built of them, and what is built is a fold over them.

A pattern that is complete on its own can be put in parentheses: its lexemes then stand between
those of the parentheses (`Closed`), unless it ends in an unfinished comment.

* `Regex.lexemes?`: the lexemes of a pattern whose groups are all closed.
* `PatternReader.takeAll_ok`: the reader of patterns takes in the lexemes one after the other.
* `Lexes.append_or_swallow`: a closing parenthesis behind a pattern.
-/

namespace PredictiveParsing

open Text

/-- Whether blanks and comments are ignored in the innermost group, and in the groups around it. -/
structure Scope where
  extended : Bool := false
  outer : List Bool := []
  deriving DecidableEq

namespace Scope

/-- Whether blanks and comments are ignored behind some changes of flags. -/
def change (extended : Bool) (changes : FlagChanges) : Bool :=
  changes.foldl (fun extended c => if c.1 = .extended then c.2 else extended) extended

/-- The scope behind a lexeme; there is none behind a parenthesis that closes nothing. -/
def take (scope : Scope) : Lexeme → Option Scope
  | .openGroup changes => some ⟨change scope.extended changes, scope.extended :: scope.outer⟩
  | .openCounted _ => some ⟨scope.extended, scope.extended :: scope.outer⟩
  | .closeGroup =>
    match scope.outer with
    | [] => none
    | extended :: outer => some ⟨extended, outer⟩
  | .directive changes => some { scope with extended := change scope.extended changes }
  | _ => some scope

/-- The lexemes of a text, at most as many as the number says, and the scope at its end. -/
def lexAll : Nat → Scope → Text → Option (List Lexeme × Scope)
  | 0, _, _ => none
  | n + 1, scope, text =>
    match Lexeme.read? scope.extended text with
    | .error _ => none
    | .ok none => some ([], scope)
    | .ok (some (lexeme, rest)) => do
      let (lexemes, last) ← lexAll n (← scope.take lexeme) rest
      return (lexeme :: lexemes, last)

/-- A scope with further groups around it. -/
def within (scope : Scope) (frames : List Bool) : Scope :=
  { scope with outer := scope.outer ++ frames }

theorem take_within {scope next : Scope} {lexeme : Lexeme} (h : scope.take lexeme = some next)
    (frames : List Bool) : (scope.within frames).take lexeme = some (next.within frames) := by
  cases lexeme with
  | closeGroup =>
    obtain ⟨extended, outer⟩ := scope
    cases outer with
    | nil => cases h
    | cons frame outer => cases h; rfl
  | _ => cases h; rfl

theorem foldlM_take_within {scope last : Scope} {lexemes : List Lexeme}
    (h : lexemes.foldlM take scope = some last) (frames : List Bool) :
    lexemes.foldlM take (scope.within frames) = some (last.within frames) := by
  induction lexemes generalizing scope with
  | nil => cases h; rfl
  | cons lexeme lexemes ih =>
    rw [List.foldlM_cons] at h ⊢
    obtain ⟨next, hnext, h⟩ := Option.bind_eq_some_iff.1 h
    exact Option.bind_eq_some_iff.2 ⟨_, take_within hnext frames, ih h⟩

end Scope

/-- The lexemes of a pattern whose groups are all closed at its end. -/
def Regex.lexemes? (pattern : Text) : Option (List Lexeme) := do
  let (lexemes, last) ← Scope.lexAll (pattern.length + 1) {} pattern
  if last.outer.isEmpty then return lexemes else none

/-- The lexemes of a text, from a scope to the one at its end. -/
inductive Lexes : Scope → Text → List Lexeme → Scope → Prop where
  | done {scope : Scope} {text : Text} (h : Lexeme.read? scope.extended text = .ok none) :
      Lexes scope text [] scope
  | step {scope next last : Scope} {text rest : Text} {lexeme : Lexeme} {lexemes : List Lexeme}
      (h : Lexeme.read? scope.extended text = .ok (some (lexeme, rest)))
      (htake : scope.take lexeme = some next) (hrest : Lexes next rest lexemes last) :
      Lexes scope text (lexeme :: lexemes) last

namespace Lexes

variable {scope last : Scope} {text rest : Text} {lexemes : List Lexeme}

/-- A text has its lexemes in one way only. -/
theorem unique {last' : Scope} {lexemes' : List Lexeme} (h : Lexes scope text lexemes last)
    (h' : Lexes scope text lexemes' last') : lexemes = lexemes' ∧ last = last' := by
  induction h generalizing lexemes' last' with
  | done hnone =>
    cases h' with
    | done => exact ⟨rfl, rfl⟩
    | step hsome => rw [hnone] at hsome; cases hsome
  | step hsome htake _ ih =>
    cases h' with
    | done hnone => rw [hsome] at hnone; cases hnone
    | step hsome' htake' hrest =>
      rw [hsome] at hsome'
      cases hsome'
      rw [htake] at htake'
      cases htake'
      obtain ⟨rfl, rfl⟩ := ih hrest
      exact ⟨rfl, rfl⟩

theorem foldlM_take (h : Lexes scope text lexemes last) :
    lexemes.foldlM Scope.take scope = some last := by
  induction h with
  | done => rfl
  | step _ htake _ ih =>
    rw [List.foldlM_cons, htake]
    exact ih

theorem lexAll {n : Nat} (h : Lexes scope text lexemes last) (hn : text.length < n) :
    Scope.lexAll n scope text = some (lexemes, last) := by
  induction h generalizing n with
  | done hnone =>
    obtain ⟨n, rfl⟩ : ∃ k, n = k + 1 := ⟨n - 1, by omega⟩
    simp [Scope.lexAll, hnone]
  | step hsome htake _ ih =>
    obtain ⟨n, rfl⟩ : ∃ k, n = k + 1 := ⟨n - 1, by omega⟩
    have hlt := Lexeme.length_lt_of_read? hsome
    have hlater := @ih n (by omega)
    simp [Scope.lexAll, hsome, htake, hlater]

theorem of_lexAll {n : Nat} (h : Scope.lexAll n scope text = some (lexemes, last)) :
    Lexes scope text lexemes last := by
  induction n generalizing scope text lexemes with
  | zero => cases h
  | succ n ih =>
    rw [Scope.lexAll] at h
    split at h
    · cases h
    · rename_i hnone
      cases h
      exact .done hnone
    · rename_i lexeme rest hsome
      simp only [bind, Option.bind_eq_some_iff] at h
      obtain ⟨next, hnext, found, hfound, heq⟩ := h
      cases heq
      exact .step hsome hnext (ih hfound)

/-- A closing parenthesis behind a text is read behind the lexemes of the text; or an unfinished
comment at the end of the text swallows it. -/
theorem append_or_swallow (h : Lexes scope text lexemes last) :
    (∀ (frames : List Bool) (tail : Text) (more : List Lexeme) (final : Scope),
        Lexes (last.within frames) (')' :: tail) more final →
          Lexes (scope.within frames) (text ++ ')' :: tail) (lexemes ++ more) final) ∨
      ∀ (frames : List Bool) (tail : Text), '\n' ∉ tail →
        Lexes (scope.within frames) (text ++ ')' :: tail) lexemes (last.within frames) := by
  induction h with
  | @done scope text hnone =>
    rcases Lexeme.read?_append_of_none hnone with hseen | hswallowed
    · refine Or.inl fun frames tail more final hmore => ?_
      have hclose : Lexeme.read? scope.extended (')' :: tail) = .ok (some (.closeGroup, tail)) := by
        cases scope.extended <;> rfl
      cases hmore with
      | done hnone' => rw [Scope.within, hclose] at hnone'; cases hnone'
      | step hsome htake hrest =>
        rw [Scope.within, hclose] at hsome
        cases hsome
        exact .step (hseen tail) htake hrest
    · exact Or.inr fun frames tail htail => .done (hswallowed tail htail)
  | @step scope next last text rest lexeme lexemes hsome htake hrest ih =>
    rcases Lexeme.read?_append hsome with hseen | ⟨rfl, hswallowed⟩
    · rcases ih with hlater | hlater
      · exact Or.inl fun frames tail more final hmore =>
          .step (hseen tail) (Scope.take_within htake frames) (hlater frames tail more final hmore)
      · exact Or.inr fun frames tail htail =>
          .step (hseen tail) (Scope.take_within htake frames) (hlater frames tail htail)
    · refine Or.inr fun frames tail htail =>
        .step (hswallowed tail htail) (Scope.take_within htake frames) ?_
      have hnone (extended : Bool) : Lexeme.read? extended [] = .ok none := by
        cases extended <;> rfl
      cases hrest with
      | done => exact .done (hnone _)
      | step hsome' => rw [hnone] at hsome'; cases hsome'

end Lexes

theorem Regex.lexemes?_eq_some_iff {pattern : Text} {lexemes : List Lexeme} :
    Regex.lexemes? pattern = some lexemes ↔
      ∃ extended, Lexes {} pattern lexemes ⟨extended, []⟩ := by
  constructor
  · intro h
    simp only [Regex.lexemes?, bind, Option.bind_eq_some_iff] at h
    obtain ⟨⟨found, last⟩, hfound, h⟩ := h
    split at h
    · rename_i houter
      cases h
      obtain ⟨extended, outer⟩ := last
      obtain rfl : outer = [] := List.isEmpty_iff.1 houter
      exact ⟨extended, .of_lexAll hfound⟩
    · cases h
  · rintro ⟨extended, h⟩
    simp [Regex.lexemes?, h.lexAll (Nat.lt_succ_self _)]

/-! ## The reader of patterns takes in the lexemes -/

namespace PatternReader

/-- The scope at the place that a reader has come to. -/
def scope (s : PatternReader) : Scope :=
  ⟨s.inner.flags.extended, s.outer.map (·.flags.extended)⟩

theorem extended_change (flags : Flags) (changes : FlagChanges) :
    (flags.change changes).extended = Scope.change flags.extended changes := by
  induction changes generalizing flags with
  | nil => rfl
  | cons c changes ih =>
    rw [Flags.change, List.foldl_cons, ← Flags.change, ih, Scope.change, Scope.change,
      List.foldl_cons]
    obtain ⟨flag, on⟩ := c
    cases flag <;> rfl

/-- A group that counts opens in front of the groups around it, with the flags in force. -/
theorem openCounted_ok {s s' : PatternReader} {name : Option Text}
    (h : s.openCounted name = .ok s') :
    s'.inner = { number := some s.nextGroup, flags := s.inner.flags } ∧
      s'.outer = s.inner :: s.outer := by
  cases name with
  | none => cases h; exact ⟨rfl, rfl⟩
  | some name =>
    simp only [openCounted] at h
    split at h
    · cases h
    · cases h; exact ⟨rfl, rfl⟩

/-- A group that is closed becomes a piece of the group around it. -/
theorem closeGroup_ok {s s' : PatternReader} (h : s.closeGroup = .ok s') :
    ∃ group outer, s.outer = group :: outer ∧
      s' = { s with inner := group.push s.inner.closed, outer } := by
  rw [closeGroup] at h
  split at h
  · cases h
  · rename_i group outer houter
    cases h
    exact ⟨group, outer, houter, rfl⟩

/-- A repetition takes the place of the last piece. -/
theorem take_repeat_ok {s s' : PatternReader} {low : Nat} {high : Option Nat} {marked : Bool}
    (h : s.take (.repeat low high marked) = .ok s') :
    ∃ r depth pieces, s.inner.pieces = ⟨r, depth, true⟩ :: pieces ∧
      s' = { s with inner := { s.inner with
        pieces := ⟨r.repeated low high (marked == s.inner.flags.swapGreed), depth + 1, true⟩ ::
          pieces } } := by
  obtain ⟨inner, hinner, h⟩ := exists_of_bind_eq_ok h
  cases h
  rw [OpenGroup.repeatLast] at hinner
  split at hinner
  · rename_i r depth pieces hpieces
    cases hinner
    exact ⟨r, depth, pieces, hpieces, rfl⟩
  · cases hinner

theorem take_scope {s s' : PatternReader} {lexeme : Lexeme} (h : s.take lexeme = .ok s') :
    s.scope.take lexeme = some s'.scope := by
  cases lexeme with
  | openGroup changes =>
    cases h
    simp [Scope.take, scope, openPlain, extended_change]
  | openCounted name =>
    obtain ⟨hinner, houter⟩ := openCounted_ok h
    simp [Scope.take, scope, hinner, houter]
  | closeGroup =>
    obtain ⟨group, outer, houter, rfl⟩ := closeGroup_ok h
    simp [Scope.take, scope, houter, OpenGroup.push]
  | directive changes =>
    cases h
    simp [Scope.take, scope, OpenGroup.change, extended_change]
  | «repeat» low high marked =>
    obtain ⟨r, depth, pieces, _, rfl⟩ := take_repeat_ok h
    rfl
  | _ => cases h; rfl

theorem takeAll_ok {n : Nat} {s s' : PatternReader} {text : Text} (hn : text.length < n)
    (h : takeAll n s text = .ok s') :
    ∃ lexemes, Lexes s.scope text lexemes s'.scope ∧ lexemes.foldlM take s = .ok s' := by
  induction n generalizing s text with
  | zero => omega
  | succ n ih =>
    obtain ⟨found, hread, h⟩ := exists_of_bind_eq_ok h
    cases found with
    | none => cases h; exact ⟨[], .done hread, rfl⟩
    | some found =>
      obtain ⟨lexeme, rest⟩ := found
      obtain ⟨next, hnext, h⟩ := exists_of_bind_eq_ok h
      have hlt := Lexeme.length_lt_of_read? hread
      obtain ⟨lexemes, hlexes, hfold⟩ := ih (by omega) h
      refine ⟨lexeme :: lexemes, .step hread (take_scope hnext) hlexes, ?_⟩
      rw [List.foldlM_cons, hnext]
      exact hfold

/-- At the end of a pattern no group is open. -/
theorem outer_of_finish {s : PatternReader} {r : Regex} (h : s.finish = .ok r) : s.outer = [] := by
  rw [finish] at h
  split at h
  · cases h
  · rename_i houter
    simpa using houter

end PatternReader

/-- A pattern that is read has lexemes, which the reader takes in one after the other. -/
theorem Regex.read_ok {pattern : Text} {r : Regex} (h : Regex.read pattern = .ok r) :
    ∃ lexemes s, Regex.lexemes? pattern = some lexemes ∧
      lexemes.foldlM PatternReader.take {} = .ok s ∧ s.finish = .ok r := by
  obtain ⟨s, hread, h⟩ := exists_of_bind_eq_ok h
  obtain ⟨lexemes, hlexes, hfold⟩ := PatternReader.takeAll_ok (Nat.lt_succ_self _) hread
  rw [PatternReader.scope, PatternReader.scope, PatternReader.outer_of_finish h] at hlexes
  exact ⟨lexemes, s, Regex.lexemes?_eq_some_iff.2 ⟨_, hlexes⟩, hfold, h⟩

theorem Matcher.read_ok {pattern : Text} {m : Matcher} (h : Matcher.read pattern = .ok m) :
    ∃ r, Regex.read pattern = .ok r ∧ m = Matcher.ofRegex r := by
  obtain ⟨r, hregex, h⟩ := exists_of_bind_eq_ok h
  split at h
  · cases h
    exact ⟨r, hregex, rfl⟩
  · cases h

/-! ## Groups that stay open -/

namespace PatternReader

variable {s s' : PatternReader} {inside bottom : List OpenGroup} {scope next : Scope}

/-- A lexeme leaves the groups alone that are open around its scope. -/
theorem take_outer {lexeme : Lexeme} (h : s.take lexeme = .ok s')
    (houter : s.outer = inside ++ bottom) (hlength : inside.length = scope.outer.length)
    (hscope : scope.take lexeme = some next) :
    ∃ inside', s'.outer = inside' ++ bottom ∧ inside'.length = next.outer.length := by
  cases lexeme with
  | openGroup changes =>
    cases h
    cases hscope
    exact ⟨s.inner :: inside, by simp [openPlain, houter], by simp [hlength]⟩
  | openCounted name =>
    cases hscope
    obtain ⟨_, houter'⟩ := openCounted_ok h
    exact ⟨s.inner :: inside, by simp [houter', houter], by simp [hlength]⟩
  | closeGroup =>
    obtain ⟨extended, outer⟩ := scope
    cases outer with
    | nil => cases hscope
    | cons frame outer =>
      cases hscope
      obtain ⟨group, inside, rfl⟩ := List.exists_cons_of_length_eq_add_one hlength
      obtain ⟨group', outer', houter', rfl⟩ := closeGroup_ok h
      rw [houter'] at houter
      cases houter
      exact ⟨inside, rfl, by simpa using hlength⟩
  | directive changes =>
    cases h
    cases hscope
    exact ⟨inside, houter, hlength⟩
  | «repeat» low high marked =>
    cases hscope
    obtain ⟨r, depth, pieces, _, rfl⟩ := take_repeat_ok h
    exact ⟨inside, houter, hlength⟩
  | _ =>
    cases h
    cases hscope
    exact ⟨inside, houter, hlength⟩

theorem foldlM_take_outer {lexemes : List Lexeme} (h : lexemes.foldlM take s = .ok s')
    (houter : s.outer = inside ++ bottom) (hlength : inside.length = scope.outer.length)
    (hscope : lexemes.foldlM Scope.take scope = some next) :
    ∃ inside', s'.outer = inside' ++ bottom ∧ inside'.length = next.outer.length := by
  induction lexemes generalizing s inside scope with
  | nil => cases h; cases hscope; exact ⟨inside, houter, hlength⟩
  | cons lexeme lexemes ih =>
    rw [List.foldlM_cons] at h hscope
    obtain ⟨scope₁, hscope₁, hscope⟩ := Option.bind_eq_some_iff.1 hscope
    obtain ⟨s₁, hs₁, h⟩ := exists_of_bind_eq_ok h
    obtain ⟨inside₁, houter₁, hlength₁⟩ := take_outer hs₁ houter hlength hscope₁
    exact ih h houter₁ hlength₁ hscope

end PatternReader

/-! ## Patterns in parentheses -/

namespace Lexes

variable {outer : List Bool} {rest : Text} {lexemes : List Lexeme} {last : Scope}

theorem start (h : Lexes ⟨false, outer⟩ rest lexemes last) :
    Lexes ⟨false, outer⟩ ("\\A".toList ++ rest) (.look .textStart :: lexemes) last := by
  have hread : Lexeme.read? false ("\\A".toList ++ rest) =
      .ok (some (.look .textStart, rest)) := rfl
  exact .step hread rfl h

theorem openPlain (h : Lexes ⟨false, false :: outer⟩ rest lexemes last) :
    Lexes ⟨false, outer⟩ ("(?:".toList ++ rest) (.openGroup [] :: lexemes) last := by
  have hread : Lexeme.read? false ("(?:".toList ++ rest) = .ok (some (.openGroup [], rest)) := rfl
  exact .step hread rfl h

theorem closing (frame : Bool) (extended : Bool) (h : Lexes ⟨frame, outer⟩ rest lexemes last) :
    Lexes ⟨extended, frame :: outer⟩ (')' :: rest) (.closeGroup :: lexemes) last := by
  have hread : Lexeme.read? extended (')' :: rest) = .ok (some (.closeGroup, rest)) := by
    cases extended <;> rfl
  exact .step hread rfl h

end Lexes

/-- Whether the lexemes of a text come between those of parentheses around it. -/
structure Closed (body : Text) (lexemes : List Lexeme) : Prop where
  balanced : ∃ extended, lexemes.foldlM Scope.take {} = some ⟨extended, []⟩
  closes : ∀ {outer : List Bool} {tail : Text} {more : List Lexeme} {last : Scope},
    Lexes ⟨false, outer⟩ tail more last →
      Lexes ⟨false, false :: outer⟩ (body ++ ')' :: tail) (lexemes ++ .closeGroup :: more) last

/-- A pattern that is complete on its own can be put in parentheses, or its last comment swallows
the parenthesis that closes them. -/
theorem closed_or_swallows {body : Text} {lexemes : List Lexeme}
    (h : Regex.lexemes? body = some lexemes) :
    Closed body lexemes ∨
      ∀ (outer : List Bool) (tail : Text), '\n' ∉ tail →
        ∃ extended, Lexes ⟨false, outer⟩ (body ++ ')' :: tail) lexemes ⟨extended, outer⟩ := by
  obtain ⟨extended, hlexes⟩ := Regex.lexemes?_eq_some_iff.1 h
  rcases hlexes.append_or_swallow with happend | hswallow
  · refine Or.inl ⟨⟨extended, hlexes.foldlM_take⟩, fun {outer tail more last} hmore => ?_⟩
    exact happend (false :: outer) tail _ last (.closing false extended hmore)
  · exact Or.inr fun outer tail htail => ⟨extended, hswallow outer tail htail⟩

end PredictiveParsing
