import PredictiveParsing.Proofs.Lexicon.Bodies
import PredictiveParsing.Proofs.Regex.Sequences

/-!
# A notation that engines share

Rules with a fixed text are written out with little: characters that are escaped if need be, the
condition that the text starts, parentheses, and any number of characters of a class. `Writes` says
which expressions a pattern in this notation writes. What patterns are classes is left open; engines
differ in how classes can be written and in the characters that they hold.

An engine keeps the notation if it finds what the written expressions prefer
(`Engine.KeepsNotation`). The engine of this library does so for the classes that it reads as one
lexeme.

* `Writes`, `Engine.KeepsNotation`: the notation and what is asked of an engine.
* `Matcher.keepsNotation`: this library's engine keeps it.
-/

namespace PredictiveParsing

open Text

/-- The expressions that a pattern writes one after the other, given which patterns are classes. -/
inductive Writes (classOf : Text → Option CharClass) : Text → List Regex → Prop where
  | nil : Writes classOf [] []
  /-- A character, escaped if need be. -/
  | char (c : Char) {p : Text} {rs : List Regex} (h : Writes classOf p rs) :
      Writes classOf (escapeText [c] ++ p) (.literal [c] :: rs)
  /-- The condition that the text starts. -/
  | start {p : Text} {rs : List Regex} (h : Writes classOf p rs) :
      Writes classOf ("\\A".toList ++ p) (.look .textStart :: rs)
  /-- Any number of characters of a class, as many as there are. -/
  | run {word p : Text} {k : CharClass} {rs : List Regex} (hclass : classOf word = some k)
      (h : Writes classOf p rs) :
      Writes classOf ("(?:".toList ++ word ++ ")*".toList ++ p)
        (.repeat (.chars k) 0 none true :: rs)
  /-- A pattern in parentheses. -/
  | group {q p : Text} {ss rs : List Regex} (hq : Writes classOf q ss) (h : Writes classOf p rs) :
      Writes classOf ("(?:".toList ++ q ++ ")".toList ++ p) (.ofFactors ss :: rs)

/-- Whether an engine finds the leftmost matches, the most preferred ones there, of the expressions
that patterns write in the notation. -/
def Engine.KeepsNotation (M : Type) [Engine M] (classOf : Text → Option CharClass) : Prop :=
  ∀ p rs, Writes classOf p rs → Engine.FindsLeftmost M p (.ofFactors rs)

/-- Characters stand before other expressions as an escaped text. -/
theorem Writes.escaped {classOf : Text → Option CharClass} {p : Text} {rs : List Regex}
    (h : Writes classOf p rs) (text : Text) :
    Writes classOf (escapeText text ++ p) (text.map (fun c => .literal [c]) ++ rs) := by
  induction text with
  | nil => exact h
  | cons c text ih =>
    have htext : escapeText (c :: text) = escapeText [c] ++ escapeText text :=
      @List.flatMap_append _ _ [c] text _
    rw [htext, List.append_assoc]
    exact .char c ih

/-! ## Classes that are one lexeme -/

/-- The class of a lexeme for one character of a class. -/
def Lexeme.class? : Lexeme → Option CharClass
  | .dot => some .notNewline
  | .set items negated => (Regex.ofClass (CharClass.ofItems items false negated)).oneOf?
  | .property which negated => some (ClassItem.property which negated).charClass
  | _ => none

/-- The class of a pattern that is a dot, an escape or a class in brackets. -/
def Regex.classOf? : Text → Option CharClass
  | [] => none
  | c :: rest =>
    if c ∈ ['.', '\\', '['] then
      match Lexeme.readAt false c rest with
      | .ok (lexeme, []) => lexeme.class?
      | _ => none
    else none

theorem Regex.classOf?_eq_some {word : Text} {k : CharClass} (h : classOf? word = some k) :
    ∃ c rest lexeme, word = c :: rest ∧ c ∈ ['.', '\\', '['] ∧
      Lexeme.readAt false c rest = .ok (lexeme, []) ∧ lexeme.class? = some k := by
  unfold classOf? at h
  split at h
  · cases h
  · rename_i c rest
    split at h
    · rename_i hc
      split at h
      · rename_i lexeme hread
        exact ⟨c, rest, lexeme, rfl, hc, hread, h⟩
      · cases h
    · cases h

/-- A class is read in the same way before any text. -/
theorem Lexeme.read?_of_classOf? {word : Text} {k : CharClass}
    (h : Regex.classOf? word = some k) :
    ∃ lexeme : Lexeme, lexeme.class? = some k ∧
      ∀ more, Lexeme.read? false (word ++ more) = .ok (some (lexeme, more)) := by
  obtain ⟨c, rest, lexeme, rfl, hc, hread, hclass⟩ := Regex.classOf?_eq_some h
  have hends : Ends (readAt false c) rest := by
    simp only [List.mem_cons, List.not_mem_nil, or_false] at hc
    rcases hc with rfl | rfl | rfl
    · exact ends_ok .dot rest
    · exact ends_escape rest
    · exact ends_readClass rest
  refine ⟨lexeme, hclass, fun more => ?_⟩
  show (readAt false c (rest ++ more)).map some = _
  rw [(hends lexeme [] hread).2 more]
  rfl

/-- Where a question mark comes first, a repetition is read. -/
theorem Lexeme.head?_ne_of_read? {lexeme : Lexeme} {text rest : Text}
    (hread : read? false text = .ok (some (lexeme, rest)))
    (hlexeme : ∀ low high marked, lexeme ≠ .repeat low high marked) : text.head? ≠ some '?' := by
  intro hmark
  obtain ⟨behind, rfl⟩ := List.head?_eq_some_iff.1 hmark
  have hrepeat : ∃ marked rest, readMark 0 (some 1) behind = (.repeat 0 (some 1) marked, rest) := by
    unfold readMark
    split
    · exact ⟨true, _, rfl⟩
    · exact ⟨false, _, rfl⟩
  obtain ⟨marked, rest', hrepeat⟩ := hrepeat
  change Except.ok (some (readMark 0 (some 1) behind)) = _ at hread
  rw [hrepeat] at hread
  cases hread
  exact hlexeme 0 (some 1) marked rfl

/-! ## How the notation is read -/

namespace PatternReader

/-- A reader with further pieces in its innermost group, in their order. -/
def pushAll (s : PatternReader) (pieces : List Piece) : PatternReader :=
  { s with inner := { s.inner with pieces := pieces.reverse ++ s.inner.pieces } }

theorem pushAll_append (s : PatternReader) (ps qs : List Piece) :
    (s.pushAll ps).pushAll qs = s.pushAll (ps ++ qs) := by
  simp [pushAll]

theorem regex_of_finish {s : PatternReader} {r : Regex} (h : s.finish = .ok r) :
    s.inner.content.regex = r := by
  rw [finish] at h
  split at h
  · cases h
  · split at h
    · exact Except.ok.inj h
    · cases h

/-- The piece of a lexeme for one character of a class. -/
theorem take_of_class? {lexeme : Lexeme} {k : CharClass} (h : lexeme.class? = some k) :
    ∃ (r : Regex) (depth : Nat), r.oneOf? = some k ∧
      ∀ s : PatternReader, s.inner.flags = {} → s.take lexeme = .ok (s.push r depth) := by
  cases lexeme with
  | dot =>
    refine ⟨.chars .notNewline, 0, h, fun s hflags => ?_⟩
    rw [take, hflags]
    rfl
  | set items negated =>
    refine ⟨_, if items.length < 2 then 1 else 2, h, fun s hflags => ?_⟩
    rw [take, hflags]
  | property which negated => exact ⟨.chars _, 0, h, fun _ _ => rfl⟩
  | _ => cases h

end PatternReader

/-- What is in a group with a single branch, if it is no choice. -/
theorem OpenGroup.content_regex {pieces : List Piece}
    (h : (Regex.concat (pieces.map (·.regex))).Straight) (number : Option Nat) (flags : Flags) :
    ({ number, flags, pieces := pieces.reverse } : OpenGroup).content.regex =
      Regex.concat (pieces.map (·.regex)) := by
  show Regex.alternation [Regex.concat (pieces.reverse.reverse.map (·.regex))] = _
  rw [List.reverse_reverse, Regex.alternation_singleton h.branches]

/-- How a pattern that writes some expressions is read: its lexemes in front of any others, the
pieces that they make behind any others, and what these have to do with the expressions. Only a
question mark would change what is read before it. -/
structure Reads (p : Text) (rs : List Regex) (lexemes : List Lexeme) (pieces : List Piece) :
    Prop where
  front : ∀ tail : Text, tail.head? ≠ some '?' → (p ++ tail).head? ≠ some '?'
  lexes : ∀ {outer : List Bool} {tail : Text} {more : List Lexeme} {last : Scope},
    tail.head? ≠ some '?' → Lexes ⟨false, outer⟩ tail more last →
      Lexes ⟨false, outer⟩ (p ++ tail) (lexemes ++ more) last
  taken : ∀ s : PatternReader, s.inner.flags = {} →
    lexemes.foldlM PatternReader.take s = .ok (s.pushAll pieces)
  straight : ∀ piece ∈ pieces, piece.regex.Straight
  ends : (Regex.ofFactors (pieces.map (·.regex))).ends = (Regex.ofFactors rs).ends

namespace Reads

variable {p q : Text} {rs ss : List Regex} {lexemes more : List Lexeme} {pieces others : List Piece}

theorem nil : Reads [] [] [] [] := ⟨fun _ => id, fun _ => id, fun _ _ => rfl, by simp, rfl⟩

theorem append (h : Reads p rs lexemes pieces) (h' : Reads q ss more others) :
    Reads (p ++ q) (rs ++ ss) (lexemes ++ more) (pieces ++ others) where
  front tail htail := by
    rw [List.append_assoc]
    exact h.front _ (h'.front tail htail)
  lexes htail hlexes := by
    rw [List.append_assoc, List.append_assoc]
    exact h.lexes (h'.front _ htail) (h'.lexes htail hlexes)
  taken s hflags := by
    rw [List.foldlM_append, h.taken s hflags, ← PatternReader.pushAll_append]
    exact h'.taken (s.pushAll pieces) hflags
  straight := List.forall_mem_append.2 ⟨h.straight, h'.straight⟩
  ends := by
    funext p
    rw [List.map_append, Regex.ends_ofFactors_append, Regex.ends_ofFactors_append, h.ends, h'.ends]

theorem straight_concat (h : Reads p rs lexemes pieces) :
    (Regex.concat (pieces.map (·.regex))).Straight :=
  .concat (List.forall_mem_map.2 h.straight)

/-- A pattern with one lexeme, which makes one piece. -/
theorem single {lexeme : Lexeme} {r written : Regex} {depth : Nat}
    (hread : ∀ tail, Lexeme.read? false (p ++ tail) = .ok (some (lexeme, tail)))
    (hlexeme : ∀ low high marked, lexeme ≠ .repeat low high marked)
    (hscope : ∀ scope : Scope, scope.take lexeme = some scope)
    (htake : ∀ s : PatternReader, s.inner.flags = {} → s.take lexeme = .ok (s.push r depth))
    (hr : r.isAtom = true) (hends : r.ends = written.ends) :
    Reads p [written] [lexeme] [⟨r, depth, true⟩] where
  front tail _ := Lexeme.head?_ne_of_read? (hread tail) hlexeme
  lexes _ hlexes := .step (hread _) (hscope _) hlexes
  taken s hflags := by
    rw [List.foldlM_cons, htake s hflags]
    rfl
  straight := List.forall_mem_singleton.2 (Regex.straight_of_isAtom hr)
  ends := hends

theorem char (c : Char) :
    Reads (escapeText [c]) [.literal [c]] [.literal c] [⟨.literal [c], 0, true⟩] := by
  refine single (Lexes.read?_escaped c) (by simp) (fun _ => rfl) (fun s hflags => ?_) rfl rfl
  rw [PatternReader.take, hflags]
  rfl

theorem start :
    Reads "\\A".toList [.look .textStart] [.look .textStart] [⟨.look .textStart, 0, true⟩] :=
  single (fun _ => rfl) (by simp) (fun _ => rfl) (fun _ _ => rfl) rfl rfl

/-- A pattern for one character of a class. -/
theorem ofClass {word : Text} {k : CharClass} (h : Regex.classOf? word = some k) :
    ∃ lexeme r depth, r.oneOf? = some k ∧ Reads word [.chars k] [lexeme] [⟨r, depth, true⟩] := by
  obtain ⟨lexeme, hclass, hread⟩ := Lexeme.read?_of_classOf? h
  obtain ⟨r, depth, hone, htake⟩ := PatternReader.take_of_class? hclass
  refine ⟨lexeme, r, depth, hone, single hread ?_ ?_ htake (Regex.isAtom_of_oneOf? hone)
    (Regex.ends_of_oneOf? hone)⟩
  · rintro low high marked rfl
    cases hclass
  · intro scope
    cases lexeme with
    | dot | set items negated | property which negated => rfl
    | _ => cases hclass

/-- A pattern in parentheses is one piece. -/
theorem group (h : Reads q ss more others) :
    ∃ depth, Reads ("(?:".toList ++ q ++ ")".toList) [.ofFactors ss]
      (.openGroup [] :: (more ++ [.closeGroup]))
      [⟨Regex.concat (others.map (·.regex)), depth, true⟩] := by
  let inside : OpenGroup := { pieces := others.reverse }
  refine ⟨inside.content.depth + 1, ⟨fun tail _ => by simp,
    fun {outer tail later last} _ hlexes => ?_, fun s hflags => ?_,
    List.forall_mem_singleton.2 h.straight_concat, ?_⟩⟩
  · have hclose := h.lexes (by simp) (.closing false false hlexes)
    rw [List.append_assoc, List.append_assoc, List.cons_append, List.append_assoc]
    exact .openPlain hclose
  · have hopen : s.take (.openGroup []) =
        .ok { s with inner := { flags := {} }, outer := s.inner :: s.outer } := by
      show Except.ok (s.openPlain []) = _
      rw [PatternReader.openPlain, hflags]
      rfl
    rw [List.foldlM_cons, hopen]
    show (more ++ [Lexeme.closeGroup]).foldlM PatternReader.take _ = _
    rw [List.foldlM_append, h.taken _ rfl]
    show Except.ok ({ s with inner := s.inner.push (OpenGroup.closed _) } : PatternReader) = _
    rw [← OpenGroup.content_regex h.straight_concat none {}]
    simp only [PatternReader.pushAll, List.append_nil]
    rfl
  · rw [List.map_singleton]
    exact (Regex.ends_concat _).trans h.ends

/-- Any number of characters of a class are one piece. -/
theorem star {r written : Regex} {k : CharClass} {depth : Nat}
    (h : Reads p [written] lexemes [⟨r, depth, true⟩]) (hclass : r.oneOf? = some k) :
    Reads (p ++ "*".toList) [.repeat (.chars k) 0 none true] (lexemes ++ [.repeat 0 none false])
      [⟨.repeat r 0 none true, depth + 1, true⟩] where
  front tail _ := by
    rw [List.append_assoc]
    exact h.front _ (by simp)
  lexes {outer tail more last} htail hlexes := by
    have hread : Lexeme.read? false ("*".toList ++ tail) =
        .ok (some (.repeat 0 none false, tail)) := by
      show Except.ok (some (Lexeme.readMark 0 none tail)) = _
      unfold Lexeme.readMark
      split
      · exact absurd rfl htail
      · rfl
    rw [List.append_assoc, List.append_assoc]
    exact h.lexes (by simp) (.step hread rfl hlexes)
  taken s hflags := by
    have hgreedy : (false == s.inner.flags.swapGreed) = true := by rw [hflags]; rfl
    rw [List.foldlM_append, h.taken s hflags]
    show Except.ok ({ s with inner := { s.inner with
      pieces := ⟨r.repeated 0 none (false == s.inner.flags.swapGreed), depth + 1, true⟩ ::
        s.inner.pieces } } : PatternReader) = _
    rw [hgreedy, Regex.repeated_of_oneOf? hclass]
    rfl
  straight := List.forall_mem_singleton.2 (Regex.straight_of_isAtom (Regex.isAtom_repeat hclass))
  ends := by
    funext p
    show (Regex.repeat r 0 none true).ends p = (Regex.repeat (.chars k) 0 none true).ends p
    rw [Regex.ends, Regex.ends, Regex.ends_of_oneOf? hclass]

theorem run {word : Text} {k : CharClass} (hclass : Regex.classOf? word = some k) :
    ∃ lexemes pieces, Reads ("(?:".toList ++ word ++ ")*".toList)
      [.repeat (.chars k) 0 none true] lexemes pieces := by
  obtain ⟨lexeme, r, depth, hone, hword⟩ := ofClass hclass
  obtain ⟨depth', hgroup⟩ := hword.group
  have hconcat : Regex.concat [r] = r := by
    rcases Regex.oneOf?_cases hone with rfl | ⟨c, rfl, -⟩ <;> rfl
  rw [List.map_singleton, hconcat] at hgroup
  have hstar := hgroup.star hone
  rw [List.append_assoc] at hstar
  exact ⟨_, _, hstar⟩

end Reads

/-- Patterns in the notation are read as the expressions that they write. -/
theorem Writes.exists_reads {p : Text} {rs : List Regex} (h : Writes Regex.classOf? p rs) :
    ∃ lexemes pieces, Reads p rs lexemes pieces := by
  induction h with
  | nil => exact ⟨[], [], .nil⟩
  | char c _ ih =>
    obtain ⟨lexemes, pieces, h⟩ := ih
    exact ⟨_, _, (Reads.char c).append h⟩
  | start _ ih =>
    obtain ⟨lexemes, pieces, h⟩ := ih
    exact ⟨_, _, Reads.start.append h⟩
  | run hclass _ ih =>
    obtain ⟨lexemes, pieces, h⟩ := ih
    obtain ⟨lexemes', pieces', hrun⟩ := Reads.run hclass
    exact ⟨_, _, hrun.append h⟩
  | group _ _ ihq ih =>
    obtain ⟨lexemes, pieces, h⟩ := ih
    obtain ⟨more, others, hq⟩ := ihq
    obtain ⟨depth, hgroup⟩ := hq.group
    exact ⟨_, _, hgroup.append h⟩

namespace Matcher

/-- The engine of this library keeps the notation, for the classes that are one lexeme. -/
theorem keepsNotation : Engine.KeepsNotation Matcher Regex.classOf? := by
  intro p rs hwrites m hread text
  obtain ⟨r, hregex, rfl⟩ := read_ok hread
  obtain ⟨found, s, hfound, hfold, hfinish⟩ := Regex.read_ok hregex
  obtain ⟨extended, hlexes⟩ := Regex.lexemes?_eq_some_iff.1 hfound
  obtain ⟨lexemes, pieces, hreads⟩ := hwrites.exists_reads
  have hown := hreads.lexes (by simp) (@Lexes.done {} [] rfl)
  rw [List.append_nil, List.append_nil] at hown
  obtain ⟨rfl, -⟩ := hlexes.unique hown
  rw [hreads.taken {} rfl] at hfold
  cases hfold
  have hstraight := hreads.straight_concat
  have hr : r = Regex.concat (pieces.map (·.regex)) := by
    rw [← PatternReader.regex_of_finish hfinish, ← OpenGroup.content_regex hstraight none {}]
    simp [PatternReader.pushAll]
  have hsolid : (ofRegex r).code.isSolid = true := by
    rw [hr]
    exact hstraight.isSolid 0
  have hends : r.ends = (Regex.ofFactors rs).ends := by
    rw [hr, Regex.ends_concat, hreads.ends]
  exact (find_ofRegex hsolid text).trans (Regex.leftmost_congr hends text)

end Matcher

end PredictiveParsing
