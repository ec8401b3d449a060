import PredictiveParsing.Proofs.Ecma.Productions
import PredictiveParsing.Proofs.Ecma.Trivia

/-!
# Regular expressions at the front of a text

A regular expression is a row of parts between two slashes, with all the letters that follow: plain
characters, escapes, and lists of characters between brackets. Where it ends, and where its last
slash divides it, is read off its parts. A carriage return can be part of it, behind a backslash,
but a line feed cannot.

* `IsPart`: what can be a part.
* `BeginsRegex`: a text begins with a regular expression.
* `regexLiteral_exact`: the lexicon takes the regular expression at the front of a text, if there is
  one, and its last slash divides it into the parts and the letters.
* `regexLiteral_lineEnds`: the ends of lines that can be in it.
-/

namespace PredictiveParsing.Ecma

open Text

/-! ## Parts -/

/-- A backslash and any character but a line feed. -/
def IsEscape (part : Text) : Prop := ∃ c, part = ['\\', c] ∧ c ≠ '\n'

/-- What can stand in a list: a character for itself, or an escape. -/
def IsListed (part : Text) : Prop :=
  (∃ c, part = [c] ∧ c ∉ [']', '\\', '\r', '\n']) ∨ IsEscape part

/-- What can stand between the slashes: a character for itself, an escape, or a list. -/
def IsPart (part : Text) : Prop :=
  (∃ c, part = [c] ∧ c ∉ ['/', '\\', '\r', '\n', '[']) ∨ IsEscape part ∨
    ∃ listed : List Text, part = '[' :: (listed.flatten ++ [']']) ∧ ∀ p ∈ listed, IsListed p

/-- A regular expression, written with the slashes. -/
def regexText (body flags : Text) : Text := '/' :: (body ++ '/' :: flags)

/-- A text begins with a regular expression, and no letter follows the letters behind it. -/
structure BeginsRegex (text : Text) (parts : List Text) (flags rest : Text) : Prop where
  text_eq : text = regexText parts.flatten flags ++ rest
  parts_ne_nil : parts ≠ []
  isPart : ∀ part ∈ parts, IsPart part
  isAlpha : ∀ c ∈ flags, c.isAlpha = true
  clear : ∀ c ∈ rest.head?, c.isAlpha = false

/-! ## Parts as items of the code -/

theorem items_iff {item : Text → Prop} {body : Text} :
    Items item body ↔ ∃ items : List Text, body = items.flatten ∧ ∀ i ∈ items, item i := by
  constructor
  · intro h
    induction h with
    | nil => exact ⟨[], rfl, nofun⟩
    | @cons first _ hfirst _ ih =>
      obtain ⟨items, rfl, hitems⟩ := ih
      exact ⟨first :: items, rfl, List.forall_mem_cons.2 ⟨hfirst, hitems⟩⟩
  · rintro ⟨items, rfl, hitems⟩
    induction items with
    | nil => exact .nil
    | cons first items ih =>
      obtain ⟨hfirst, hitems⟩ := List.forall_mem_cons.1 hitems
      exact .cons hfirst (ih hitems)

theorem mem_listedPart {c : Char} : listedPart.mem c = true ↔ c ∉ [']', '\\', '\r', '\n'] := by
  have hvalid := CharClass.mem_any c
  simp only [CharClass.any, CharClass.mem, Text.inRanges, listedPart, List.mem_cons,
    List.not_mem_nil, ← Char.toNat_inj] at hvalid ⊢
  simp at hvalid ⊢
  omega

theorem mem_plainPart {c : Char} :
    plainPart.mem c = true ↔ c ∉ ['/', '\\', '\r', '\n', '['] := by
  have hvalid := CharClass.mem_any c
  simp only [CharClass.any, CharClass.mem, Text.inRanges, plainPart, List.mem_cons,
    List.not_mem_nil, ← Char.toNat_inj] at hvalid ⊢
  simp at hvalid ⊢
  omega

theorem mem_letter (c : Char) : letter.mem c = c.isAlpha := by
  delta Char.isAlpha Char.isUpper Char.isLower
  rw [Bool.eq_iff_iff]
  simp only [CharClass.mem, Text.inRanges, letter, List.any_cons, List.any_nil, Bool.or_false,
    Bool.or_eq_true, Bool.and_eq_true, decide_eq_true_eq, UInt32.le_iff_toNat_le, ge_iff_le]
  exact Iff.rfl

theorem listedItem_iff {part : Text} : ListedItem part ↔ IsListed part := by
  constructor
  · rintro (hc | hc)
    · exact Or.inl ⟨_, rfl, mem_listedPart.1 hc⟩
    · exact Or.inr ⟨_, rfl, mem_notNewline.1 hc⟩
  · rintro (⟨c, rfl, hc⟩ | ⟨c, rfl, hc⟩)
    · exact .plain (mem_listedPart.2 hc)
    · exact .escape (mem_notNewline.2 hc)

theorem regexItem_iff {part : Text} : RegexItem part ↔ IsPart part := by
  constructor
  · rintro (hc | hc | hbody)
    · exact Or.inl ⟨_, rfl, mem_plainPart.1 hc⟩
    · exact Or.inr (Or.inl ⟨_, rfl, mem_notNewline.1 hc⟩)
    · obtain ⟨listed, rfl, hlisted⟩ := items_iff.1 hbody
      exact Or.inr (Or.inr ⟨listed, rfl, fun p hp => listedItem_iff.1 (hlisted p hp)⟩)
  · rintro (⟨c, rfl, hc⟩ | ⟨c, rfl, hc⟩ | ⟨listed, rfl, hlisted⟩)
    · exact .plain (mem_plainPart.2 hc)
    · exact .escape (mem_notNewline.2 hc)
    · exact .listed (items_iff.2 ⟨listed, rfl, fun p hp => listedItem_iff.2 (hlisted p hp)⟩)

theorem IsPart.ne_nil {part : Text} (h : IsPart part) : part ≠ [] := by
  rcases h with ⟨c, rfl, -⟩ | ⟨c, rfl, -⟩ | ⟨listed, rfl, -⟩ <;> exact List.cons_ne_nil _ _

theorem flatten_ne_nil {parts : List Text} (hne : parts ≠ []) (h : ∀ part ∈ parts, IsPart part) :
    parts.flatten ≠ [] := by
  obtain ⟨first, hfirst⟩ := List.exists_mem_of_ne_nil parts hne
  exact fun hnil => (h first hfirst).ne_nil (List.flatten_eq_nil_iff.1 hnil first hfirst)

/-- The words of regular expressions are rows of parts between slashes, with letters behind. -/
theorem word_regex_iff {word : Text} :
    Shape.regex.Word word ↔ ∃ parts flags, word = regexText (List.flatten parts) flags ∧
      parts ≠ [] ∧ (∀ part ∈ parts, IsPart part) ∧ ∀ c ∈ flags, c.isAlpha = true := by
  constructor
  · rintro ⟨body, flags, rfl, hne, hbody, hflags⟩
    obtain ⟨parts, rfl, hparts⟩ := items_iff.1 hbody
    refine ⟨parts, flags, rfl, ?_, fun p hp => regexItem_iff.1 (hparts p hp), fun c hc => ?_⟩
    · rintro rfl
      exact hne rfl
    · rw [← mem_letter, hflags c hc]
  · rintro ⟨parts, flags, rfl, hne, hparts, hflags⟩
    refine ⟨parts.flatten, flags, rfl, flatten_ne_nil hne hparts, ?_, fun c hc => ?_⟩
    · exact items_iff.2 ⟨parts, rfl, fun p hp => regexItem_iff.2 (hparts p hp)⟩
    · rw [mem_letter, hflags c hc]

/-! ## At the front of a text -/

theorem shapeOf_regexLiteral : shapeOf regexLiteral = some .regex := rfl

/-- A word that is taken as a regular expression ends in front of no letter. -/
theorem letter_clear_of_takes {word rest : Text} (h : lexicon.Takes regexLiteral word rest) :
    letter.Clear rest := by
  cases rest with
  | nil => exact CharClass.clear_nil
  | cons c rest =>
    by_cases hdot : c = '.'
    · rw [hdot]
      exact CharClass.clear_cons.2 rfl
    · exact CharClass.clear_cons.2
        (Shape.more_of_takes ((takes_iff shapeOf_regexLiteral).1 h) hdot)

theorem lengthAt_regexLiteral_iff {text : Text} {n : Nat} :
    lexicon.lengthAt regexLiteral text = some n ↔
      ∃ parts flags rest, BeginsRegex text parts flags rest ∧
        n = byteLength (regexText parts.flatten flags) := by
  constructor
  · intro h
    have hsees : lexicon.sees text regexLiteral = true := by
      rw [Lexicon.sees, h]
      rfl
    obtain ⟨word, rest, rfl, htakes⟩ := Lexicon.exists_takes hsees
    obtain ⟨parts, flags, rfl, hne, hparts, hflags⟩ :=
      word_regex_iff.1 (word_of_takes shapeOf_regexLiteral htakes)
    refine ⟨parts, flags, rest, ⟨rfl, hne, hparts, hflags, fun c hc => ?_⟩, ?_⟩
    · rw [← mem_letter, letter_clear_of_takes htakes c hc]
    · exact Option.some.inj (h.symm.trans htakes)
  · rintro ⟨parts, flags, rest, h, rfl⟩
    have hword : Shape.regex.Word (regexText parts.flatten flags) :=
      word_regex_iff.2 ⟨parts, flags, rfl, h.parts_ne_nil, h.isPart, h.isAlpha⟩
    rw [h.text_eq]
    exact takes_of_word shapeOf_regexLiteral hword fun c hc => (mem_letter c).trans (h.clear c hc)

/-- The lexicon takes a regular expression at the front of a text exactly if the text begins with
one: parts between two slashes, and all the letters behind. The last slash of what is taken divides
it into the parts, of which there is one at least, and the letters. -/
theorem regexLiteral_exact (text : Text) :
    (∀ n, lexicon.lengthAt regexLiteral text = some n ↔
      ∃ parts flags rest, BeginsRegex text parts flags rest ∧
        n = byteLength (regexText parts.flatten flags)) ∧
    ∀ parts flags rest, BeginsRegex text parts flags rest →
      let word := regexText parts.flatten flags
      takeBytes? text (byteLength word) = some word ∧
        splitRegex word = (parts.flatten, flags) ∧ parts.flatten ≠ [] := by
  refine ⟨fun n => lengthAt_regexLiteral_iff, fun parts flags rest h => ⟨?_, ?_, ?_⟩⟩
  · rw [h.text_eq, takeBytes?_byteLength_append]
  · refine splitRegex_eq fun hslash => ?_
    exact absurd (h.isAlpha '/' hslash) (by decide)
  · exact flatten_ne_nil h.parts_ne_nil h.isPart

/-- A slash in a list and one behind a backslash end nothing. -/
theorem regexLiteral_exact_slashes :
    let text := "/[/]\\//g1".toList
    BeginsRegex text ["[/]".toList, "\\/".toList] ['g'] ['1'] ∧
      lexicon.lengthAt regexLiteral text = some 8 ∧
      splitRegex "/[/]\\//g".toList = ("[/]\\/".toList, ['g']) := by
  intro text
  have hbegins : BeginsRegex text ["[/]".toList, "\\/".toList] ['g'] ['1'] := by
    have hlisted : IsListed ['/'] := Or.inl ⟨'/', rfl, by decide⟩
    refine ⟨rfl, List.cons_ne_nil _ _, ?_, List.forall_mem_singleton.2 rfl, ?_⟩
    · refine List.forall_mem_cons.2 ⟨Or.inr (Or.inr ⟨[['/']], rfl, ?_⟩), ?_⟩
      · exact List.forall_mem_singleton.2 hlisted
      · exact List.forall_mem_singleton.2 (Or.inr (Or.inl ⟨'/', rfl, by decide⟩))
    · rintro _ ⟨⟩
      rfl
  obtain ⟨hlength, hsplit⟩ := regexLiteral_exact text
  exact ⟨hbegins, (hlength 8).2 ⟨_, _, _, hbegins, rfl⟩, (hsplit _ _ _ hbegins).2.1⟩

/-! ## Ends of lines -/

/-- A text holds no line feed, and carriage returns only behind backslashes. -/
def EscapesReturns (text : Text) : Prop :=
  '\n' ∉ text ∧ ∀ before after, text = before ++ '\r' :: after → before.getLast? = some '\\'

namespace EscapesReturns

theorem of_forall {text : Text} (h : ∀ c ∈ text, c ≠ '\n' ∧ c ≠ '\r') : EscapesReturns text := by
  refine ⟨fun hmem => (h _ hmem).1 rfl, fun before after heq => ?_⟩
  have hmem : '\r' ∈ text := heq ▸ List.mem_append_right before List.mem_cons_self
  exact absurd rfl (h _ hmem).2

theorem single {c : Char} (hfeed : c ≠ '\n') (hreturn : c ≠ '\r') : EscapesReturns [c] :=
  of_forall (List.forall_mem_singleton.2 ⟨hfeed, hreturn⟩)

theorem append {a b : Text} (ha : EscapesReturns a) (hb : EscapesReturns b) :
    EscapesReturns (a ++ b) := by
  refine ⟨?_, fun before after h => ?_⟩
  · rw [List.mem_append, not_or]
    exact ⟨ha.1, hb.1⟩
  · -- The carriage return stands in the second text, or in the first one, or between them.
    rcases List.append_eq_append_iff.1 h with ⟨c, rfl, hc⟩ | ⟨c, rfl, hc⟩
    · rw [List.getLast?_append, hb.2 c after hc]
      rfl
    · cases c with
      | nil => exact absurd (hb.2 [] after hc.symm) nofun
      | cons d c =>
        obtain ⟨rfl, -⟩ := List.cons.inj hc
        exact ha.2 before c rfl

theorem flatten {parts : List Text} (h : ∀ part ∈ parts, EscapesReturns part) :
    EscapesReturns parts.flatten := by
  induction parts with
  | nil => exact of_forall nofun
  | cons part parts ih =>
    obtain ⟨hpart, hparts⟩ := List.forall_mem_cons.1 h
    exact hpart.append (ih hparts)

end EscapesReturns

theorem IsEscape.escapesReturns {part : Text} (h : IsEscape part) : EscapesReturns part := by
  obtain ⟨c, rfl, hc⟩ := h
  refine ⟨by simpa using hc.symm, fun before after h => ?_⟩
  rcases before with _ | ⟨b, _ | ⟨d, before⟩⟩
  · exact absurd (List.cons.inj h).1 (by decide)
  · rw [← (List.cons.inj h).1]
    rfl
  · simp at h

theorem IsListed.escapesReturns {part : Text} (h : IsListed part) : EscapesReturns part := by
  rcases h with ⟨c, rfl, hc⟩ | hescape
  · refine .single ?_ ?_ <;>
    · rintro rfl
      exact hc (by decide)
  · exact hescape.escapesReturns

theorem IsPart.escapesReturns {part : Text} (h : IsPart part) : EscapesReturns part := by
  rcases h with ⟨c, rfl, hc⟩ | hescape | ⟨listed, rfl, hlisted⟩
  · refine .single ?_ ?_ <;>
    · rintro rfl
      exact hc (by decide)
  · exact hescape.escapesReturns
  · have hinside := EscapesReturns.flatten fun p hp => (hlisted p hp).escapesReturns
    have hopen : EscapesReturns ['['] := .single (by decide) (by decide)
    exact hopen.append (hinside.append (.single (by decide) (by decide)))

/-- A regular expression that is taken holds no line feed. It holds a carriage return only behind a
backslash. -/
theorem regexLiteral_lineEnds {text word : Text} {n : Nat}
    (hlength : lexicon.lengthAt regexLiteral text = some n)
    (hword : takeBytes? text n = some word) :
    '\n' ∉ word ∧
      ∀ before after, word = before ++ '\r' :: after → before.getLast? = some '\\' := by
  obtain ⟨parts, flags, rest, h, rfl⟩ := lengthAt_regexLiteral_iff.1 hlength
  rw [h.text_eq, takeBytes?_byteLength_append, Option.some.injEq] at hword
  rw [← hword]
  have hslash : EscapesReturns ['/'] := .single (by decide) (by decide)
  have hbody := EscapesReturns.flatten fun p hp => (h.isPart p hp).escapesReturns
  have hflags : EscapesReturns flags := by
    refine .of_forall fun c hc => ⟨?_, ?_⟩ <;>
    · rintro rfl
      exact absurd (h.isAlpha _ hc) (by decide)
  exact hslash.append (hbody.append (hslash.append hflags))

/-- In a list, too, a carriage return can stand behind a backslash. -/
theorem regexLiteral_lineEnds_listed :
    let text := "/a[\\\r]/g;".toList
    let word := "/a[\\\r]/g".toList
    lexicon.lengthAt regexLiteral text = some 8 ∧ takeBytes? text 8 = some word ∧
      '\n' ∉ word ∧ "/a[\\".toList.getLast? = some '\\' := by
  intro text word
  have hlength : lexicon.lengthAt regexLiteral text = some 8 := by decide +kernel
  have hword : takeBytes? text 8 = some word := by decide
  obtain ⟨hfeed, hreturn⟩ := regexLiteral_lineEnds hlength hword
  exact ⟨hlength, hword, hfeed, hreturn "/a[\\".toList "]/g".toList rfl⟩

/-- So a regular expression can go on behind the end of a line. -/
theorem regexLiteral_spans_lines :
    let text := "/\\\r/".toList
    lexicon.lengthAt regexLiteral text = some 4 ∧ takeBytes? text 4 = some text ∧
      '\r' ∈ text := by
  decide +kernel

end PredictiveParsing.Ecma
