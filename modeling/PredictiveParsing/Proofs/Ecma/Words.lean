import PredictiveParsing.Ecma.Lexicon
import PredictiveParsing.Proofs.Regex.Items
import PredictiveParsing.Proofs.Scan.Reading

/-!
# The words of the language

Each kind that counts has a shape: a keyword, a name, a number, a regular expression or a sign.
A kind takes a word of its shape where the character behind does not lengthen it.

* `Shape.word_of_takes`, `Shape.takes_of_word`: what is taken is a word of the shape, and every
  such word is taken in front of a character that does not lengthen it.
* `takes_nil`, `takes_cons`, `more_of_takes`: what stands behind a word matters by its first
  character only.
-/

namespace PredictiveParsing

open Text

namespace Ecma

open Code

/-! ## Classes of the language -/

def digit : CharClass := ⟨[(48, 57)]⟩

def letter : CharClass := ⟨[(65, 90), (97, 122)]⟩

def wordStart : CharClass := ⟨[(36, 36), (65, 90), (95, 95), (97, 122)]⟩

def wordPart : CharClass := ⟨[(36, 36), (48, 57), (65, 90), (95, 95), (97, 122)]⟩

/-- What stands for itself in a regular expression. -/
def plainPart : CharClass := ⟨[(0, 9), (11, 12), (14, 46), (48, 90), (93, 1114111)]⟩

/-- What stands for itself between the brackets of a regular expression. -/
def listedPart : CharClass := ⟨[(0, 9), (11, 12), (14, 91), (94, 1114111)]⟩

/-! ## Regular expressions -/

def escapeCode (label label' : Nat) : Code :=
  .seq (.chars label (CharClass.singleton '\\')) (.chars label' CharClass.notNewline)

def listedCode : Code := .fork 9 (.chars 10 listedPart) (escapeCode 11 12)

def regexItemCode : Code :=
  .fork 2 (.chars 3 plainPart)
    (.fork 4 (escapeCode 5 6)
      (.seq (.chars 7 (CharClass.singleton '['))
        (.seq (.loop 8 listedCode true) (.chars 13 (CharClass.singleton ']')))))

def regexCode : Code :=
  .seq (.chars 0 (CharClass.singleton '/'))
    (.seq (.seq regexItemCode (.loop 1 regexItemCode true))
      (.seq (.chars 14 (CharClass.singleton '/')) (.loop 15 (.chars 16 letter) true)))

/-- What can be listed between the brackets of a regular expression. -/
inductive ListedItem : Text → Prop where
  | plain {c : Char} : listedPart.mem c = true → ListedItem [c]
  | escape {c : Char} : CharClass.notNewline.mem c = true → ListedItem ['\\', c]

/-- What can stand between the slashes of a regular expression. -/
inductive RegexItem : Text → Prop where
  | plain {c : Char} : plainPart.mem c = true → RegexItem [c]
  | escape {c : Char} : CharClass.notNewline.mem c = true → RegexItem ['\\', c]
  | listed {body : Text} : Items ListedItem body → RegexItem ('[' :: (body ++ [']']))

theorem mem_rests_escapeCode {label label' : Nat} {text rest : Text} :
    rest ∈ (escapeCode label label').rests text ↔
      ∃ c, text = '\\' :: c :: rest ∧ CharClass.notNewline.mem c = true := by
  rw [escapeCode, mem_rests_seq rfl]
  constructor
  · rintro ⟨mid, hmid, hrest⟩
    obtain ⟨b, rfl, hb⟩ := mem_rests_chars.1 hmid
    obtain ⟨c, rfl, hc⟩ := mem_rests_chars.1 hrest
    rw [CharClass.mem_singleton.1 hb]
    exact ⟨c, rfl, hc⟩
  · rintro ⟨c, rfl, hc⟩
    exact ⟨_, mem_rests_chars.2 ⟨'\\', rfl, CharClass.mem_singleton.2 rfl⟩,
      mem_rests_chars.2 ⟨c, rfl, hc⟩⟩

theorem mem_rests_listedCode (text rest : Text) :
    rest ∈ listedCode.rests text ↔ ∃ first, text = first ++ rest ∧ ListedItem first := by
  rw [listedCode, rests_fork, List.mem_append, mem_rests_chars, mem_rests_escapeCode]
  constructor
  · rintro (⟨c, rfl, hc⟩ | ⟨c, rfl, hc⟩)
    · exact ⟨[c], rfl, .plain hc⟩
    · exact ⟨['\\', c], rfl, .escape hc⟩
  · rintro ⟨first, rfl, hfirst⟩
    cases hfirst with
    | plain hc => exact Or.inl ⟨_, rfl, hc⟩
    | escape hc => exact Or.inr ⟨_, rfl, hc⟩

theorem mem_rests_regexItemCode (text rest : Text) :
    rest ∈ regexItemCode.rests text ↔ ∃ first, text = first ++ rest ∧ RegexItem first := by
  have hlisted := @mem_rests_loop_iff_items 8 listedCode true ListedItem rfl rfl
    mem_rests_listedCode
  rw [regexItemCode, rests_fork, rests_fork, List.mem_append, List.mem_append, mem_rests_chars,
    mem_rests_escapeCode, mem_rests_seq rfl]
  constructor
  · rintro (⟨c, rfl, hc⟩ | ⟨c, rfl, hc⟩ | ⟨mid, hmid, hrest⟩)
    · exact ⟨[c], rfl, .plain hc⟩
    · exact ⟨['\\', c], rfl, .escape hc⟩
    · obtain ⟨b, rfl, hb⟩ := mem_rests_chars.1 hmid
      obtain ⟨close, hclose, hend⟩ := (mem_rests_seq rfl).1 hrest
      obtain ⟨body, rfl, hbody⟩ := hlisted.1 hclose
      obtain ⟨e, rfl, he⟩ := mem_rests_chars.1 hend
      rw [CharClass.mem_singleton.1 hb, CharClass.mem_singleton.1 he]
      exact ⟨'[' :: (body ++ [']']), by simp, .listed hbody⟩
  · rintro ⟨first, rfl, hfirst⟩
    cases hfirst with
    | plain hc => exact Or.inl ⟨_, rfl, hc⟩
    | escape hc => exact Or.inr (Or.inl ⟨_, rfl, hc⟩)
    | @listed body hbody =>
      refine Or.inr (Or.inr ⟨body ++ ']' :: rest, mem_rests_chars.2 ⟨'[', by simp, ?_⟩, ?_⟩)
      · exact CharClass.mem_singleton.2 rfl
      · exact (mem_rests_seq rfl).2 ⟨']' :: rest, hlisted.2 ⟨body, rfl, hbody⟩,
          mem_rests_chars.2 ⟨']', rfl, CharClass.mem_singleton.2 rfl⟩⟩

theorem ListedItem.eq_of_append_eq {a b x y : Text} (ha : ListedItem a) (hb : ListedItem b)
    (h : a ++ x = b ++ y) : a = b := by
  have hback : ∀ {c}, listedPart.mem c = true → c ≠ '\\' := by
    rintro _ hc rfl
    cases hc
  cases ha with
  | plain hc =>
    cases hb with
    | plain hd => rw [(List.cons.inj h).1]
    | escape hd => exact absurd (List.cons.inj h).1 (hback hc)
  | escape hc =>
    cases hb with
    | plain hd => exact absurd (List.cons.inj h).1.symm (hback hd)
    | escape hd => rw [(List.cons.inj (List.cons.inj h).2).1]

theorem ListedItem.append_ne {a x y : Text} (ha : ListedItem a) : a ++ x ≠ ']' :: y := by
  intro h
  cases ha with
  | plain hc =>
    rw [(List.cons.inj h).1] at hc
    cases hc
  | escape hc => exact absurd (List.cons.inj h).1 (by decide)

theorem RegexItem.append_ne {a x y : Text} (ha : RegexItem a) : a ++ x ≠ '/' :: y := by
  intro h
  cases ha with
  | plain hc =>
    rw [(List.cons.inj h).1] at hc
    cases hc
  | escape hc => exact absurd (List.cons.inj h).1 (by decide)
  | listed hbody => exact absurd (List.cons.inj h).1 (by decide)

theorem RegexItem.eq_of_append_eq {a b x y : Text} (ha : RegexItem a) (hb : RegexItem b)
    (h : a ++ x = b ++ y) : a = b := by
  have hback : ∀ {c}, plainPart.mem c = true → c ≠ '\\' := by
    rintro _ hc rfl
    cases hc
  have hopen : ∀ {c}, plainPart.mem c = true → c ≠ '[' := by
    rintro _ hc rfl
    cases hc
  cases ha with
  | plain hc =>
    cases hb with
    | plain hd => rw [(List.cons.inj h).1]
    | escape hd => exact absurd (List.cons.inj h).1 (hback hc)
    | listed hbody => exact absurd (List.cons.inj h).1 (hopen hc)
  | escape hc =>
    cases hb with
    | plain hd => exact absurd (List.cons.inj h).1.symm (hback hd)
    | escape hd => rw [(List.cons.inj (List.cons.inj h).2).1]
    | listed hbody => exact absurd (List.cons.inj h).1 (by decide)
  | @listed body hbody =>
    cases hb with
    | plain hd => exact absurd (List.cons.inj h).1.symm (hopen hd)
    | escape hd => exact absurd (List.cons.inj h).1 (by decide)
    | @listed body' hbody' =>
      have hinside : body ++ ']' :: x = body' ++ ']' :: y := by simpa using h
      rw [Items.unique (fun _ _ _ _ => ListedItem.eq_of_append_eq)
        (fun _ _ _ => ListedItem.append_ne) hbody hbody' hinside]

/-- A regular expression is what stands between two slashes, with the letters behind. -/
theorem head?_rests_regexCode {text rest : Text} :
    (regexCode.rests text).head? = some rest ↔
      ∃ body flags, text = '/' :: (body ++ '/' :: flags) ∧ body ≠ [] ∧ Items RegexItem body ∧
        rest = flags.dropWhile letter.mem := by
  have hitems := @mem_rests_loop_iff_items 1 regexItemCode true RegexItem rfl rfl
    mem_rests_regexItemCode
  have hsound : ∀ rest, (regexCode.rests text).head? = some rest →
      ∃ body flags, text = '/' :: (body ++ '/' :: flags) ∧ body ≠ [] ∧ Items RegexItem body ∧
        rest = flags.dropWhile letter.mem := by
    intro rest h
    rw [regexCode, head?_rests_seq _ rfl] at h
    obtain ⟨inside, hinside, hafter⟩ := List.exists_of_findSome?_eq_some h
    rw [head?_rests_seq _ rfl] at hafter
    obtain ⟨close, hclose, hlast⟩ := List.exists_of_findSome?_eq_some hafter
    rw [head?_rests_seq _ rfl] at hlast
    obtain ⟨flags, hflags, hrest⟩ := List.exists_of_findSome?_eq_some hlast
    obtain ⟨b, rfl, hb⟩ := mem_rests_chars.1 hinside
    obtain ⟨mid, hmid, hmore⟩ := (mem_rests_seq rfl).1 hclose
    obtain ⟨first, rfl, hfirst⟩ := (mem_rests_regexItemCode _ _).1 hmid
    obtain ⟨body, rfl, hbody⟩ := hitems.1 hmore
    obtain ⟨e, rfl, he⟩ := mem_rests_chars.1 hflags
    rw [CharClass.mem_singleton.1 hb, CharClass.mem_singleton.1 he]
    refine ⟨first ++ body, flags, by rw [List.append_assoc], ?_, .cons hfirst hbody, ?_⟩
    · intro hnil
      cases hfirst <;> simp at hnil
    · rw [head?_rests_loop_chars, Option.some.injEq] at hrest
      exact hrest.symm
  refine ⟨hsound rest, ?_⟩
  rintro ⟨body, flags, rfl, hne, hbody, rfl⟩
  have hmem : ∃ rest, rest ∈ regexCode.rests ('/' :: (body ++ '/' :: flags)) := by
    cases hbody with
    | nil => exact absurd rfl hne
    | @cons first more hfirst hmore =>
      refine ⟨flags, (mem_rests_seq rfl).2 ⟨_, mem_rests_chars.2 ⟨'/', rfl, rfl⟩,
        (mem_rests_seq rfl).2 ⟨'/' :: flags, ?_, ?_⟩⟩⟩
      · refine (mem_rests_seq rfl).2 ⟨more ++ '/' :: flags, ?_, hitems.2 ⟨more, rfl, hmore⟩⟩
        exact (mem_rests_regexItemCode _ _).2 ⟨first, by rw [List.append_assoc], hfirst⟩
      · refine (mem_rests_seq rfl).2 ⟨flags, mem_rests_chars.2 ⟨'/', rfl, rfl⟩, ?_⟩
        exact (mem_rests_loop rfl rfl).2 (Or.inl rfl)
  obtain ⟨rest, hrest⟩ := hmem
  cases hl : (regexCode.rests ('/' :: (body ++ '/' :: flags))).head? with
  | none =>
    rw [List.head?_eq_none_iff] at hl
    rw [hl] at hrest
    cases hrest
  | some rest' =>
    obtain ⟨body', flags', htext, -, hbody', rfl⟩ := hsound rest' hl
    rw [List.cons_inj_right] at htext
    have hsame : body = body' := Items.unique (fun _ _ _ _ => RegexItem.eq_of_append_eq)
      (fun _ _ _ => RegexItem.append_ne) hbody hbody' htext
    rw [hsame] at htext
    have hflags := List.append_cancel_left htext
    simp only [List.cons.injEq, true_and] at hflags
    rw [hflags]

/-! ## Numbers and keywords -/

def fractionCode : Code :=
  .fork 2 (.seq (.chars 3 (CharClass.singleton '.')) (Code.run 5 4 5 digit digit)) .empty

def numberCode : Code := .seq (Code.run 1 0 1 digit digit) fractionCode

def keywordCode (word : Text) : Code :=
  .seq ((Code.ofText word).run 0).1 (.loop word.length (.chars (word.length + 1) wordPart) true)

/-- What is left behind a fraction, if one comes first. -/
def skipFraction (text : Text) : Text :=
  match text with
  | '.' :: e :: rest => if digit.mem e then rest.dropWhile digit.mem else text
  | _ => text

theorem skipFraction_of_clear {text : Text} (h : (CharClass.singleton '.').Clear text) :
    skipFraction text = text := by
  unfold skipFraction
  split
  · rw [CharClass.clear_cons] at h
    cases h
  · rfl

theorem clear_skipFraction {text : Text} (h : digit.Clear text) :
    digit.Clear (skipFraction text) := by
  unfold skipFraction
  split
  · split
    · exact CharClass.clear_dropWhile digit _
    · exact h
  · exact h

theorem head?_rests_fractionCode (text : Text) :
    (fractionCode.rests text).head? = some (skipFraction text) := by
  rw [fractionCode, rests_fork, List.head?_append, rests_empty,
    head?_rests_seq _ (by rfl)]
  unfold skipFraction
  split
  · rename_i e rest
    rw [rests_chars_cons, if_pos (by rfl), List.findSome?_singleton, head?_rests_run]
    split <;> rfl
  · rename_i hnone
    cases text with
    | nil => rfl
    | cons c rest =>
      rw [rests_chars_cons]
      by_cases hc : c = '.'
      · cases rest with
        | nil => rw [if_pos (CharClass.mem_singleton.2 hc)]; rfl
        | cons e rest => exact absurd (by rw [hc]) (hnone e rest)
      · rw [if_neg fun h => hc (CharClass.mem_singleton.1 h)]
        rfl

theorem head?_rests_numberCode (text : Text) :
    (numberCode.rests text).head? =
      ((Code.run 1 0 1 digit digit).rests text).head?.map skipFraction := by
  have hne : ∀ rest, fractionCode.rests rest ≠ [] := by
    intro rest hnil
    have h := head?_rests_fractionCode rest
    rw [hnil] at h
    cases h
  rw [numberCode, head?_rests_seq_of_ne_nil _ (by rfl) fun rest _ => hne rest]
  simp only [head?_rests_fractionCode]
  cases ((Code.run 1 0 1 digit digit).rests text).head? <;> rfl

theorem head?_rests_keywordCode (word text : Text) :
    ((keywordCode word).rests text).head? =
      if word <+: text then some ((text.drop word.length).dropWhile wordPart.mem) else none := by
  rw [keywordCode, head?_rests_seq_of_ne_nil _ rfl fun _ _ => rests_loop_ne_nil rfl rfl _,
    rests_ofText]
  split
  · rw [List.head?_cons, Option.bind_some, head?_rests_loop_chars]
  · rfl

/-! ## Shapes -/

/-- What the words of a kind look like. -/
inductive Shape where
  | keyword (word : Text)
  | name
  | number
  | regex
  | sign (c : Char)

namespace Shape

def code : Shape → Code
  | .keyword word => keywordCode word
  | .name => Code.run 0 1 2 wordStart wordPart
  | .number => numberCode
  | .regex => regexCode
  | .sign c => .chars 0 (CharClass.singleton c)

/-- The length that a match has to have, if there is one. -/
def length? : Shape → Option Nat
  | .keyword word => some (byteLength word)
  | _ => none

/-- The characters with which a word begins. -/
def first : Shape → CharClass
  | .keyword word => word.head?.elim CharClass.none CharClass.singleton
  | .name => wordStart
  | .number => digit
  | .regex => CharClass.singleton '/'
  | .sign c => CharClass.singleton c

/-- The characters that can lengthen a word. -/
def more : Shape → CharClass
  | .keyword _ => wordPart
  | .name => wordPart
  | .number => ⟨[(46, 46), (48, 57)]⟩
  | .regex => letter
  | .sign _ => CharClass.none

/-- A text is a word of the shape. -/
def Word : Shape → Text → Prop
  | .keyword word, text => text = word ∧ text ≠ []
  | .name, text =>
    ∃ c run, text = c :: run ∧ wordStart.mem c = true ∧ ∀ d ∈ run, wordPart.mem d = true
  | .number, text =>
    ∃ c run, digit.mem c = true ∧ (∀ d ∈ run, digit.mem d = true) ∧
      (text = c :: run ∨ ∃ e run', digit.mem e = true ∧ (∀ d ∈ run', digit.mem d = true) ∧
        text = c :: (run ++ '.' :: e :: run'))
  | .regex, text =>
    ∃ body flags, text = '/' :: (body ++ '/' :: flags) ∧ body ≠ [] ∧ Items RegexItem body ∧
      ∀ c ∈ flags, letter.mem c = true
  | .sign c, text => text = [c]

/-- What a kind of the shape takes at the front of a text. -/
def Takes (shape : Shape) (word rest : Text) : Prop :=
  word ≠ [] ∧ shape.length?.all (· = byteLength word) = true ∧
    (shape.code.rests (word ++ rest)).head? = some rest

theorem word_of_takes {shape : Shape} {word rest : Text} (h : shape.Takes word rest) :
    shape.Word word := by
  obtain ⟨hne, hlength, hhead⟩ := h
  cases shape with
  | keyword text =>
    rw [code, head?_rests_keywordCode] at hhead
    split at hhead
    · rename_i hprefix
      obtain ⟨more, hmore⟩ := hprefix
      rw [← hmore, List.drop_left, Option.some.injEq] at hhead
      have hlen : byteLength word = byteLength text := by
        have h : byteLength text = byteLength word := by simpa [length?] using hlength
        exact h.symm
      have hrest : rest = more := by
        refine (Text.eq_of_append_eq hmore ?_).symm
        have h := congrArg byteLength hmore
        rw [byteLength_append, byteLength_append] at h
        omega
      rw [hrest] at hmore
      exact ⟨(List.append_cancel_right hmore).symm, hne⟩
    · cases hhead
  | name =>
    obtain ⟨c, word, rfl⟩ := List.exists_cons_of_ne_nil hne
    rw [code, List.cons_append, head?_rests_run] at hhead
    split at hhead
    · rename_i hc
      obtain ⟨run, hrun, hall⟩ := CharClass.exists_run wordPart (word ++ rest)
      rw [Option.some.inj hhead] at hrun
      rw [List.append_cancel_right hrun]
      exact ⟨c, run, rfl, hc, hall⟩
    · cases hhead
  | number =>
    obtain ⟨c, word, rfl⟩ := List.exists_cons_of_ne_nil hne
    rw [code, List.cons_append, head?_rests_numberCode, head?_rests_run] at hhead
    split at hhead
    · rename_i hc
      obtain ⟨run, hrun, hall⟩ := CharClass.exists_run digit (word ++ rest)
      rw [Option.map_some, Option.some.injEq] at hhead
      unfold skipFraction at hhead
      split at hhead
      · rename_i e rest' hdot
        split at hhead
        · rename_i he
          obtain ⟨run', hrun', hall'⟩ := CharClass.exists_run digit rest'
          rw [hhead] at hrun'
          rw [hdot, hrun'] at hrun
          refine ⟨c, run, hc, hall, Or.inr ⟨e, run', he, hall', ?_⟩⟩
          have hword : word ++ rest = (run ++ '.' :: e :: run') ++ rest := by rw [hrun]; simp
          rw [List.append_cancel_right hword]
        · rw [hhead] at hrun
          exact ⟨c, run, hc, hall, Or.inl (by rw [List.append_cancel_right hrun])⟩
      · rw [hhead] at hrun
        exact ⟨c, run, hc, hall, Or.inl (by rw [List.append_cancel_right hrun])⟩
    · cases hhead
  | regex =>
    obtain ⟨body, flags, htext, hbody, hitems, hrest⟩ := head?_rests_regexCode.1 hhead
    obtain ⟨run, hrun, hall⟩ := CharClass.exists_run letter flags
    rw [← hrest] at hrun
    rw [hrun] at htext
    have hword : word ++ rest = '/' :: (body ++ '/' :: run) ++ rest := by rw [htext]; simp
    exact ⟨body, run, List.append_cancel_right hword, hbody, hitems, hall⟩
  | sign c =>
    obtain ⟨d, word, rfl⟩ := List.exists_cons_of_ne_nil hne
    rw [code, List.cons_append, rests_chars_cons] at hhead
    split at hhead
    · rename_i hd
      have hnil : word ++ rest = [] ++ rest := by simpa using hhead
      rw [CharClass.mem_singleton.1 hd, List.append_cancel_right hnil]
      rfl
    · cases hhead

/-- Behind a word stands nothing that could lengthen it, except that a dot can stand there. -/
theorem more_of_takes {shape : Shape} {word rest : Text} {c : Char}
    (h : shape.Takes word (c :: rest)) (hdot : c ≠ '.') : shape.more.mem c = false := by
  obtain ⟨hne, -, hhead⟩ := h
  cases shape with
  | keyword text =>
    rw [code, head?_rests_keywordCode] at hhead
    split at hhead
    · exact CharClass.clear_cons.1 (Option.some.inj hhead ▸ CharClass.clear_dropWhile wordPart _)
    · cases hhead
  | name =>
    obtain ⟨d, word, rfl⟩ := List.exists_cons_of_ne_nil hne
    rw [code, List.cons_append, head?_rests_run] at hhead
    split at hhead
    · exact CharClass.clear_cons.1 (Option.some.inj hhead ▸ CharClass.clear_dropWhile wordPart _)
    · cases hhead
  | number =>
    obtain ⟨d, word, rfl⟩ := List.exists_cons_of_ne_nil hne
    rw [code, List.cons_append, head?_rests_numberCode, head?_rests_run] at hhead
    split at hhead
    · rw [Option.map_some, Option.some.injEq] at hhead
      have hclear := clear_skipFraction (CharClass.clear_dropWhile digit (word ++ c :: rest))
      rw [hhead, CharClass.clear_cons] at hclear
      have hcode : c.toNat ≠ 46 := fun h => hdot (Char.toNat_inj.1 h)
      simp [more, CharClass.mem, Text.inRanges, digit] at hclear ⊢
      omega
    · cases hhead
  | regex =>
    obtain ⟨body, flags, -, -, -, hrest⟩ := head?_rests_regexCode.1 hhead
    have hclear := CharClass.clear_dropWhile letter flags
    rw [← hrest] at hclear
    exact CharClass.clear_cons.1 hclear
  | sign d => rfl

theorem takes_of_word {shape : Shape} {word rest : Text} (h : shape.Word word)
    (hrest : shape.more.Clear rest) : shape.Takes word rest := by
  cases shape with
  | keyword text =>
    obtain ⟨rfl, hne⟩ := h
    refine ⟨hne, by simp [length?], ?_⟩
    rw [code, head?_rests_keywordCode, if_pos (List.prefix_append _ _), List.drop_left]
    exact congrArg some (CharClass.dropWhile_eq_self hrest)
  | name =>
    obtain ⟨c, run, rfl, hc, hall⟩ := h
    refine ⟨List.cons_ne_nil c run, rfl, ?_⟩
    rw [code, List.cons_append, head?_rests_run, if_pos hc, CharClass.dropWhile_of_clear hall hrest]
  | number =>
    have hdigit : digit.Clear rest := by
      intro c hc
      have h := hrest c hc
      simp [more, CharClass.mem, Text.inRanges, digit] at h ⊢
      omega
    have hdot : (CharClass.singleton '.').Clear rest := by
      intro c hc
      have h := hrest c hc
      simp [more, CharClass.mem, Text.inRanges, CharClass.singleton] at h ⊢
      omega
    obtain ⟨c, run, hc, hall, rfl | ⟨e, run', he, hall', rfl⟩⟩ := h
    · refine ⟨List.cons_ne_nil c run, rfl, ?_⟩
      rw [code, List.cons_append, head?_rests_numberCode, head?_rests_run, if_pos hc,
        CharClass.dropWhile_of_clear hall hdigit, Option.map_some, skipFraction_of_clear hdot]
    · refine ⟨List.cons_ne_nil c _, rfl, ?_⟩
      have hstop : digit.Clear ('.' :: e :: (run' ++ rest)) := CharClass.clear_cons.2 rfl
      have htext : run ++ '.' :: e :: run' ++ rest = run ++ '.' :: e :: (run' ++ rest) := by simp
      rw [code, List.cons_append, head?_rests_numberCode, head?_rests_run, if_pos hc, htext,
        CharClass.dropWhile_of_clear hall hstop, Option.map_some, skipFraction, if_pos he,
        CharClass.dropWhile_of_clear hall' hdigit]
  | regex =>
    obtain ⟨body, flags, rfl, hbody, hitems, hall⟩ := h
    refine ⟨List.cons_ne_nil _ _, rfl, head?_rests_regexCode.2 ?_⟩
    exact ⟨body, flags ++ rest, by simp, hbody, hitems,
      (CharClass.dropWhile_of_clear hall hrest).symm⟩
  | sign c =>
    have hword : word = [c] := h
    subst hword
    refine ⟨List.cons_ne_nil c [], rfl, ?_⟩
    rw [code, List.cons_append, rests_chars_cons, if_pos (CharClass.mem_singleton.2 rfl)]
    rfl

theorem exists_first_of_word {shape : Shape} {word : Text} (h : shape.Word word) :
    ∃ c rest, word = c :: rest ∧ shape.first.mem c = true := by
  cases shape with
  | keyword text =>
    obtain ⟨rfl, hne⟩ := h
    obtain ⟨c, rest, rfl⟩ := List.exists_cons_of_ne_nil hne
    exact ⟨c, rest, rfl, CharClass.mem_singleton.2 rfl⟩
  | name =>
    obtain ⟨c, run, rfl, hc, -⟩ := h
    exact ⟨c, run, rfl, hc⟩
  | number =>
    obtain ⟨c, run, hc, -, rfl | ⟨e, run', -, -, rfl⟩⟩ := h
    · exact ⟨c, run, rfl, hc⟩
    · exact ⟨c, _, rfl, hc⟩
  | regex =>
    obtain ⟨body, flags, rfl, -⟩ := h
    exact ⟨'/', _, rfl, rfl⟩
  | sign c => exact ⟨c, [], h, CharClass.mem_singleton.2 rfl⟩

end Shape

/-! ## The kinds that count -/

def shapes : List Shape :=
  [.keyword "return".toList, .keyword "var".toList, .name, .number, .regex] ++
    "/*+-=;()".toList.map .sign

/-- The shape of the words of a kind, if the kind counts. -/
def shapeOf (id : KindId) : Option Shape :=
  if 3 ≤ id.index then shapes[id.index - 3]? else none

/-- What is tied to the start of a text. -/
def anchored (r : Code) : Matcher := ⟨.seq (.look .textStart) r, true⟩

theorem map_matcher_kinds :
    (lexicon.kinds.drop 3).map (fun kind => (kind.matcher, kind.rule.exactLength)) =
      shapes.map fun shape => (anchored shape.code, shape.length?) := by
  decide +kernel

theorem exists_kind_of_shape {id : KindId} {shape : Shape} (h : shapeOf id = some shape) :
    ∃ kind, lexicon.get? id = some kind ∧ kind.matcher = anchored shape.code ∧
      kind.rule.exactLength = shape.length? ∧ shape ∈ shapes := by
  rw [shapeOf] at h
  split at h
  · rename_i hle
    have hindex : lexicon.kinds[id.index]? = (lexicon.kinds.drop 3)[id.index - 3]? := by
      rw [List.getElem?_drop]
      congr 1
      omega
    have hpair := congrArg (fun pairs => pairs[id.index - 3]?) map_matcher_kinds
    simp only [List.getElem?_map, h, ← hindex, Option.map_some] at hpair
    obtain ⟨kind, hkind, hboth⟩ := Option.map_eq_some_iff.1 hpair
    simp only [Prod.mk.injEq] at hboth
    exact ⟨kind, hkind, hboth.1, hboth.2, List.mem_of_getElem? h⟩
  · cases h

theorem isSolid_of_mem_shapes {shape : Shape} (h : shape ∈ shapes) :
    shape.code.isSolid = true := by
  have hall : shapes.all (·.code.isSolid) = true := by decide
  exact List.all_eq_true.1 hall shape h

/-- A kind that counts takes what its shape takes. -/
theorem takes_iff {id : KindId} {shape : Shape} (h : shapeOf id = some shape) {word rest : Text} :
    lexicon.Takes id word rest ↔ shape.Takes word rest := by
  obtain ⟨kind, hkind, hmatcher, hlength, hmem⟩ := exists_kind_of_shape h
  have hfind := Matcher.find_anchored (isSolid_of_mem_shapes hmem) (word ++ rest)
  rw [Lexicon.Takes, Lexicon.lengthAt, hkind, Option.bind_some, Kind.matchLength, hmatcher,
    anchored, Matcher.engine_find, hfind, hlength, Shape.Takes]
  have hzero : 0 < byteLength word ↔ word ≠ [] := by
    rw [Nat.pos_iff_ne_zero, ne_eq, byteLength_eq_zero_iff]
  cases hhead : (shape.code.rests (word ++ rest)).head? with
  | none => simp
  | some after =>
    obtain ⟨taken, htaken⟩ := exists_append_of_mem_rests (List.mem_of_mem_head? hhead)
    have hstop : byteLength (word ++ rest) - byteLength after = byteLength taken := by
      rw [htaken, byteLength_append]
      omega
    simp only [Option.map_some, Option.bind_some, hstop]
    constructor
    · intro htakes
      split at htakes
      · rename_i hcond
        have heq : byteLength taken = byteLength word := Option.some.inj htakes
        have hafter : after = rest := by
          refine (Text.eq_of_append_eq htaken ?_).symm
          have hlen := congrArg byteLength htaken
          rw [byteLength_append, byteLength_append] at hlen
          omega
        rw [heq] at hcond
        exact ⟨hzero.1 hcond.1, hcond.2, by rw [hafter]⟩
      · cases htakes
    · rintro ⟨hne, hall, heq⟩
      rw [Option.some.inj heq] at htaken
      rw [← List.append_cancel_right htaken, if_pos ⟨hzero.2 hne, hall⟩]

/-! ## What stands behind a word -/

section

variable {id id' : KindId} {shape shape' : Shape} {word rest : Text}

theorem word_of_takes (h : shapeOf id = some shape) (ht : lexicon.Takes id word rest) :
    shape.Word word :=
  Shape.word_of_takes ((takes_iff h).1 ht)

theorem takes_of_word (h : shapeOf id = some shape) (hword : shape.Word word)
    (hrest : shape.more.Clear rest) : lexicon.Takes id word rest :=
  (takes_iff h).2 (Shape.takes_of_word hword hrest)

/-- A word that is taken in front of a text is complete. -/
theorem takes_nil (h : shapeOf id = some shape) (ht : lexicon.Takes id word rest) :
    lexicon.Takes id word [] :=
  takes_of_word h (word_of_takes h ht) CharClass.clear_nil

/-- What stands behind a word matters by its first character only. -/
theorem takes_cons {c : Char} {rest' : Text} (h : shapeOf id = some shape)
    (ht : lexicon.Takes id word (c :: rest)) (hdot : c ≠ '.') :
    lexicon.Takes id word (c :: rest') :=
  takes_of_word h (word_of_takes h ht)
    (CharClass.clear_cons.2 (Shape.more_of_takes ((takes_iff h).1 ht) hdot))

/-! ## What stands at the front of a text -/

theorem append_ne_of_disjoint (hdisjoint : shape.first.disjoint shape'.first = true)
    {a b x y : Text} (ha : shape.Word a) (hb : shape'.Word b) : a ++ x ≠ b ++ y := by
  obtain ⟨c, more, rfl, hc⟩ := Shape.exists_first_of_word ha
  obtain ⟨d, more', rfl, hd⟩ := Shape.exists_first_of_word hb
  intro htext
  rw [List.cons_append, List.cons_append, List.cons.injEq] at htext
  rw [← htext.1, CharClass.mem_eq_false_of_disjoint hdisjoint hc] at hd
  cases hd

/-- Kinds whose words begin with different characters do not match at one place. -/
theorem sees_eq_false (h : shapeOf id = some shape) (h' : shapeOf id' = some shape')
    (hdisjoint : shape.first.disjoint shape'.first = true) (ht : lexicon.Takes id word rest) :
    lexicon.sees (word ++ rest) id' = false := by
  cases hsees : lexicon.sees (word ++ rest) id' with
  | false => rfl
  | true =>
    obtain ⟨word', rest', htext, ht'⟩ := Lexicon.exists_takes hsees
    exact absurd htext
      (append_ne_of_disjoint hdisjoint (word_of_takes h ht) (word_of_takes h' ht'))

theorem clear_wordPart (h : shapeOf id = some shape) (hmore : shape.more = wordPart)
    (ht : lexicon.Takes id word rest) : wordPart.Clear rest := by
  cases rest with
  | nil => exact CharClass.clear_nil
  | cons c rest =>
    by_cases hc : c = '.'
    · rw [hc]
      exact CharClass.clear_cons.2 rfl
    · rw [← hmore]
      exact CharClass.clear_cons.2 (Shape.more_of_takes ((takes_iff h).1 ht) hc)

theorem wordPart_of_wordStart {c : Char} (h : wordStart.mem c = true) : wordPart.mem c = true := by
  simp [CharClass.mem, Text.inRanges, wordStart, wordPart] at h ⊢
  omega

/-- A keyword matches where a name stands only if it is the name. -/
theorem eq_of_sees_keyword {keyword : Text} (h : shapeOf id = some (.keyword keyword))
    (hkeyword : ∀ c ∈ keyword, wordPart.mem c = true) (ht : lexicon.Takes identifier word rest)
    (hsees : lexicon.sees (word ++ rest) id = true) : word = keyword := by
  obtain ⟨word', rest', htext, ht'⟩ := Lexicon.exists_takes hsees
  obtain ⟨rfl, -⟩ := word_of_takes h ht'
  have hname : shapeOf identifier = some .name := rfl
  obtain ⟨c, run, rfl, hc, hrun⟩ := word_of_takes hname ht
  have hall : ∀ d ∈ c :: run, wordPart.mem d = true := by
    intro d hd
    rcases List.mem_cons.1 hd with rfl | hd
    · exact wordPart_of_wordStart hc
    · exact hrun d hd
  have hrest : rest = rest' := by
    rw [← CharClass.dropWhile_of_clear hall (clear_wordPart hname rfl ht), htext,
      CharClass.dropWhile_of_clear hkeyword (clear_wordPart h rfl ht')]
  rw [hrest] at htext
  exact List.append_cancel_right htext

end

end Ecma

end PredictiveParsing
