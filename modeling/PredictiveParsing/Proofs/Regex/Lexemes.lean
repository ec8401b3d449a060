import PredictiveParsing.Proofs.Regex.Brackets

/-!
# Lexemes in front of a closing parenthesis

A lexeme is read in the same way when a closing parenthesis is put behind the pattern. The one
exception is at the end of the pattern: an unfinished comment swallows the parenthesis and the
line behind it.

* `length_lt_of_read?`: a lexeme takes at least one character.
* `read?_append`, `read?_append_of_none`: what a closing parenthesis behind the pattern does.
-/

namespace PredictiveParsing.Lexeme

open Text

variable {α : Type} {extended : Bool} {text rest : Text}

/-! ## Repetitions -/

theorem readDigits_suffix (extended marked : Bool) (text : Text) :
    (readDigits extended marked text).2 <:+ text := by
  induction text generalizing marked with
  | nil => cases marked <;> exact List.suffix_rfl
  | cons c text ih =>
    cases marked with
    | true => exact (ih _).trans (List.suffix_cons c text)
    | false =>
      rw [readDigits]
      split
      · exact (ih _).trans (List.suffix_cons c text)
      · split
        · exact (ih _).trans (List.suffix_cons c text)
        · split
          · exact (ih _).trans (List.suffix_cons c text)
          · exact List.suffix_rfl

theorem readDigits_append {marked : Bool} (h : (readDigits extended marked text).2 ≠ [])
    (more : Text) :
    readDigits extended marked (text ++ more) =
      ((readDigits extended marked text).1, (readDigits extended marked text).2 ++ more) := by
  induction text generalizing marked with
  | nil => cases marked <;> exact absurd rfl h
  | cons c text ih =>
    cases marked with
    | true => exact ih h
    | false =>
      rw [readDigits] at h
      simp only [List.cons_append, readDigits]
      split
      · rename_i hdigit
        rw [if_pos hdigit] at h
        simp only [ih h]
      · rename_i hdigit
        rw [if_neg hdigit] at h
        split
        · rename_i hblank
          rw [if_pos hblank] at h
          exact ih h
        · rename_i hblank
          rw [if_neg hblank] at h
          split
          · rename_i hcomment
            rw [if_pos hcomment] at h
            exact ih h
          · rfl

theorem dropWhile_append_of_ne_nil {p : Char → Bool} (h : text.dropWhile p ≠ []) (more : Text) :
    (text ++ more).dropWhile p = text.dropWhile p ++ more := by
  rw [List.dropWhile_append, if_neg (by simpa using h)]

/-- A count consists of the digits behind some blanks. -/
theorem readCount_ok {n : Nat} (h : readCount extended text = .ok (n, rest)) :
    ∃ digits behind, readDigits extended false (text.dropWhile isBlank) = (digits, behind) ∧
      ¬ (digits.isEmpty ∨ 0x100000000 ≤ decimalValue digits) ∧ n = decimalValue digits ∧
      rest = behind.dropWhile isBlank := by
  unfold readCount at h
  simp only at h
  generalize readDigits extended false (text.dropWhile isBlank) = found at h
  split at h
  · cases h
  · rename_i hdigits
    cases h
    exact ⟨found.1, found.2, rfl, hdigits, rfl, rfl⟩

theorem readCount_suffix {n : Nat} (h : readCount extended text = .ok (n, rest)) :
    rest <:+ text := by
  obtain ⟨digits, behind, hfound, -, -, rfl⟩ := readCount_ok h
  have hdigits := readDigits_suffix extended false (text.dropWhile isBlank)
  rw [hfound] at hdigits
  exact ((List.dropWhile_suffix _).trans hdigits).trans (List.dropWhile_suffix _)

theorem readCount_append {n : Nat} (h : readCount extended text = .ok (n, rest))
    (hrest : rest ≠ []) (more : Text) :
    readCount extended (text ++ more) = .ok (n, rest ++ more) := by
  obtain ⟨digits, behind, hfound, hdigits, rfl, rfl⟩ := readCount_ok h
  have hbehind : behind ≠ [] := by
    rintro rfl
    exact hrest rfl
  have hne : (readDigits extended false (text.dropWhile isBlank)).2 ≠ [] := by
    rwa [hfound]
  have htext : text.dropWhile isBlank ≠ [] := by
    intro hnil
    rw [hnil] at hne
    exact hne rfl
  have hmore := readDigits_append hne more
  rw [hfound] at hmore
  unfold readCount
  simp only [dropWhile_append_of_ne_nil htext, hmore, if_neg hdigits,
    dropWhile_append_of_ne_nil hrest]

/-! ## Lexemes that may be followed by a closing parenthesis -/

/-- A reader does the same when a closing parenthesis is put behind the text; or it goes to the
end of the text, where an unfinished comment swallows the parenthesis and the line behind it. -/
def Follows (read : Text → Except PatternError (α × Text)) (text : Text) : Prop :=
  ∀ a rest, read text = .ok (a, rest) →
    rest <:+ text ∧
      ((∀ tail, read (text ++ ')' :: tail) = .ok (a, rest ++ ')' :: tail)) ∨
        rest = [] ∧ ∀ tail, '\n' ∉ tail → read (text ++ ')' :: tail) = .ok (a, []))

theorem Ends.follows {read : Text → Except PatternError (α × Text)} (h : Ends read text) :
    Follows read text := fun a rest hread =>
  ⟨(h a rest hread).1, Or.inl fun _ => (h a rest hread).2 _⟩

theorem readMark_cons {low : Nat} {high : Option Nat} (more : Text) :
    readMark low high (text ++ ')' :: more) =
      ((readMark low high text).1, (readMark low high text).2 ++ ')' :: more) := by
  cases text with
  | nil => rfl
  | cons c text =>
    by_cases hc : c = '?'
    · subst hc
      rfl
    · simp [readMark, hc]

theorem readMark_suffix (low : Nat) (high : Option Nat) (text : Text) :
    (readMark low high text).2 <:+ text := by
  unfold readMark
  split
  · exact List.suffix_cons _ _
  · exact List.suffix_rfl

theorem follows_readBrace {low : Nat} {high : Option Nat} (text : Text) :
    Follows (readBrace extended low high) text := by
  intro lexeme rest h
  cases text with
  | nil => cases h
  | cons c text =>
    by_cases hc : c = '\x7d'
    · subst hc
      rw [readBrace] at h
      split at h
      · cases h
      · rename_i hbounds
        have hmark : readMark low high (significant extended text) = (lexeme, rest) :=
          Except.ok.inj h
        have hsuffix := readMark_suffix low high (significant extended text)
        rw [hmark] at hsuffix
        refine ⟨(hsuffix.trans (significant_suffix _ _)).trans (List.suffix_cons _ _), ?_⟩
        have hread (tail : Text) : readBrace extended low high ('\x7d' :: text ++ ')' :: tail) =
            .ok (readMark low high (significant extended (text ++ ')' :: tail))) := by
          rw [List.cons_append, readBrace, if_neg hbounds]
        by_cases hfront : significant extended text = []
        · rw [hfront] at hmark
          cases hmark
          rcases significant_append_of_nil hfront with hseen | hswallowed
          · exact Or.inl fun tail => by rw [hread, hseen]; rfl
          · exact Or.inr ⟨rfl, fun tail htail => by rw [hread, hswallowed tail htail]; rfl⟩
        · exact Or.inl fun tail => by
            rw [hread, significant_append hfront, readMark_cons, hmark]
    · exfalso
      unfold readBrace at h
      split at h
      · rename_i heq
        cases heq
        exact hc rfl
      · cases h

/-- The end of a repetition in braces, from behind its comma. -/
def readBounded (extended : Bool) (low : Nat) (text : Text) :
    Except PatternError (Lexeme × Text) :=
  match significant extended text with
  | '\x7d' :: rest => readBrace extended low none ('\x7d' :: rest)
  | rest => do
    let (high, rest) ← readCount extended rest
    readBrace extended low (some high) rest

theorem follows_readBounded (low : Nat) (text : Text) :
    Follows (readBounded extended low) text := by
  intro lexeme rest h
  have hsuffix := significant_suffix extended text
  cases hfront : significant extended text with
  | nil =>
    rw [readBounded, hfront] at h
    cases h
  | cons c front =>
    rw [hfront] at hsuffix
    have hfront' (tail : Text) :
        significant extended (text ++ ')' :: tail) = c :: (front ++ ')' :: tail) := by
      rw [significant_append (by simp [hfront]), hfront]
      rfl
    by_cases hc : c = '\x7d'
    · subst hc
      rw [readBounded, hfront] at h
      obtain ⟨hend, hfollows⟩ := follows_readBrace _ lexeme rest h
      refine ⟨hend.trans hsuffix, ?_⟩
      simp only [readBounded, hfront']
      exact hfollows
    · have hread (t more : Text) (ht : significant extended t = c :: more) :
          readBounded extended low t =
            (readCount extended (c :: more)).bind fun found =>
              readBrace extended low (some found.1) found.2 := by
        simp [readBounded, ht, hc, bind]
      rw [hread _ _ hfront] at h
      cases hhigh : readCount extended (c :: front) with
      | error e => rw [hhigh] at h; cases h
      | ok found =>
        obtain ⟨high, behind⟩ := found
        rw [hhigh] at h
        have hne : behind ≠ [] := by
          rintro rfl
          cases h
        obtain ⟨hend, hfollows⟩ := follows_readBrace _ lexeme rest h
        refine ⟨(hend.trans (readCount_suffix hhigh)).trans hsuffix, ?_⟩
        have hhigh' (tail : Text) := readCount_append hhigh hne (')' :: tail)
        simp only [hread _ _ (hfront' _), ← List.cons_append, hhigh']
        exact hfollows

theorem follows_readCounted (text : Text) : Follows (readCounted extended) text := by
  intro lexeme rest h
  obtain ⟨⟨low, behind⟩, hlow, hend⟩ := exists_of_bind_eq_ok h
  have hsuffix := (readCount_suffix hlow).trans (significant_suffix extended text)
  have hfront : significant extended text ≠ [] := by
    intro hnil
    rw [hnil] at hlow
    cases hlow
  cases behind with
  | nil => cases hend
  | cons c behind =>
    have hlow' (tail : Text) : readCount extended (significant extended (text ++ ')' :: tail)) =
        .ok (low, c :: behind ++ ')' :: tail) := by
      rw [significant_append hfront]
      exact readCount_append hlow (by simp) _
    by_cases hc : c = ','
    · subst hc
      have hread (t : Text) (more : Text)
          (ht : readCount extended (significant extended t) = .ok (low, ',' :: more)) :
          readCounted extended t = readBounded extended low more := by
        simp only [readCounted, ht, bind, Except.bind]
        rfl
      rw [hread _ _ hlow] at h
      obtain ⟨hend, hfollows⟩ := follows_readBounded low behind lexeme rest h
      refine ⟨hend.trans ((List.suffix_cons ',' behind).trans hsuffix), ?_⟩
      simp only [hread _ _ (hlow' _)]
      exact hfollows
    · have hread (t : Text) (more : Text)
          (ht : readCount extended (significant extended t) = .ok (low, c :: more)) :
          readCounted extended t = readBrace extended low (some low) (c :: more) := by
        simp [readCounted, ht, bind, Except.bind, hc]
      rw [hread _ _ hlow] at h
      obtain ⟨hend, hfollows⟩ := follows_readBrace _ lexeme rest h
      refine ⟨hend.trans hsuffix, ?_⟩
      simp only [hread _ _ (hlow' _)]
      exact hfollows

/-! ## Parentheses -/

/-- The flags behind a parenthesis with a question mark. -/
def readGroupFlags (text : Text) : Except PatternError (Lexeme × Text) := do
  let (changes, closed, rest) ← readFlags false false [] text
  if closed then
    if changes.isEmpty then .error .nothingToRepeat else return (.directive changes, rest)
  else
    return (.openGroup changes, rest)

theorem ends_readGroupFlags (text : Text) : Ends readGroupFlags text := by
  intro lexeme rest h
  obtain ⟨⟨changes, closed, rest'⟩, hflags, h⟩ := exists_of_bind_eq_ok h
  obtain ⟨hsuffix, hmore⟩ := ends_readFlags false false [] text hflags
  simp only [readGroupFlags, hmore, bind, Except.bind]
  simp only at h
  split at h
  · split at h
    · cases h
    · rename_i hclosed hchanges
      cases h
      exact ⟨hsuffix, fun _ => by simp only [if_pos hclosed, if_neg hchanges]; rfl⟩
  · rename_i hclosed
    cases h
    exact ⟨hsuffix, fun _ => by simp only [if_neg hclosed]; rfl⟩

/-- What stands behind a parenthesis decides how the group opens. -/
theorem readOpening_ok {lexeme : Lexeme} (h : readOpening extended text = .ok (lexeme, rest)) :
    (lexeme = .openCounted none ∧ rest = significant extended text ∧ rest.head? ≠ some '?') ∨
      ∃ front behind, front ≠ [] ∧ significant extended text = front ++ behind ∧
        ∃ read : Text → Except PatternError (Lexeme × Text), Ends read behind ∧
          read behind = .ok (lexeme, rest) ∧
          ∀ t more, significant extended t = front ++ behind ++ more →
            readOpening extended t = read (behind ++ more) := by
  unfold readOpening at h
  split at h
  · cases h
  · cases h
  · cases h
  · cases h
  · rename_i behind hfront
    refine Or.inr
      ⟨['?', 'P', '<'], behind, by simp, hfront, readNamed, ends_readNamed behind, h, ?_⟩
    intro t more ht
    simp only [readOpening, ht, List.cons_append, List.nil_append]
  · rename_i behind hequal hmark hfront
    refine Or.inr ⟨['?', '<'], behind, by simp, hfront, readNamed, ends_readNamed behind, h, ?_⟩
    intro t more ht
    cases behind with
    | nil => cases h
    | cons c behind =>
      have hc : c ≠ '=' := fun hc => hequal behind (hc ▸ rfl)
      have hc' : c ≠ '!' := fun hc => hmark behind (hc ▸ rfl)
      simp only [List.cons_append, List.nil_append] at ht
      simp [readOpening, ht, hc, hc']
  · rename_i behind hequal hmark _ _ _ hangle hfront
    refine Or.inr
      ⟨['?'], behind, by simp, hfront, readGroupFlags, ends_readGroupFlags behind, h, ?_⟩
    intro t more ht
    cases behind with
    | nil => cases h
    | cons c behind =>
      have hc : c ≠ '=' := fun hc => hequal behind (hc ▸ rfl)
      have hc' : c ≠ '!' := fun hc => hmark behind (hc ▸ rfl)
      have hangle' : c ≠ '<' := fun hc => hangle behind (hc ▸ rfl)
      have hname : c ≠ 'P' := by
        rintro rfl
        cases h
      simp only [List.cons_append, List.nil_append] at ht
      simp only [readOpening, ht, readGroupFlags, List.cons_append]
      simp [hc, hc', hangle', hname]
  · rename_i hmark
    cases h
    refine Or.inl ⟨rfl, rfl, fun hhead => ?_⟩
    obtain ⟨behind, hbehind⟩ := List.head?_eq_some_iff.1 hhead
    exact hmark behind hbehind

theorem follows_readOpening (text : Text) : Follows (readOpening extended) text := by
  intro lexeme rest h
  have hsuffix := significant_suffix extended text
  rcases readOpening_ok h with
    ⟨rfl, rfl, hmark⟩ | ⟨front, behind, hne, hfront, read, hread, hok, hopening⟩
  · refine ⟨hsuffix, ?_⟩
    have hplain (t : Text) (ht : (significant extended t).head? ≠ some '?') :
        readOpening extended t = .ok (.openCounted none, significant extended t) := by
      cases hfront : significant extended t with
      | nil => simp only [readOpening, hfront]
      | cons c front =>
        have hc : c ≠ '?' := by simpa [hfront] using ht
        simp [readOpening, hfront, hc]
    by_cases hfront : significant extended text = []
    · rw [hfront]
      rcases significant_append_of_nil hfront with hseen | hswallowed
      · refine Or.inl fun tail => ?_
        rw [hplain _ (by rw [hseen]; simp), hseen]
        rfl
      · refine Or.inr ⟨rfl, fun tail htail => ?_⟩
        rw [hplain _ (by rw [hswallowed tail htail]; simp), hswallowed tail htail]
    · refine Or.inl fun tail => ?_
      obtain ⟨c, front, hcons⟩ := List.exists_cons_of_ne_nil hfront
      rw [hplain, significant_append hfront]
      rw [significant_append hfront, hcons]
      rwa [hcons] at hmark
  · obtain ⟨hend, hmore⟩ := hread lexeme rest hok
    refine ⟨hend.trans ((List.suffix_append front behind).trans (hfront ▸ hsuffix)),
      Or.inl fun tail => ?_⟩
    have hfront' : significant extended text ≠ [] := by simp [hfront, hne]
    rw [hopening _ (')' :: tail) (by rw [significant_append hfront', hfront]), hmore]

/-! ## The front of a pattern -/

theorem ends_escape (text : Text) :
    Ends (fun text => (readEscape text).map fun (escape, rest) => (ofEscape escape, rest))
      text := by
  intro lexeme rest h
  simp only at h
  cases hescape : readEscape text with
  | error e => rw [hescape] at h; cases h
  | ok found =>
    rw [hescape] at h
    cases h
    obtain ⟨hsuffix, hmore⟩ := ends_readEscape text found.1 found.2 hescape
    exact ⟨hsuffix, fun more => by simp only [hmore]; rfl⟩

theorem follows_readMark (low : Nat) (high : Option Nat) (text : Text) :
    Follows (fun text => .ok (readMark low high text)) text := by
  intro lexeme rest h
  have hmark : readMark low high text = (lexeme, rest) := Except.ok.inj h
  have hsuffix := readMark_suffix low high text
  rw [hmark] at hsuffix
  exact ⟨hsuffix, Or.inl fun tail => by simp only [readMark_cons, hmark]⟩

theorem ends_ok (lexeme : Lexeme) (text : Text) : Ends (fun text => .ok (lexeme, text)) text := by
  intro found rest h
  cases h
  exact ⟨List.suffix_rfl, fun _ => rfl⟩

theorem follows_readAt (c : Char) (text : Text) : Follows (readAt extended c) text := by
  unfold readAt
  split
  · exact follows_readOpening text
  · exact (ends_ok _ text).follows
  · exact (ends_ok _ text).follows
  · exact (ends_readClass text).follows
  · exact follows_readMark _ _ text
  · exact follows_readMark _ _ text
  · exact follows_readMark _ _ text
  · exact follows_readCounted text
  · exact (ends_escape text).follows
  · exact (ends_ok _ text).follows
  · exact (ends_ok _ text).follows
  · exact (ends_ok _ text).follows
  · exact (ends_ok _ text).follows

theorem read?_eq {c : Char} (h : significant extended text = c :: rest) :
    read? extended text = (readAt extended c rest).map some := by
  rw [read?, h]

theorem read?_eq_none_iff : read? extended text = .ok none ↔ significant extended text = [] := by
  rw [read?]
  cases significant extended text with
  | nil => simp
  | cons c rest =>
    simp only [reduceCtorEq, iff_false]
    cases readAt extended c rest <;> simp [Except.map]

theorem read?_eq_some {lexeme : Lexeme} (h : read? extended text = .ok (some (lexeme, rest))) :
    ∃ c behind, significant extended text = c :: behind ∧
      readAt extended c behind = .ok (lexeme, rest) := by
  cases hfront : significant extended text with
  | nil => rw [read?_eq_none_iff.2 hfront] at h; cases h
  | cons c behind =>
    rw [read?_eq hfront] at h
    cases hat : readAt extended c behind with
    | error e => rw [hat] at h; cases h
    | ok found =>
      rw [hat] at h
      cases h
      exact ⟨c, behind, rfl, hat⟩

/-- A lexeme takes at least one character. -/
theorem length_lt_of_read? {lexeme : Lexeme}
    (h : read? extended text = .ok (some (lexeme, rest))) : rest.length < text.length := by
  obtain ⟨c, behind, hfront, hat⟩ := read?_eq_some h
  have hsuffix := hfront ▸ significant_suffix extended text
  have hbehind := (follows_readAt c behind lexeme rest hat).1
  exact Nat.lt_of_lt_of_le (Nat.lt_succ_of_le hbehind.length_le) hsuffix.length_le

/-- A lexeme in front of a closing parenthesis is read as before; or it is the last one, and an
unfinished comment behind it swallows the parenthesis. -/
theorem read?_append {lexeme : Lexeme} (h : read? extended text = .ok (some (lexeme, rest))) :
    (∀ tail, read? extended (text ++ ')' :: tail) = .ok (some (lexeme, rest ++ ')' :: tail))) ∨
      rest = [] ∧
        ∀ tail, '\n' ∉ tail → read? extended (text ++ ')' :: tail) = .ok (some (lexeme, [])) := by
  obtain ⟨c, behind, hfront, hat⟩ := read?_eq_some h
  have hread (tail : Text) : read? extended (text ++ ')' :: tail) =
      (readAt extended c (behind ++ ')' :: tail)).map some := by
    refine read?_eq ?_
    rw [significant_append (by simp [hfront]), hfront]
    rfl
  rcases (follows_readAt c behind lexeme rest hat).2 with hseen | ⟨hrest, hswallowed⟩
  · exact Or.inl fun tail => by rw [hread, hseen]; rfl
  · exact Or.inr ⟨hrest, fun tail htail => by rw [hread, hswallowed tail htail]; rfl⟩

/-- Behind the last lexeme a closing parenthesis is the next one, unless an unfinished comment
swallows it. -/
theorem read?_append_of_none (h : read? extended text = .ok none) :
    (∀ tail, read? extended (text ++ ')' :: tail) = .ok (some (.closeGroup, tail))) ∨
      ∀ tail, '\n' ∉ tail → read? extended (text ++ ')' :: tail) = .ok none := by
  rcases significant_append_of_nil (read?_eq_none_iff.1 h) with hseen | hswallowed
  · exact Or.inl fun tail => read?_eq (hseen tail)
  · exact Or.inr fun tail htail => read?_eq_none_iff.2 (hswallowed tail htail)

end PredictiveParsing.Lexeme
