import PredictiveParsing.Regex.Lexeme

/-!
# Escapes, names, flags and classes in front of other text

Most readers of a pattern leave an end of the text and do the same whatever stands behind the text
(`Ends`): they stop at a character of their own. Blanks and comments are dropped before a reader
looks at a character, so what is left of them must not be empty.

* `significant_append_of_nil`: a comment that is not ended swallows what is put behind it.
* `ends_readClass`: a class ends at its closing bracket.
-/

namespace PredictiveParsing

/-- Where two steps succeed one after the other, each of them does. -/
theorem exists_of_bind_eq_ok {ε α β : Type} {first : Except ε α} {next : α → Except ε β} {b : β}
    (h : first >>= next = .ok b) : ∃ a, first = .ok a ∧ next a = .ok b := by
  cases first with
  | error e => cases h
  | ok a => exact ⟨a, rfl, h⟩

namespace Lexeme

open Text

variable {α : Type} {extended : Bool} {text rest : Text}

/-! ## Blanks and comments -/

theorem skipIgnored_suffix (marked : Bool) (text : Text) : skipIgnored marked text <:+ text := by
  induction text generalizing marked with
  | nil => cases marked <;> exact List.suffix_rfl
  | cons c text ih =>
    cases marked with
    | true => exact (ih _).trans (List.suffix_cons c text)
    | false =>
      rw [skipIgnored]
      split
      · exact (ih _).trans (List.suffix_cons c text)
      · split
        · exact (ih _).trans (List.suffix_cons c text)
        · exact List.suffix_rfl

theorem skipIgnored_append {marked : Bool} (h : skipIgnored marked text ≠ []) (more : Text) :
    skipIgnored marked (text ++ more) = skipIgnored marked text ++ more := by
  induction text generalizing marked with
  | nil => cases marked <;> exact absurd rfl h
  | cons c text ih =>
    cases marked with
    | true => exact ih h
    | false =>
      rw [List.cons_append, skipIgnored, skipIgnored]
      rw [skipIgnored] at h
      split
      · rename_i hblank
        rw [if_pos hblank] at h
        exact ih h
      · rename_i hblank
        rw [if_neg hblank] at h
        split
        · rename_i hcomment
          rw [if_pos hcomment] at h
          exact ih h
        · rfl

/-- Where nothing is left, a text ends inside a comment or outside of all. -/
theorem exists_skipIgnored_append {marked : Bool} (h : skipIgnored marked text = []) :
    ∃ marked', ∀ more, skipIgnored marked (text ++ more) = skipIgnored marked' more := by
  induction text generalizing marked with
  | nil => exact ⟨marked, fun _ => rfl⟩
  | cons c text ih =>
    cases marked with
    | true => exact ih h
    | false =>
      rw [skipIgnored] at h
      simp only [List.cons_append, skipIgnored]
      split at h
      · rename_i hblank
        simp only [if_pos hblank]
        exact ih h
      · rename_i hblank
        simp only [if_neg hblank]
        split at h
        · rename_i hcomment
          simp only [if_pos hcomment]
          exact ih h
        · cases h

theorem skipIgnored_comment (h : '\n' ∉ text) : skipIgnored true text = [] := by
  induction text with
  | nil => rfl
  | cons c text ih =>
    rw [List.mem_cons, not_or] at h
    have hc : (c != '\n') = true := by simpa using Ne.symm h.1
    rw [skipIgnored, hc]
    exact ih h.2

theorem significant_suffix (extended : Bool) (text : Text) :
    significant extended text <:+ text := by
  rw [significant]
  split
  · exact skipIgnored_suffix false text
  · exact List.suffix_rfl

theorem significant_append (h : significant extended text ≠ []) (more : Text) :
    significant extended (text ++ more) = significant extended text ++ more := by
  rw [significant, significant]
  rw [significant] at h
  split
  · rename_i hextended
    rw [if_pos hextended] at h
    exact skipIgnored_append h more
  · rfl

/-- Where nothing is left in front of the end, what is put behind it is seen or swallowed. -/
theorem significant_append_of_nil (h : significant extended text = []) :
    (∀ tail, significant extended (text ++ ')' :: tail) = ')' :: tail) ∨
      ∀ tail, '\n' ∉ tail → significant extended (text ++ ')' :: tail) = [] := by
  cases extended with
  | false =>
    have htext : text = [] := h
    exact Or.inl fun tail => by rw [htext]; rfl
  | true =>
    have hskip : skipIgnored false text = [] := h
    obtain ⟨marked, hmarked⟩ := exists_skipIgnored_append hskip
    cases marked with
    | false => exact Or.inl fun tail => hmarked (')' :: tail)
    | true =>
      refine Or.inr fun tail htail => ?_
      have hnewline : '\n' ∉ ')' :: tail := by simpa using htail
      exact (hmarked _).trans (skipIgnored_comment hnewline)

/-! ## Readers that end inside the text -/

/-- A reader leaves an end of the text, and does the same whatever stands behind the text. -/
def Ends (read : Text → Except PatternError (α × Text)) (text : Text) : Prop :=
  ∀ a rest, read text = .ok (a, rest) →
    rest <:+ text ∧ ∀ more, read (text ++ more) = .ok (a, rest ++ more)

theorem ends_readEscape (text : Text) : Ends readEscape text := by
  intro escape rest h
  cases text with
  | nil => cases h
  | cons c text =>
    simp only [readEscape] at h
    split at h
    · rename_i found hfound
      cases h
      refine ⟨List.suffix_cons c _, fun more => ?_⟩
      simp only [List.cons_append, readEscape, hfound]
    · cases h

theorem ends_readAtom (text : Text) : Ends readAtom text := by
  intro escape rest h
  cases text with
  | nil => cases h
  | cons c text =>
    simp only [readAtom] at h
    split at h
    · rename_i hc
      obtain ⟨hsuffix, hmore⟩ := ends_readEscape text escape rest h
      refine ⟨hsuffix.trans (List.suffix_cons c text), fun more => ?_⟩
      simp only [List.cons_append, readAtom, if_pos hc]
      exact hmore more
    · rename_i hc
      cases h
      refine ⟨List.suffix_cons c _, fun more => ?_⟩
      simp only [List.cons_append, readAtom, if_neg hc]

theorem ends_readName (name text : Text) : Ends (readName name) text := by
  intro found rest h
  induction text generalizing name with
  | nil => cases h
  | cons c text ih =>
    rw [readName] at h
    simp only [List.cons_append, readName]
    split at h
    · rename_i hc
      simp only [if_pos hc]
      split at h
      · cases h
      · rename_i hname
        cases h
        simp only [if_neg hname]
        exact ⟨List.suffix_cons c _, fun _ => trivial⟩
    · rename_i hc
      simp only [if_neg hc]
      split at h
      · rename_i hchar
        simp only [if_pos hchar]
        obtain ⟨hsuffix, hmore⟩ := ih _ h
        exact ⟨hsuffix.trans (List.suffix_cons c text), hmore⟩
      · cases h

theorem ends_readNamed (text : Text) : Ends readNamed text := by
  intro lexeme rest h
  obtain ⟨⟨name, rest'⟩, hname, h⟩ := exists_of_bind_eq_ok h
  cases h
  obtain ⟨hsuffix, hmore⟩ := ends_readName [] text name rest hname
  exact ⟨hsuffix, fun more => by rw [readNamed, hmore]; rfl⟩

theorem ends_readFlags (off pending : Bool) (changes : FlagChanges) (text : Text)
    {result : FlagChanges} {closed : Bool} {rest : Text}
    (h : readFlags off pending changes text = .ok (result, closed, rest)) :
    rest <:+ text ∧
      ∀ more,
        readFlags off pending changes (text ++ more) = .ok (result, closed, rest ++ more) := by
  induction text generalizing off pending changes with
  | nil => cases h
  | cons c text ih =>
    have hlater {off' pending' : Bool} {changes' : FlagChanges}
        (h : readFlags off' pending' changes' text = .ok (result, closed, rest)) :
        rest <:+ c :: text ∧ ∀ more,
          readFlags off' pending' changes' (text ++ more) = .ok (result, closed, rest ++ more) :=
      ⟨(ih _ _ _ h).1.trans (List.suffix_cons c text), (ih _ _ _ h).2⟩
    rw [readFlags] at h
    simp only [List.cons_append, readFlags]
    split at h
    · rename_i hend
      simp only [if_pos hend]
      split at h
      · cases h
      · rename_i hpending
        cases h
        simp only [if_neg hpending]
        exact ⟨List.suffix_cons c _, fun _ => trivial⟩
    · rename_i hend
      simp only [if_neg hend]
      split at h
      · rename_i hhyphen
        simp only [if_pos hhyphen]
        split at h
        · cases h
        · rename_i hoff
          simp only [if_neg hoff]
          exact hlater h
      · rename_i hhyphen
        simp only [if_neg hhyphen]
        split at h
        · cases h
        · rename_i flag hflag
          split at h
          · cases h
          · rename_i hgiven
            simp only [if_neg hgiven]
            exact hlater h

/-! ## Classes -/

theorem length_lt_of_readAtom {escape : Escape} (h : readAtom text = .ok (escape, rest)) :
    rest.length < text.length := by
  cases text with
  | nil => cases h
  | cons c text =>
    simp only [readAtom] at h
    split at h
    · exact Nat.lt_succ_of_le (ends_readEscape text escape rest h).1.length_le
    · cases h
      exact Nat.lt_succ_self _

theorem glimpse?_append {marked : Bool} {c : Char} (h : glimpse? marked text = some c)
    (more : Text) : glimpse? marked (text ++ more) = some c := by
  induction text generalizing marked with
  | nil => cases h
  | cons a text ih =>
    rw [glimpse?] at h
    simp only [List.cons_append, glimpse?]
    split at h
    · rename_i hblank
      simp only [if_pos hblank]
      exact ih h
    · rename_i hblank
      simp only [if_neg hblank]
      split at h
      · rename_i hcomment
        simp only [if_pos hcomment]
        exact ih h
      · rename_i hcomment
        simp only [if_neg hcomment]
        exact h

theorem glimpse?_isSome {marked : Bool} (h : ']' ∈ text) : (glimpse? marked text).isSome := by
  induction text generalizing marked with
  | nil => cases h
  | cons a text ih =>
    rw [glimpse?]
    split
    · rename_i hblank
      rcases List.mem_cons.1 h with rfl | h
      · exact absurd hblank (by decide)
      · exact ih h
    · split
      · rename_i hcomment
        rcases List.mem_cons.1 h with rfl | h
        · exact absurd hcomment.1 (by decide)
        · exact ih h
      · rfl

theorem behindHyphen?_append (h : ']' ∈ text) (more : Text) :
    behindHyphen? extended (text ++ more) = behindHyphen? extended text := by
  have hhead : (text ++ more).head? = text.head? := by
    obtain ⟨c, text, rfl⟩ := List.exists_cons_of_ne_nil (List.ne_nil_of_mem h)
    rfl
  rw [behindHyphen?, behindHyphen?, hhead]
  split
  · obtain ⟨c, hc⟩ := Option.isSome_iff_exists.1 (@glimpse?_isSome text false h)
    rw [hc, glimpse?_append hc]
  · rfl

/-- Whether no hyphen that makes a range stands at the front. -/
def standsAlone (extended : Bool) (front : Text) : Bool :=
  front.head?.all (· != '-') ||
    (behindHyphen? extended front.tail).any fun c => c == ']' || c == '-'

theorem standsAlone_hyphen (extended : Bool) (behind : Text) :
    standsAlone extended ('-' :: behind) = true ↔
      behindHyphen? extended behind ∈ [some ']', some '-'] := by
  cases h : behindHyphen? extended behind <;> simp [standsAlone, h]

theorem standsAlone_of_ne (extended : Bool) {c : Char} (h : c ≠ '-') (behind : Text) :
    standsAlone extended (c :: behind) = true := by
  simp [standsAlone, bne_iff_ne.2 h]

theorem standsAlone_append {front : Text} (hne : front ≠ [])
    (htail : front.head? = some '-' → ']' ∈ front.tail) (more : Text) :
    standsAlone extended (front ++ more) = standsAlone extended front := by
  obtain ⟨c, front, rfl⟩ := List.exists_cons_of_ne_nil hne
  by_cases hc : c = '-'
  · have hmem := htail (congrArg some hc)
    simp only [List.tail_cons] at hmem
    simp [standsAlone, behindHyphen?_append hmem]
  · rw [List.cons_append, standsAlone_of_ne extended hc, standsAlone_of_ne extended hc]

/-- One entry of a class: an escape or a character, or a range of them. -/
def readEntry (extended : Bool) (text : Text) : Except PatternError (ClassItem × Text) := do
  let (first, behind) ← readAtom text
  let front := significant extended behind
  if standsAlone extended front then
    return (← first.classItem, front)
  else
    let (last, rest) ← readAtom (significant extended front.tail)
    return (← first.classRange last, rest)

/-- Whether an entry of a class can start with a character in front of a text. -/
def StartsEntry (c : Char) (text : Text) : Prop :=
  c ≠ ']' ∧ c ≠ '[' ∧ (c ∈ ['&', '-', '~'] → text.head? ≠ some c)

theorem readClassItems_close (n : Nat) (items : List ClassItem)
    (h : significant extended text = ']' :: rest) :
    readClassItems extended (n + 1) items text = .ok (items.reverse, rest) := by
  simp only [readClassItems, h]

theorem readClassItems_entry (n : Nat) (items : List ClassItem) {c : Char} {behind : Text}
    (h : significant extended text = c :: behind) (hc : StartsEntry c behind) :
    readClassItems extended (n + 1) items text =
      (readEntry extended (c :: behind)).bind fun found =>
        readClassItems extended n (found.1 :: items) found.2 := by
  obtain ⟨hclose, hopen, hset⟩ := hc
  rw [readClassItems, h]
  split
  · rename_i heq; cases heq
  · rename_i heq; cases heq; exact absurd rfl hclose
  · rename_i heq; cases heq; exact absurd rfl hopen
  · rename_i heq; cases heq; exact absurd rfl (hset (by decide))
  · rename_i heq; cases heq; exact absurd rfl (hset (by decide))
  · rename_i heq; cases heq; exact absurd rfl (hset (by decide))
  · rw [readEntry]
    cases readAtom (c :: behind) with
    | error e => rfl
    | ok found =>
      obtain ⟨first, rest'⟩ := found
      simp only [bind, Except.bind]
      cases significant extended rest' with
      | nil => cases first.classItem <;> rfl
      | cons d front =>
        by_cases hd : d = '-'
        · subst hd
          by_cases hhyphen : behindHyphen? extended front ∈ [some ']', some '-']
          · simp only [if_pos hhyphen, if_pos ((standsAlone_hyphen extended front).2 hhyphen)]
            cases first.classItem <;> rfl
          · have hrange := mt (standsAlone_hyphen extended front).1 hhyphen
            simp only [if_neg hhyphen, if_neg hrange, List.tail_cons]
            cases readAtom (significant extended front) with
            | error e => rfl
            | ok found => cases hitem : first.classRange found.1 <;> simp [hitem, pure, Except.pure]
        · simp only [if_pos (standsAlone_of_ne extended hd front)]
          cases first.classItem <;> simp [hd, pure, Except.pure]

/-- Entries are read up to the closing bracket, one after the other. -/
theorem readClassItems_ok {n : Nat} {items found : List ClassItem}
    (h : readClassItems extended n items text = .ok (found, rest)) :
    ∃ m, n = m + 1 ∧
      ((significant extended text = ']' :: rest ∧ found = items.reverse) ∨
        ∃ c behind item rest', significant extended text = c :: behind ∧ StartsEntry c behind ∧
          readEntry extended (c :: behind) = .ok (item, rest') ∧
          readClassItems extended m (item :: items) rest' = .ok (found, rest)) := by
  cases n with
  | zero => cases h
  | succ n =>
    refine ⟨n, rfl, ?_⟩
    cases hfront : significant extended text with
    | nil => simp [readClassItems, hfront] at h
    | cons c behind =>
      by_cases hclose : c = ']'
      · subst hclose
        rw [readClassItems_close n items hfront] at h
        cases h
        exact Or.inl ⟨rfl, rfl⟩
      by_cases hc : StartsEntry c behind
      · rw [readClassItems_entry n items hfront hc] at h
        cases hentry : readEntry extended (c :: behind) with
        | error e => rw [hentry] at h; cases h
        | ok entry =>
          rw [hentry] at h
          exact Or.inr ⟨c, behind, entry.1, entry.2, rfl, hc, hentry, h⟩
      · rw [readClassItems, hfront] at h
        by_cases hopen : c = '['
        · subst hopen
          cases h
        · have hset : c ∈ ['&', '-', '~'] ∧ behind.head? = some c :=
            Decidable.byContradiction fun hnone =>
              hc ⟨hclose, hopen, fun hmem hhead => hnone ⟨hmem, hhead⟩⟩
          obtain ⟨hmem, hhead⟩ := hset
          obtain ⟨behind', rfl⟩ := List.head?_eq_some_iff.1 hhead
          simp only [List.mem_cons, List.not_mem_nil, or_false] at hmem
          rcases hmem with rfl | rfl | rfl <;> cases h

/-- An entry is one escape or character, or it is a range of two. -/
theorem readEntry_ok {item : ClassItem} (h : readEntry extended text = .ok (item, rest)) :
    ∃ first behind, readAtom text = .ok (first, behind) ∧
      ((standsAlone extended (significant extended behind) = true ∧ first.classItem = .ok item ∧
          rest = significant extended behind) ∨
        (standsAlone extended (significant extended behind) = false ∧ ∃ last,
          readAtom (significant extended (significant extended behind).tail) = .ok (last, rest) ∧
          first.classRange last = .ok item)) := by
  obtain ⟨⟨first, behind⟩, hatom, h⟩ := exists_of_bind_eq_ok h
  refine ⟨first, behind, hatom, ?_⟩
  simp only at h
  split at h
  · rename_i halone
    obtain ⟨_, hitem, h⟩ := exists_of_bind_eq_ok h
    cases h
    exact Or.inl ⟨halone, hitem, rfl⟩
  · rename_i halone
    obtain ⟨⟨last, _⟩, hlast, h⟩ := exists_of_bind_eq_ok h
    obtain ⟨_, hitem, h⟩ := exists_of_bind_eq_ok h
    cases h
    exact Or.inr ⟨by simpa using halone, last, hlast, hitem⟩

theorem readEntry_suffix {item : ClassItem} (h : readEntry extended text = .ok (item, rest)) :
    rest <:+ text ∧ rest.length < text.length := by
  obtain ⟨first, behind, hatom, hcases⟩ := readEntry_ok h
  have hsuffix := (ends_readAtom text first behind hatom).1
  have hshort := length_lt_of_readAtom hatom
  have hfront := significant_suffix extended behind
  have hrest : rest <:+ behind := by
    rcases hcases with ⟨_, _, rfl⟩ | ⟨_, last, hlast, _⟩
    · exact hfront
    · have hbehind := (ends_readAtom _ last rest hlast).1
      exact ((hbehind.trans (significant_suffix extended _)).trans
        (List.tail_suffix _)).trans hfront
  exact ⟨hrest.trans hsuffix, Nat.lt_of_le_of_lt hrest.length_le hshort⟩

theorem readEntry_append {item : ClassItem} (h : readEntry extended text = .ok (item, rest))
    (hrest : ']' ∈ rest) (more : Text) :
    readEntry extended (text ++ more) = .ok (item, rest ++ more) := by
  obtain ⟨first, behind, hatom, hcases⟩ := readEntry_ok h
  have hatom' := (ends_readAtom text first behind hatom).2 more
  rcases hcases with ⟨halone, hitem, rfl⟩ | ⟨halone, last, hlast, hitem⟩
  · have hne : significant extended behind ≠ [] := List.ne_nil_of_mem hrest
    have halone' : standsAlone extended (significant extended behind ++ more) = true := by
      rw [standsAlone_append hne, halone]
      intro hhead
      obtain ⟨front, hfront⟩ := List.head?_eq_some_iff.1 hhead
      rw [hfront] at hrest ⊢
      simpa using hrest
    simp [readEntry, hatom', significant_append hne, halone', hitem, bind, Except.bind, pure,
      Except.pure]
  · obtain ⟨hsuffix, hlast'⟩ := ends_readAtom _ last rest hlast
    have hmem : ']' ∈ (significant extended behind).tail :=
      (hsuffix.trans (significant_suffix extended _)).subset hrest
    have hne : significant extended behind ≠ [] := by
      intro hnil
      rw [hnil] at hmem
      cases hmem
    have hne' : significant extended (significant extended behind).tail ≠ [] := by
      intro hnil
      rw [hnil] at hlast
      cases hlast
    have halone' : standsAlone extended (significant extended behind ++ more) = false := by
      rw [standsAlone_append hne fun _ => hmem, halone]
    simp [readEntry, hatom', significant_append hne, halone', List.tail_append_of_ne_nil hne,
      significant_append hne', hlast', hitem, bind, Except.bind, pure, Except.pure]

/-- The closing bracket of a class stands in the text, and nothing behind it counts. -/
theorem readClassItems_append {n m : Nat} (hn : n ≤ m) {items found : List ClassItem}
    (h : readClassItems extended n items text = .ok (found, rest)) :
    ']' :: rest <:+ text ∧
      ∀ more, readClassItems extended m items (text ++ more) = .ok (found, rest ++ more) := by
  induction n generalizing m items text with
  | zero => cases h
  | succ n ih =>
    obtain ⟨m, rfl⟩ : ∃ k, m = k + 1 := ⟨m - 1, by omega⟩
    obtain ⟨_, heq, hcases⟩ := readClassItems_ok h
    cases heq
    rcases hcases with ⟨hfront, rfl⟩ | ⟨c, behind, item, rest', hfront, hc, hentry, hlater⟩
    · refine ⟨hfront ▸ significant_suffix extended text, fun more => ?_⟩
      refine readClassItems_close m items ?_
      rw [significant_append (by simp [hfront]), hfront]
      rfl
    · obtain ⟨hsuffix, hmore⟩ := ih (Nat.le_of_succ_le_succ hn) hlater
      obtain ⟨hentryEnd, hshort⟩ := readEntry_suffix hentry
      have hmem : ']' ∈ rest' := hsuffix.subset List.mem_cons_self
      refine ⟨(hsuffix.trans hentryEnd).trans (hfront ▸ significant_suffix extended text),
        fun more => ?_⟩
      have hne : behind ≠ [] := by
        rintro rfl
        have : rest' = [] := List.length_eq_zero_iff.1 (Nat.lt_one_iff.1 hshort)
        rw [this] at hmem
        cases hmem
      have hfront' : significant extended (text ++ more) = c :: (behind ++ more) := by
        rw [significant_append (by simp [hfront]), hfront]
        rfl
      have hc' : StartsEntry c (behind ++ more) := by
        obtain ⟨d, behind, rfl⟩ := List.exists_cons_of_ne_nil hne
        exact hc
      have hentry' := readEntry_append hentry hmem more
      rw [List.cons_append] at hentry'
      rw [readClassItems_entry m items hfront' hc', hentry']
      exact hmore more

theorem readHyphens_suffix (extended : Bool) (n : Nat) (items : List ClassItem) (text : Text) :
    (readHyphens extended n items text).2 <:+ text := by
  induction n generalizing items text with
  | zero => exact List.suffix_rfl
  | succ n ih =>
    have hfront := significant_suffix extended text
    rw [readHyphens]
    generalize significant extended text = front at hfront
    split
    · exact ((ih _ _).trans (List.suffix_cons _ _)).trans hfront
    · exact hfront

theorem readHyphens_append {n m : Nat} (hn : text.length ≤ n) (hm : n ≤ m)
    {items : List ClassItem} (h : (readHyphens extended n items text).2 ≠ []) (more : Text) :
    readHyphens extended m items (text ++ more) =
      ((readHyphens extended n items text).1, (readHyphens extended n items text).2 ++ more) := by
  induction n generalizing m items text with
  | zero =>
    obtain rfl : text = [] := List.length_eq_zero_iff.1 (Nat.le_zero.1 hn)
    exact absurd rfl h
  | succ n ih =>
    obtain ⟨m, rfl⟩ : ∃ k, m = k + 1 := ⟨m - 1, by omega⟩
    have hlength := (significant_suffix extended text).length_le
    rw [readHyphens] at h ⊢
    rw [readHyphens]
    cases hfront : significant extended text with
    | nil =>
      rw [hfront] at h
      exact absurd rfl h
    | cons c front =>
      rw [hfront] at h hlength
      rw [significant_append (by simp [hfront]), hfront]
      by_cases hc : c = '-'
      · subst hc
        simp only [List.length_cons] at hlength
        exact ih (by omega) (Nat.le_of_succ_le_succ hm) h
      · rw [List.cons_append]
        simp [hc]

/-- The circumflex at the front of a class. -/
def readNegation (extended : Bool) (text : Text) : Bool × Text :=
  match significant extended text with
  | '^' :: rest => (true, rest)
  | rest => (false, rest)

/-- The closing bracket at the front of a class that has no hyphen before it. -/
def readBracket (items : List ClassItem) (text : Text) : List ClassItem × Text :=
  match items, text with
  | [], ']' :: rest => ([ClassItem.range ']' ']'], rest)
  | items, text => (items, text)

theorem readNegation_suffix (extended : Bool) (text : Text) :
    (readNegation extended text).2 <:+ text := by
  have hfront := significant_suffix extended text
  rw [readNegation]
  generalize significant extended text = front at hfront
  split
  · exact (List.suffix_cons _ _).trans hfront
  · exact hfront

theorem readNegation_append (h : (readNegation extended text).2 ≠ []) (more : Text) :
    readNegation extended (text ++ more) =
      ((readNegation extended text).1, (readNegation extended text).2 ++ more) := by
  rw [readNegation] at h ⊢
  rw [readNegation]
  cases hfront : significant extended text with
  | nil => rw [hfront] at h; exact absurd rfl h
  | cons c front =>
    rw [significant_append (by simp [hfront]), hfront, List.cons_append]
    by_cases hc : c = '^'
    · subst hc
      rfl
    · simp [hc]

theorem readBracket_suffix (items : List ClassItem) (text : Text) :
    (readBracket items text).2 <:+ text := by
  unfold readBracket
  split
  · exact List.suffix_cons _ _
  · exact List.suffix_rfl

theorem readBracket_append (items : List ClassItem) (h : (readBracket items text).2 ≠ [])
    (more : Text) :
    readBracket items (text ++ more) =
      ((readBracket items text).1, (readBracket items text).2 ++ more) := by
  cases text with
  | nil => cases items <;> exact absurd rfl h
  | cons c text =>
    cases items with
    | cons item items => rfl
    | nil =>
      by_cases hc : c = ']'
      · subst hc
        rfl
      · simp [readBracket, hc]

theorem readClass_eq (text : Text) :
    readClass extended text =
      (let front := readNegation extended text
       let hyphens := readHyphens extended front.2.length [] front.2
       let inside := readBracket hyphens.1 hyphens.2
       (readClassItems extended (inside.2.length + 1) inside.1 inside.2).bind fun found =>
        .ok (Lexeme.set found.1 front.1, found.2)) := by
  rfl

theorem ends_readClass (text : Text) : Ends (readClass extended) text := by
  intro lexeme rest h
  rw [readClass_eq] at h
  simp only at h
  have hfront := readNegation_suffix extended text
  have hfront' (hne : (readNegation extended text).2 ≠ []) := readNegation_append hne
  generalize readNegation extended text = front at h hfront hfront'
  have hhyphens := readHyphens_suffix extended front.2.length [] front.2
  have hhyphens' {m : Nat} (hm : front.2.length ≤ m)
      (hne : (readHyphens extended front.2.length [] front.2).2 ≠ []) :=
    readHyphens_append (Nat.le_refl front.2.length) hm hne
  generalize readHyphens extended front.2.length [] front.2 = hyphens at h hhyphens hhyphens'
  have hinside := readBracket_suffix hyphens.1 hyphens.2
  have hinside' (hne : (readBracket hyphens.1 hyphens.2).2 ≠ []) :=
    readBracket_append hyphens.1 hne
  generalize readBracket hyphens.1 hyphens.2 = inside at h hinside hinside'
  cases hitems : readClassItems extended (inside.2.length + 1) inside.1 inside.2 with
  | error e => rw [hitems] at h; cases h
  | ok found =>
    rw [hitems] at h
    cases h
    obtain ⟨hclose, _⟩ := readClassItems_append (Nat.le_refl _) hitems
    have hne {t : Text} (ht : inside.2 <:+ t) : t ≠ [] :=
      List.ne_nil_of_mem ((hclose.trans ht).subset List.mem_cons_self)
    refine ⟨(List.suffix_cons _ _).trans (((hclose.trans hinside).trans hhyphens).trans hfront),
      fun more => ?_⟩
    rw [readClass_eq]
    simp only
    rw [hfront' (hne (hinside.trans hhyphens)) more]
    simp only
    rw [hhyphens' (by simp) (hne hinside) more]
    simp only
    rw [hinside' (hne List.suffix_rfl) more]
    simp only
    rw [(readClassItems_append (by simp) hitems).2 more]
    rfl

end Lexeme

end PredictiveParsing
