import PredictiveParsing.Text.Blank
import PredictiveParsing.Text.Digit
import PredictiveParsing.Text.Word

/-!
# Character classes

A class is a set of characters, written as the closed ranges of its code points in order, with a
gap between any two. Every set has one such form, so that equal sets are equal values.

* `mem_insert`, `mem_union`: adding a range and joining two classes.
* `mem_any`, `mem_singleton`: the classes of all characters and of one character.
-/

namespace PredictiveParsing

/-- A set of characters. -/
structure CharClass where
  ranges : List (Nat × Nat)
  deriving DecidableEq

namespace CharClass

/-- Whether a character belongs to the class. -/
def mem (k : CharClass) (c : Char) : Bool :=
  Text.inRanges k.ranges c

/-- The class without characters. -/
def none : CharClass := ⟨[]⟩

/-- All characters. -/
def any : CharClass := ⟨[(0, 0x10ffff)]⟩

/-- One character. -/
def singleton (c : Char) : CharClass := ⟨[(c.toNat, c.toNat)]⟩

/-- The only character of the class, if there is just one. -/
def single? (k : CharClass) : Option Char :=
  match k.ranges with
  | [(first, last)] => if first = last then some (Char.ofNat first) else Option.none
  | _ => Option.none

/-! ## Union and complement -/

/-- The code point after `n`; surrogates are passed over. -/
def codeAfter (n : Nat) : Nat := if n = 0xd7ff then 0xe000 else n + 1

/-- The code point before `n`; surrogates are passed over. -/
def codeBefore (n : Nat) : Nat := if n = 0xe000 then 0xd7ff else n - 1

/-- Adds a range to ranges in order; ranges that meet become one. -/
def insert (range : Nat × Nat) : List (Nat × Nat) → List (Nat × Nat)
  | [] => [range]
  | next :: rest =>
    if codeAfter range.2 < next.1 then range :: next :: rest
    else if codeAfter next.2 < range.1 then next :: insert range rest
    else insert (min range.1 next.1, max range.2 next.2) rest

/-- The characters of one class or the other. -/
def union (k l : CharClass) : CharClass :=
  if k.ranges.length ≤ l.ranges.length then ⟨k.ranges.foldl (fun rs r => insert r rs) l.ranges⟩
  else ⟨l.ranges.foldl (fun rs r => insert r rs) k.ranges⟩

/-- The ranges between given ones, from a code point on. -/
def gaps : Nat → List (Nat × Nat) → List (Nat × Nat)
  | low, [] => if low ≤ 0x10ffff then [(low, 0x10ffff)] else []
  | low, (first, last) :: rest =>
    if low < first then (low, codeBefore first) :: gaps (codeAfter last) rest
    else gaps (codeAfter last) rest

/-- The characters that are not in the class. -/
def compl (k : CharClass) : CharClass := ⟨gaps 0 k.ranges⟩

/-- All characters but the line feed. -/
def notNewline : CharClass := (singleton '\n').compl

theorem not_surrogate (c : Char) : c.toNat ≤ 0xd7ff ∨ 0xe000 ≤ c.toNat := by
  have h := c.valid
  simp only [UInt32.isValidChar, Nat.isValidChar] at h
  change c.val.toNat ≤ 0xd7ff ∨ 0xe000 ≤ c.val.toNat
  omega

theorem inRanges_cons (range : Nat × Nat) (rest : List (Nat × Nat)) (c : Char) :
    Text.inRanges (range :: rest) c = true ↔
      (range.1 ≤ c.toNat ∧ c.toNat ≤ range.2) ∨ Text.inRanges rest c = true := by
  simp [Text.inRanges]

theorem inRanges_insert (range : Nat × Nat) (rest : List (Nat × Nat)) (c : Char) :
    Text.inRanges (insert range rest) c = true ↔
      (range.1 ≤ c.toNat ∧ c.toNat ≤ range.2) ∨ Text.inRanges rest c = true := by
  induction rest generalizing range with
  | nil => simp [insert, Text.inRanges]
  | cons next rest ih =>
    rw [insert]
    split
    · exact inRanges_cons _ _ _
    · rename_i h₁
      split
      · rw [inRanges_cons, ih, inRanges_cons]
        exact or_left_comm
      · rename_i h₂
        rw [ih, inRanges_cons, ← or_assoc]
        refine or_congr_left ?_
        have hc := not_surrogate c
        simp only [codeAfter] at h₁ h₂
        constructor
        · rintro ⟨h, h'⟩
          split at h₁ <;> split at h₂ <;> omega
        · rintro (⟨h, h'⟩ | ⟨h, h'⟩) <;> constructor <;> omega

theorem mem_insert {range : Nat × Nat} {k : CharClass} {c : Char} :
    (⟨insert range k.ranges⟩ : CharClass).mem c = true ↔
      (range.1 ≤ c.toNat ∧ c.toNat ≤ range.2) ∨ k.mem c = true :=
  inRanges_insert _ _ _

theorem inRanges_foldl_insert (rs ss : List (Nat × Nat)) (c : Char) :
    Text.inRanges (rs.foldl (fun rs r => insert r rs) ss) c = true ↔
      Text.inRanges rs c = true ∨ Text.inRanges ss c = true := by
  induction rs generalizing ss with
  | nil => simp [Text.inRanges]
  | cons r rs ih =>
    rw [List.foldl_cons, ih, inRanges_insert, inRanges_cons, or_assoc]
    exact or_left_comm

theorem mem_union {k l : CharClass} {c : Char} :
    (k.union l).mem c = true ↔ k.mem c = true ∨ l.mem c = true := by
  simp only [union, mem]
  split
  · exact inRanges_foldl_insert _ _ _
  · rw [inRanges_foldl_insert]
    exact or_comm

theorem mem_any (c : Char) : any.mem c = true := by
  have h := c.valid
  simp only [UInt32.isValidChar, Nat.isValidChar] at h
  have : c.val.toNat ≤ 0x10ffff := by omega
  simpa [any, mem, Text.inRanges] using this

theorem mem_singleton {c d : Char} : (singleton c).mem d = true ↔ d = c := by
  simp only [mem, singleton, Text.inRanges, List.any_cons, List.any_nil, Bool.or_false,
    Bool.and_eq_true, decide_eq_true_eq]
  constructor
  · rintro ⟨h₁, h₂⟩
    exact Char.ext (UInt32.toNat_inj.1 (Nat.le_antisymm h₂ h₁))
  · rintro rfl
    exact ⟨Nat.le_refl _, Nat.le_refl _⟩

/-! ## Letter case -/

/-- The characters that differ from `c` in letter case only. Letters are folded within ASCII, with
the Kelvin sign and the long s, which fold to `k` and `s`. -/
def caseVariants (c : Char) : List Char :=
  if c = 'k' ∨ c = 'K' ∨ c = '\u212a' then ['k', 'K', '\u212a']
  else if c = 's' ∨ c = 'S' ∨ c = '\u017f' then ['s', 'S', '\u017f']
  else if c.isUpper then [c, c.toLower]
  else if c.isLower then [c, c.toUpper]
  else [c]

/-- The characters that have other forms in letter case. -/
def casedChars : List Char :=
  "abcdefghijklmnopqrstuvwxyzABCDEFGHIJKLMNOPQRSTUVWXYZ\u017f\u212a".toList

/-- The class with the other forms of its characters. -/
def closeCase (k : CharClass) : CharClass :=
  let forms := casedChars.filter fun c => (caseVariants c).any k.mem
  ⟨forms.foldl (fun rs c => insert (c.toNat, c.toNat) rs) k.ranges⟩

end CharClass

/-! ## Entries of written classes -/

/-- The named properties of characters. -/
inductive CharProperty where
  | digit
  | blank
  | word
  deriving DecidableEq

/-- The characters that have a property. -/
def CharProperty.charClass : CharProperty → CharClass
  | .digit => ⟨Text.digitRanges⟩
  | .blank => ⟨Text.blankRanges⟩
  | .word => ⟨Text.wordRanges⟩

/-- One entry of a written class. -/
inductive ClassItem where
  | range (first last : Char)
  | property (which : CharProperty) (negated : Bool)
  deriving DecidableEq

/-- The characters that fall under an entry. -/
def ClassItem.charClass : ClassItem → CharClass
  | .range first last => ⟨[(first.toNat, last.toNat)]⟩
  | .property which negated => if negated then which.charClass.compl else which.charClass

/-- The class with some entries, up to letter case or not, and then as it stands or complemented. A
caseless negated class thus excludes both cases. -/
def CharClass.ofItems (items : List ClassItem) (caseless negated : Bool) : CharClass :=
  let listed := items.foldl (fun k item => k.union item.charClass) CharClass.none
  let folded := if caseless then listed.closeCase else listed
  if negated then folded.compl else folded

end PredictiveParsing
