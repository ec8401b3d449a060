import PredictiveParsing.Proofs.Regex.CodeOrder

/-!
# Sequences in reduced form

A sequence is flat, and neighbouring literals in it are one literal. Neither changes where its
matches end. A sequence of literals, classes, conditions and greedy repetitions of single characters
stays one in reduced form; it is no choice, and its code has no empty rounds.

* `Regex.ends_concat`: a reduced sequence has the ends of its parts one after the other.
* `Regex.Straight`: sequences of this kind, with `Straight.concat` and `Straight.isSolid`.
* `Regex.oneOf?`: the class of an expression for one character.
-/

namespace PredictiveParsing

open Text

namespace Regex

/-! ## Ends of sequences -/

theorem ends_ofFactors_cons (r : Regex) (rs : List Regex) (p : Cursor) :
    (ofFactors (r :: rs)).ends p = (r.ends p).flatMap (ofFactors rs).ends := by
  cases rs with
  | nil => exact (List.flatMap_singleton' _).symm
  | cons s rs => rfl

theorem ends_ofFactors_append (rs ss : List Regex) (p : Cursor) :
    (ofFactors (rs ++ ss)).ends p = ((ofFactors rs).ends p).flatMap (ofFactors ss).ends := by
  induction rs generalizing p with
  | nil => exact (List.flatMap_singleton _ _).symm
  | cons r rs ih =>
    rw [List.cons_append, ends_ofFactors_cons, ends_ofFactors_cons, List.flatMap_assoc]
    exact Code.flatMap_congr_of_mem fun q _ => ih q

theorem ends_ofFactors_cons_congr {r r' : Regex} {rs rs' : List Regex} (hr : r.ends = r'.ends)
    (hrs : (ofFactors rs).ends = (ofFactors rs').ends) :
    (ofFactors (r :: rs)).ends = (ofFactors (r' :: rs')).ends := by
  funext p
  rw [ends_ofFactors_cons, ends_ofFactors_cons, hr, hrs]

theorem literalEnds_append (text more : Text) (p : Cursor) :
    literalEnds (text ++ more) p = (literalEnds text p).flatMap (literalEnds more) := by
  induction text generalizing p with
  | nil => exact (List.flatMap_singleton _ _).symm
  | cons c text ih =>
    rw [List.cons_append, literalEnds, literalEnds]
    split
    · rfl
    · split
      · exact ih _
      · rfl

/-- Literals of one character each match their text together. -/
theorem ends_ofFactors_literals (text : Text) (rs : List Regex) (p : Cursor) :
    (ofFactors (text.map (fun c => .literal [c]) ++ rs)).ends p =
      (literalEnds text p).flatMap (ofFactors rs).ends := by
  induction text generalizing p with
  | nil => exact (List.flatMap_singleton _ _).symm
  | cons c text ih =>
    have happend : literalEnds (c :: text) p = (literalEnds [c] p).flatMap (literalEnds text) :=
      literalEnds_append [c] text p
    rw [List.map_cons, List.cons_append, ends_ofFactors_cons, ends, happend, List.flatMap_assoc]
    exact Code.flatMap_congr_of_mem fun q _ => ih q

theorem ends_ofFactors_factors (r : Regex) : (ofFactors r.factors).ends = r.ends := by
  induction r with
  | seq r s _ ih =>
    funext p
    rw [factors, ends_ofFactors_cons, ih]
    rfl
  | _ => rfl

/-- Two literals that become one have the same ends together. -/
theorem ends_ofFactors_prepend (r : Regex) (rs : List Regex) :
    (ofFactors (prepend r rs)).ends = (ofFactors (r :: rs)).ends := by
  funext p
  unfold prepend
  split
  · rename_i t u rest
    rw [ends_ofFactors_cons, ends_ofFactors_cons, ends, ends, literalEnds_append,
      List.flatMap_assoc]
    exact Code.flatMap_congr_of_mem fun q _ => (ends_ofFactors_cons (.literal u) rest q).symm
  · rfl

theorem ends_ofFactors_foldr_prepend (fs : List Regex) :
    (ofFactors (fs.foldr prepend [])).ends = (ofFactors fs).ends := by
  induction fs with
  | nil => rfl
  | cons f fs ih =>
    rw [List.foldr_cons, ends_ofFactors_prepend]
    exact ends_ofFactors_cons_congr rfl ih

/-- A reduced sequence has the ends of its parts one after the other. -/
theorem ends_concat (rs : List Regex) : (concat rs).ends = (ofFactors rs).ends := by
  rw [concat, ends_ofFactors_foldr_prepend]
  induction rs with
  | nil => rfl
  | cons r rs ih =>
    funext p
    rw [List.flatMap_cons, ends_ofFactors_append, ends_ofFactors_factors, ends_ofFactors_cons, ih]

/-! ## Single characters -/

/-- The class of an expression that stands for one character. -/
def oneOf? : Regex → Option CharClass
  | .chars k => some k
  | .literal [c] => some (CharClass.singleton c)
  | _ => none

theorem oneOf?_cases {r : Regex} {k : CharClass} (h : r.oneOf? = some k) :
    r = .chars k ∨ ∃ c, r = .literal [c] ∧ k = CharClass.singleton c := by
  unfold oneOf? at h
  split at h
  · cases h
    exact Or.inl rfl
  · rename_i c
    cases h
    exact Or.inr ⟨c, rfl, rfl⟩
  · cases h

theorem ends_of_oneOf? {r : Regex} {k : CharClass} (h : r.oneOf? = some k) :
    r.ends = (Regex.chars k).ends := by
  rcases oneOf?_cases h with rfl | ⟨c, rfl, rfl⟩
  · rfl
  · funext p
    simp only [ends, literalEnds, CharClass.mem_singleton]

theorem codeLength_pos (n : Nat) : 0 < codeLength n := by
  unfold codeLength
  split
  · exact Nat.one_pos
  · split
    · exact Nat.two_pos
    · split <;> decide

/-- A repetition of single characters is one in reduced form. -/
theorem repeated_of_oneOf? {r : Regex} {k : CharClass} (h : r.oneOf? = some k) (greedy : Bool) :
    r.repeated 0 none greedy = .repeat r 0 none greedy := by
  have hlength : r.maxLength ≠ some 0 := by
    rcases oneOf?_cases h with rfl | ⟨c, rfl, -⟩
    · intro hzero
      obtain ⟨range, -, hrange⟩ := Option.map_eq_some_iff.1 hzero
      exact Nat.ne_of_gt (codeLength_pos _) hrange
    · intro hzero
      exact absurd (byteLength_eq_zero_iff.1 (Option.some.inj hzero)) (List.cons_ne_nil c [])
  rw [repeated, if_neg hlength]
  rfl

/-! ## Sequences without choices -/

/-- Whether an expression is a literal, a class, a condition or a greedy repetition of single
characters. -/
def isAtom : Regex → Bool
  | .literal _ | .chars _ | .look _ => true
  | .repeat r 0 none true => r.oneOf?.isSome
  | _ => false

/-- Whether an expression is a sequence of literals, classes, conditions and greedy repetitions of
single characters. -/
def Straight (r : Regex) : Prop := ∀ f ∈ r.factors, f.isAtom = true

variable {r : Regex}

theorem factors_of_isAtom (h : r.isAtom = true) : r.factors = [r] := by
  cases r with
  | empty => cases h
  | seq r s => cases h
  | _ => rfl

theorem straight_of_isAtom (h : r.isAtom = true) : r.Straight := by
  rw [Straight, factors_of_isAtom h]
  exact List.forall_mem_singleton.2 h

theorem isAtom_of_oneOf? {k : CharClass} (h : r.oneOf? = some k) : r.isAtom = true := by
  rcases oneOf?_cases h with rfl | ⟨c, rfl, -⟩ <;> rfl

theorem isAtom_repeat {k : CharClass} (h : r.oneOf? = some k) :
    (Regex.repeat r 0 none true).isAtom = true :=
  Option.isSome_iff_exists.2 ⟨k, h⟩

theorem isAtom_of_mem_prepend {rs : List Regex} (hr : r.isAtom = true)
    (hrs : ∀ f ∈ rs, f.isAtom = true) : ∀ f ∈ prepend r rs, f.isAtom = true := by
  unfold prepend
  split
  · exact List.forall_mem_cons.2 ⟨rfl, (List.forall_mem_cons.1 hrs).2⟩
  · exact List.forall_mem_cons.2 ⟨hr, hrs⟩

theorem isAtom_of_mem_foldr_prepend {fs : List Regex} (h : ∀ f ∈ fs, f.isAtom = true) :
    ∀ f ∈ fs.foldr prepend [], f.isAtom = true := by
  induction fs with
  | nil => exact h
  | cons f fs ih =>
    obtain ⟨hf, hfs⟩ := List.forall_mem_cons.1 h
    exact isAtom_of_mem_prepend hf (ih hfs)

theorem factors_ofFactors {fs : List Regex} (h : ∀ f ∈ fs, f.isAtom = true) :
    (ofFactors fs).factors = fs := by
  induction fs with
  | nil => rfl
  | cons f fs ih =>
    obtain ⟨hf, hfs⟩ := List.forall_mem_cons.1 h
    cases fs with
    | nil => exact factors_of_isAtom hf
    | cons g fs => rw [ofFactors, factors, ih hfs]; simp

namespace Straight

/-- A reduced sequence of such sequences is one. -/
theorem concat {rs : List Regex} (h : ∀ r ∈ rs, r.Straight) : (concat rs).Straight := by
  have hatoms : ∀ f ∈ rs.flatMap factors, f.isAtom = true := by
    intro f hf
    obtain ⟨r, hr, hf⟩ := List.mem_flatMap.1 hf
    exact h r hr f hf
  have hreduced := isAtom_of_mem_foldr_prepend hatoms
  rw [Straight, Regex.concat, factors_ofFactors hreduced]
  exact hreduced

/-- Such a sequence is no choice. -/
theorem branches (h : r.Straight) : r.branches = [r] := by
  cases r with
  | alt r s => exact absurd (h _ List.mem_cons_self) Bool.false_ne_true
  | _ => rfl

end Straight

/-- The choice between a single branch is no choice. -/
theorem alternation_singleton (h : r.branches = [r]) : alternation [r] = r := by
  have hflat : [r].flatMap branches = [r] := by rw [List.flatMap_singleton, h]
  have hlift : liftStart [r] = none := by
    rw [liftStart, List.mapM_cons]
    cases r.sequence? <;> rfl
  rw [alternation, hflat, hlift]
  cases jointClass [r] <;> rfl

end Regex

/-! ## Code -/

namespace Code

open Regex

theorem isSolid_ofText (text : Text) (n : Nat) : ((ofText text).run n).1.isSolid = true := by
  induction text generalizing n with
  | nil => rfl
  | cons c text ih =>
    have hrun : ((ofText (c :: text)).run n).1 =
        (Code.chars n (CharClass.singleton c)).andThen ((ofText text).run (n + 1)).1 := rfl
    rw [hrun, isSolid_andThen, ih]
    rfl

/-- The rounds of a repetition of single characters are not empty. -/
theorem isSolid_repeat {r : Regex} {k : CharClass} (h : r.oneOf? = some k) (n : Nat) :
    ((ofRegex (.repeat r 0 none true)).run n).1.isSolid = true := by
  have hbody (n : Nat) : (ofRegex r).run n = (.chars n k, n + 1) := by
    rcases oneOf?_cases h with rfl | ⟨c, rfl, rfl⟩ <;> rfl
  rw [ofRegex]
  cases r.minLength.any (0 < ·) with
  | true =>
    show (Code.loop n ((ofRegex r).run (n + 1)).1 true).isSolid = true
    rw [hbody]
    rfl
  | false =>
    show (Code.fork n (.seq ((ofRegex r).run (n + 2)).1
      (.loop (n + 1) ((ofRegex r).run (n + 2)).1 true)) .empty).isSolid = true
    rw [hbody]
    rfl

theorem isSolid_of_isAtom {r : Regex} (h : r.isAtom = true) (n : Nat) :
    ((ofRegex r).run n).1.isSolid = true := by
  unfold isAtom at h
  split at h
  · exact isSolid_ofText _ n
  · rfl
  · rfl
  · obtain ⟨k, hk⟩ := Option.isSome_iff_exists.1 h
    exact isSolid_repeat hk n
  · cases h

end Code

/-- A sequence without choices has code without empty rounds. -/
theorem Regex.Straight.isSolid {r : Regex} (h : r.Straight) (n : Nat) :
    ((Code.ofRegex r).run n).1.isSolid = true := by
  induction r generalizing n with
  | empty => rfl
  | seq r s _ ih =>
    obtain ⟨hr, hs⟩ := List.forall_mem_cons.1 h
    have hrun : ((Code.ofRegex (.seq r s)).run n).1 =
        ((Code.ofRegex r).run n).1.andThen
          ((Code.ofRegex s).run ((Code.ofRegex r).run n).2).1 := rfl
    rw [hrun, Code.isSolid_andThen, Code.isSolid_of_isAtom hr, ih hs]
    rfl
  | _ => exact Code.isSolid_of_isAtom (h _ List.mem_cons_self) n

end PredictiveParsing
