import Mathlib.Logic.Function.Iterate
import PredictiveParsing.Proofs.Regex.Order

/-!
# Code matches in the order of its expression

The code of an expression writes out its repetitions. As long as no round of a loop is empty, the
code has the same ends as the expression, in the same order, so its matcher finds the leftmost match
that the expression prefers. A pattern whose reduction keeps the ends is matched leftmost first.

* `Code.ends_ofRegex`: the ends of the code are those of the expression.
* `Regex.leftmostFirst_of_read`: when a pattern is matched in the order in which it is written.
-/

namespace PredictiveParsing

open Text

namespace Code

open Regex

variable {round : Cursor → List Cursor} {greedy : Bool}

/-! ## Sequences and texts -/

/-- Parts are put together as a sequence, unless one of them is empty. -/
theorem andThen_cases (r s : Code) :
    (r = .empty ∧ r.andThen s = s) ∨ (s = .empty ∧ r.andThen s = r) ∨ r.andThen s = .seq r s := by
  cases r <;> cases s <;> simp [andThen]

theorem ends_andThen (r s : Code) (p : Cursor) :
    (r.andThen s).ends p = (r.ends p).flatMap s.ends := by
  rcases andThen_cases r s with ⟨rfl, h⟩ | ⟨rfl, h⟩ | h
  · rw [h, ends, List.flatMap_singleton]
  · rw [h]
    exact (List.flatMap_singleton' _).symm
  · rw [h, ends]

theorem isSolid_andThen (r s : Code) : (r.andThen s).isSolid = (r.isSolid && s.isSolid) := by
  rcases andThen_cases r s with ⟨rfl, h⟩ | ⟨rfl, h⟩ | h <;> simp [h, isSolid]

theorem ends_ofText (text : Text) (n : Nat) (p : Cursor) :
    ((ofText text).run n).1.ends p = literalEnds text p := by
  induction text generalizing n p with
  | nil => rfl
  | cons c text ih =>
    have hrun : ((ofText (c :: text)).run n).1 =
        (Code.chars n (CharClass.singleton c)).andThen ((ofText text).run (n + 1)).1 := rfl
    rw [hrun, ends_andThen, literalEnds, ends]
    cases p.rest with
    | nil => rfl
    | cons d rest =>
      simp only [CharClass.mem_singleton]
      split
      · rw [List.flatMap_singleton, ih]
      · rfl

/-! ## Repetitions -/

/-- What comes behind one round. -/
def afterRound (round : Cursor → List Cursor) (last : Cursor → List Cursor) (p : Cursor) :
    List Cursor :=
  (round p).flatMap last

/-- What comes behind one round or none. -/
def optionally (round : Cursor → List Cursor) (greedy : Bool) (last : Cursor → List Cursor)
    (p : Cursor) : List Cursor :=
  if greedy then (round p).flatMap last ++ [p] else p :: (round p).flatMap last

theorem iterate_afterRound (round last : Cursor → List Cursor) (n : Nat) (p : Cursor) :
    (afterRound round)^[n] last p = (times round n p).flatMap last := by
  induction n generalizing p with
  | zero => simp [times]
  | succ n ih =>
    rw [Function.iterate_succ_apply', afterRound, times, List.flatMap_assoc]
    exact flatMap_congr_of_mem fun next _ => ih next

theorem times_succ (round : Cursor → List Cursor) (n : Nat) (p : Cursor) :
    times round (n + 1) p = (times round n p).flatMap round := by
  induction n generalizing p with
  | zero =>
    rw [times, times, List.flatMap_singleton]
    exact List.flatMap_singleton' _
  | succ n ih =>
    rw [times, times, List.flatMap_assoc]
    exact flatMap_congr_of_mem fun next _ => ih next

theorem iterate_optionally (round : Cursor → List Cursor) (greedy : Bool) (n : Nat) (p : Cursor) :
    (optionally round greedy)^[n] (fun p => [p]) p = atMost round greedy n p := by
  induction n generalizing p with
  | zero => rfl
  | succ n ih =>
    have hmore : (round p).flatMap ((optionally round greedy)^[n] fun p => [p]) =
        (round p).flatMap (atMost round greedy n) :=
      flatMap_congr_of_mem fun next _ => ih next
    rw [Function.iterate_succ_apply', optionally, hmore, atMost]

variable {body : StateM Nat Code}

theorem isSolid_of_copies {k n : Nat} (last : Code)
    (h : ((copies body k last).run n).1.isSolid = true) : last.isSolid = true := by
  induction k generalizing n last with
  | zero => exact h
  | succ k ih =>
    have hboth := ih ((body.run n).1.andThen last) (n := (body.run n).2) h
    rw [isSolid_andThen, Bool.and_eq_true] at hboth
    exact hboth.2

theorem ends_copies
    (hbody : ∀ n, (body.run n).1.isSolid = true → (body.run n).1.ends = round) {k n : Nat}
    (last : Code) (h : ((copies body k last).run n).1.isSolid = true) :
    ((copies body k last).run n).1.ends = (afterRound round)^[k] last.ends := by
  induction k generalizing n last with
  | zero => rfl
  | succ k ih =>
    have hlast := isSolid_of_copies ((body.run n).1.andThen last) (n := (body.run n).2) h
    rw [isSolid_andThen, Bool.and_eq_true] at hlast
    have hfirst : ((body.run n).1.andThen last).ends = afterRound round last.ends := by
      funext p
      rw [ends_andThen, hbody n hlast.1]
      rfl
    have hcopies := ih ((body.run n).1.andThen last) (n := (body.run n).2) h
    rw [hfirst] at hcopies
    exact hcopies

theorem isSolid_optional (label : Nat) (r : Code) (greedy : Bool) :
    (optional label r greedy).isSolid = r.isSolid := by
  cases greedy <;> simp [optional, isSolid]

theorem ends_optional (label : Nat) (r : Code) (greedy : Bool) (p : Cursor) :
    (optional label r greedy).ends p = if greedy then r.ends p ++ [p] else p :: r.ends p := by
  cases greedy <;> rfl

theorem isSolid_of_upTo {k n : Nat} (last : Code)
    (h : ((upTo body greedy k last).run n).1.isSolid = true) : last.isSolid = true := by
  induction k generalizing n last with
  | zero => exact h
  | succ k ih =>
    have hboth := ih (optional n ((body.run (n + 1)).1.andThen last) greedy)
      (n := (body.run (n + 1)).2) h
    rw [isSolid_optional, isSolid_andThen, Bool.and_eq_true] at hboth
    exact hboth.2

theorem ends_upTo
    (hbody : ∀ n, (body.run n).1.isSolid = true → (body.run n).1.ends = round) {k n : Nat}
    (last : Code) (h : ((upTo body greedy k last).run n).1.isSolid = true) :
    ((upTo body greedy k last).run n).1.ends = (optionally round greedy)^[k] last.ends := by
  induction k generalizing n last with
  | zero => rfl
  | succ k ih =>
    have hlast := isSolid_of_upTo (optional n ((body.run (n + 1)).1.andThen last) greedy)
      (n := (body.run (n + 1)).2) h
    rw [isSolid_optional, isSolid_andThen, Bool.and_eq_true] at hlast
    have hfirst : (optional n ((body.run (n + 1)).1.andThen last) greedy).ends =
        optionally round greedy last.ends := by
      funext p
      rw [ends_optional, ends_andThen, hbody (n + 1) hlast.1]
      rfl
    have hupTo := ih (optional n ((body.run (n + 1)).1.andThen last) greedy)
      (n := (body.run (n + 1)).2) h
    rw [hfirst] at hupTo
    exact hupTo

/-- A loop whose rounds read something goes round any number of times. -/
theorem ends_loop_eq_anyNumber {label : Nat} {r : Code} (hr : r.consumes = true) (p : Cursor) :
    (Code.loop label r greedy).ends p = anyNumber r.ends greedy p.rest.length p := by
  have hiterate (n : Nat) (p : Cursor) :
      iterate r.ends greedy n p = anyNumber r.ends greedy n p := by
    induction n generalizing p with
    | zero => rfl
    | succ n ih =>
      have hmore : ((r.ends p).flatMap fun next =>
          if next.rest.length < p.rest.length then iterate r.ends greedy n next else []) =
          (r.ends p).flatMap fun next =>
            if next.rest.length < p.rest.length then anyNumber r.ends greedy n next
            else [next] := by
        refine flatMap_congr_of_mem fun next hnext => ?_
        rw [if_pos (length_lt_of_mem_ends hr hnext), if_pos (length_lt_of_mem_ends hr hnext), ih]
      rw [iterate, anyNumber, hmore]
  exact hiterate _ p

/-- A loop behind a first round goes round at least once. -/
theorem ends_rounds
    (hbody : ∀ n, (body.run n).1.isSolid = true → (body.run n).1.ends = round) {n : Nat}
    (h : ((rounds body greedy).run n).1.isSolid = true) (p : Cursor) :
    ((rounds body greedy).run n).1.ends p =
        (round p).flatMap (optionalEnds round 1 none greedy) ∧
      (if greedy then ((rounds body greedy).run n).1.ends p ++ [p]
        else p :: ((rounds body greedy).run n).1.ends p) = optionalEnds round 0 none greedy p := by
  have hrun : ((rounds body greedy).run n).1 =
      .seq (body.run (n + 1)).1 (.loop n (body.run (n + 1)).1 greedy) := rfl
  rw [hrun] at h ⊢
  simp only [isSolid, Bool.and_eq_true] at h
  obtain ⟨hsolid, hconsumes, _⟩ := h
  have hloop (q : Cursor) : (Code.loop n (body.run (n + 1)).1 greedy).ends q =
      anyNumber round greedy q.rest.length q := by
    rw [ends_loop_eq_anyNumber hconsumes, hbody _ hsolid]
  refine ⟨?_, ?_⟩
  · rw [ends, hbody _ hsolid]
    exact flatMap_congr_of_mem fun q _ => hloop q
  · rw [ends, ← ends_loop hconsumes]
    exact hloop p

theorem ends_repetition
    (hbody : ∀ n, (body.run n).1.isSolid = true → (body.run n).1.ends = round) {consuming : Bool}
    {low n : Nat} {high : Option Nat}
    (h : ((repetition body consuming low high greedy).run n).1.isSolid = true) (p : Cursor) :
    ((repetition body consuming low high greedy).run n).1.ends p =
      (times round low p).flatMap (optionalEnds round low high greedy) := by
  cases high with
  | some high =>
    have hrun : ((repetition body consuming low (some high) greedy).run n).1 =
        ((copies body low ((upTo body greedy (high - low) .empty).run n).1).run
          ((upTo body greedy (high - low) .empty).run n).2).1 := by
      cases low <;> rfl
    rw [hrun] at h ⊢
    have hupTo := isSolid_of_copies _ h
    rw [ends_copies hbody _ h, iterate_afterRound, ends_upTo hbody _ hupTo]
    exact flatMap_congr_of_mem fun q _ => iterate_optionally round greedy _ q
  | none =>
    cases low with
    | zero =>
      rw [times, List.flatMap_singleton]
      cases consuming with
      | true =>
        have hrun : ((repetition body true 0 none greedy).run n).1 =
            .loop n (body.run (n + 1)).1 greedy := rfl
        rw [hrun] at h ⊢
        simp only [isSolid, Bool.and_eq_true] at h
        rw [ends_loop_eq_anyNumber h.1, hbody _ h.2]
        rfl
      | false =>
        have hrun : ((repetition body false 0 none greedy).run n).1 =
            optional n ((rounds body greedy).run (n + 1)).1 greedy := rfl
        rw [hrun] at h ⊢
        rw [isSolid_optional] at h
        rw [ends_optional]
        exact (ends_rounds hbody h p).2
    | succ low =>
      have hrun : ((repetition body consuming (low + 1) none greedy).run n).1 =
          ((copies body low ((rounds body greedy).run n).1).run ((rounds body greedy).run n).2).1 :=
        rfl
      rw [hrun] at h ⊢
      have hrounds := isSolid_of_copies _ h
      rw [ends_copies hbody _ h, iterate_afterRound, times_succ, List.flatMap_assoc]
      exact flatMap_congr_of_mem fun q _ => (ends_rounds hbody hrounds q).1

/-! ## Expressions -/

/-- The code of an expression has the same ends as the expression, in the same order. -/
theorem ends_ofRegex {r : Regex} {n : Nat} (h : ((ofRegex r).run n).1.isSolid = true) :
    ((ofRegex r).run n).1.ends = r.ends := by
  induction r generalizing n with
  | empty => rfl
  | literal text => exact funext fun p => ends_ofText text n p
  | chars k => rfl
  | look a => rfl
  | group _ r ih => exact ih h
  | seq r s ihr ihs =>
    have hrun : ((ofRegex (.seq r s)).run n).1 =
        ((ofRegex r).run n).1.andThen ((ofRegex s).run ((ofRegex r).run n).2).1 := rfl
    rw [hrun] at h ⊢
    rw [isSolid_andThen, Bool.and_eq_true] at h
    funext p
    rw [ends_andThen, ihr h.1, ihs h.2]
    rfl
  | alt r s ihr ihs =>
    have hrun : ((ofRegex (.alt r s)).run n).1 =
        .fork n ((ofRegex r).run (n + 1)).1 ((ofRegex s).run ((ofRegex r).run (n + 1)).2).1 := rfl
    rw [hrun] at h ⊢
    simp only [isSolid, Bool.and_eq_true] at h
    funext p
    rw [ends, ihr h.1, ihs h.2]
    rfl
  | «repeat» r low high greedy ih =>
    exact funext fun p => ends_repetition (fun _ => ih) h p

/-- Code that is tied to the start of the text does not match behind it. -/
theorem ends_of_isAnchored {r : Code} (hr : r.isAnchored = true) {p : Cursor}
    (hp : p.before.isSome) : r.ends p = [] := by
  induction r with
  | look a =>
    have ha : a = .textStart := by simpa [isAnchored] using hr
    obtain ⟨c, hc⟩ := Option.isSome_iff_exists.1 hp
    simp [ends, ha, Assertion.holds, hc]
  | seq r s ih _ => rw [ends, ih hr, List.flatMap_nil]
  | fork _ r s ihr ihs =>
    rw [isAnchored, Bool.and_eq_true] at hr
    rw [ends, ihr hr.1, ihs hr.2, List.append_nil]
  | _ => cases hr

end Code

/-! ## Matchers -/

namespace Matcher

/-- The matcher of an expression with solid code finds the leftmost match of the expression. -/
theorem find_ofRegex {r : Regex} (h : (ofRegex r).code.isSolid = true) (text : Text) :
    (ofRegex r).find text = r.leftmost text := by
  have hmatch (p : Cursor) : (ofRegex r).matchFrom p = (r.ends p).head? := by
    rw [matchFrom_eq_head? h]
    exact congrArg (fun f => (f p).head?) (Code.ends_ofRegex h)
  have hanchored (hm : (ofRegex r).anchored = true) (passed : Nat) (c : Char) (text : Text) :
      r.leftmostFrom passed (some c) text = none := by
    have hends (p : Cursor) (hp : p.before.isSome) : r.ends p = [] := by
      rw [← Code.ends_ofRegex h]
      exact Code.ends_of_isAnchored hm hp
    induction text generalizing passed c with
    | nil => rw [Regex.leftmostFrom, hends _ rfl]; rfl
    | cons d text ih =>
      rw [Regex.leftmostFrom, hends _ rfl]
      exact ih _ d
  have hfrom (passed : Nat) (before : Option Char) :
      (ofRegex r).findFrom passed before text = r.leftmostFrom passed before text := by
    induction text generalizing passed before with
    | nil => rw [findFrom, Regex.leftmostFrom, hmatch]
    | cons c text ih =>
      rw [findFrom, Regex.leftmostFrom, hmatch]
      cases (r.ends ⟨passed, before, c :: text⟩).head? with
      | some q => rfl
      | none =>
        simp only
        split
        · rename_i hm
          exact (hanchored hm _ c text).symm
        · exact ih _ (some c)
  exact hfrom 0 none

end Matcher

/-- A pattern whose expression has the same ends as its written form is matched leftmost first, if
its code is solid. -/
theorem Regex.leftmostFirst_of_read {pattern : Text} {r written : Regex}
    (hread : Regex.read pattern = .ok r) (hwritten : Regex.written? pattern = some written)
    (hends : r.ends = written.ends) (hsolid : (Matcher.ofRegex r).code.isSolid = true) :
    Regex.LeftmostFirst pattern := by
  intro m written' hm hwritten' text
  obtain ⟨r', hread', rfl⟩ := Matcher.read_ok hm
  rw [hread] at hread'
  cases hread'
  rw [hwritten] at hwritten'
  cases hwritten'
  exact (Matcher.find_ofRegex hsolid text).trans (leftmost_congr hends text)

end PredictiveParsing
