import Mathlib.Data.List.Forall2
import PredictiveParsing.Proofs.Predict.Probing

/-!
# Reordering candidates and branches

A lookahead tries its candidates, or its branches, one after the other. Where two of them match at
one place the first is taken, and only there their order matters.

* `Lexicon.Clash`: two kinds match at the front of some text.
* `OptionalLookahead.holds_perm`: whether a candidate comes next does not depend on the order.
* `OptionalLookahead.matchingCandidate_perm`, `AlternativeLookahead.matchingBranch_perm`: which
  candidate or which branch comes next does not either, if those that clash keep their order.
* `AlternativeLookahead.matchingBranch_candidates`: nor on the order of candidates in branches.
-/

namespace PredictiveParsing

open Text

/-! ## The first of a list -/

/-- What is found first stands in front of everything else that could be found. -/
theorem eq_or_rel_of_find? {α : Type} {p : α → Bool} {R : α → α → Prop} {l : List α} {a b : α}
    (hl : l.Pairwise R) (hfind : l.find? p = some a) (hb : b ∈ l) (hpb : p b = true) :
    a = b ∨ R a b := by
  obtain ⟨-, before, behind, rfl, hbefore⟩ := List.find?_eq_some_iff_append.1 hfind
  rcases List.mem_append.1 hb with hb | hb
  · have hnot := hbefore b hb
    rw [hpb] at hnot
    cases hnot
  · rcases List.mem_cons.1 hb with rfl | hb
    · exact Or.inl rfl
    · exact Or.inr (List.rel_of_pairwise_cons (List.pairwise_append.1 hl).2.1 hb)

/-- A reordering that keeps those in order which could both be found finds the same. -/
theorem find?_eq_of_perm {α : Type} {p : α → Bool} {R : α → α → Prop} {l l' : List α}
    (hperm : l.Perm l') (hl : l.Pairwise R) (hl' : l'.Pairwise R)
    (h : ∀ a ∈ l, ∀ b ∈ l, p a = true → p b = true → R a b → R b a → a = b) :
    l.find? p = l'.find? p := by
  cases hfind : l.find? p with
  | none =>
    symm
    rw [List.find?_eq_none] at hfind ⊢
    exact fun b hb => hfind b (hperm.mem_iff.2 hb)
  | some a =>
    have ha := List.mem_of_find?_eq_some hfind
    have hpa := List.find?_some hfind
    have hsome : (l'.find? p).isSome = true :=
      List.find?_isSome.2 ⟨a, hperm.mem_iff.1 ha, hpa⟩
    obtain ⟨b, hfind'⟩ := Option.isSome_iff_exists.1 hsome
    have hb := hperm.mem_iff.2 (List.mem_of_find?_eq_some hfind')
    have hpb := List.find?_some hfind'
    rw [hfind']
    rcases eq_or_rel_of_find? hl hfind hb hpb with rfl | hab
    · rfl
    · rcases eq_or_rel_of_find? hl' hfind' (hperm.mem_iff.1 ha) hpa with rfl | hba
      · rfl
      · rw [h a ha b hb hpa hpb hab hba]

/-! ## Decisions -/

/-- Two kinds match at the front of some text. -/
def Lexicon.Clash (lexicon : Lexicon) (id id' : KindId) : Prop :=
  ∃ text, lexicon.sees text id = true ∧ lexicon.sees text id' = true

section

variable {ε : Type} {scanner : Scanner} {s : Store} (htrip : scanner.tripwire = none)
  (hlen : byteLength s.source < offsetLimit) (hoffset : s.offset ≤ byteLength s.source)

include htrip hlen hoffset

namespace OptionalLookahead

variable {kinds kinds' : List KindId}

theorem holds_perm (hperm : kinds.Perm kinds') :
    (holds ⟨⟨kinds⟩⟩ scanner s : Run Event Store ε Bool).exit =
      (holds ⟨⟨kinds'⟩⟩ scanner s : Run Event Store ε Bool).exit := by
  rw [holds_exit htrip hlen hoffset, holds_exit htrip hlen hoffset, hperm.any_eq]

theorem matchingCandidate_perm {R : KindId → KindId → Prop} (hperm : kinds.Perm kinds')
    (hkinds : kinds.Pairwise R) (hkinds' : kinds'.Pairwise R)
    (hclash : ∀ id ∈ kinds, ∀ id' ∈ kinds,
      scanner.lexicon.Clash id id' → R id id' → R id' id → id = id') :
    (matchingCandidate ⟨⟨kinds⟩⟩ scanner s : Run Event Store ε (Option KindId)).exit =
      (matchingCandidate ⟨⟨kinds'⟩⟩ scanner s : Run Event Store ε (Option KindId)).exit := by
  rw [matchingCandidate_exit htrip hlen hoffset, matchingCandidate_exit htrip hlen hoffset]
  refine congrArg Exit.ok (find?_eq_of_perm hperm hkinds hkinds' ?_)
  exact fun id hid id' hid' hsees hsees' => hclash id hid id' hid' ⟨_, hsees, hsees'⟩

end OptionalLookahead

namespace AlternativeLookahead

variable {branches branches' : List Candidates}

theorem matchingBranch_candidates
    (h : List.Forall₂ (fun branch branch' => branch.kinds.Perm branch'.kinds) branches branches') :
    (matchingBranch ⟨branches⟩ scanner s : Run Event Store ε (Option Nat)).exit =
      (matchingBranch ⟨branches'⟩ scanner s : Run Event Store ε (Option Nat)).exit := by
  rw [matchingBranch_exit htrip hlen hoffset, matchingBranch_exit htrip hlen hoffset]
  congr 1
  induction h with
  | nil => rfl
  | cons hperm _ ih => rw [List.findIdx?_cons, List.findIdx?_cons, hperm.any_eq, ih]

theorem matchingBranch_perm {R : Candidates → Candidates → Prop} (hperm : branches.Perm branches')
    (hbranches : branches.Pairwise R) (hbranches' : branches'.Pairwise R)
    (hclash : ∀ branch ∈ branches, ∀ branch' ∈ branches, ∀ id ∈ branch.kinds, ∀ id' ∈ branch'.kinds,
      scanner.lexicon.Clash id id' → R branch branch' → R branch' branch → branch = branch') :
    ∃ hit hit',
      (matchingBranch ⟨branches⟩ scanner s : Run Event Store ε (Option Nat)).exit = .ok hit ∧
      (matchingBranch ⟨branches'⟩ scanner s : Run Event Store ε (Option Nat)).exit = .ok hit' ∧
      hit.bind (branches[·]?) = hit'.bind (branches'[·]?) := by
  refine ⟨_, _, matchingBranch_exit htrip hlen hoffset _, matchingBranch_exit htrip hlen hoffset _,
    ?_⟩
  rw [← List.find?_eq_bind_findIdx?_getElem?, ← List.find?_eq_bind_findIdx?_getElem?]
  refine find?_eq_of_perm hperm hbranches hbranches' fun branch hbranch branch' hbranch' h h' => ?_
  obtain ⟨id, hid, hsees⟩ := List.any_eq_true.1 h
  obtain ⟨id', hid', hsees'⟩ := List.any_eq_true.1 h'
  exact hclash branch hbranch branch' hbranch' id hid id' hid' ⟨_, hsees, hsees'⟩

end AlternativeLookahead

end

end PredictiveParsing
