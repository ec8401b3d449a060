import Mathlib.Data.List.Forall2
import PredictiveParsing.Proofs.Predict.Probing

/-!
# Sequences that make lookaheads

A lookahead is made of branches of sequences of kinds. They are read from left to right, branch by
branch, up to the first fault: a sequence that is no single kind, a kind that the lexicon does not
define or passes over, or a branch without sequences. The place of a fault counts in some of the
errors, so both readings number what they read.

* `Numbered.ok_iff`, `Numbered.error_iff`: a numbered reading succeeds item by item, or ends with
  the error of the first item that has one.
* `Candidates.ofSequences_ok_iff`, `Candidates.ofSequences_error_iff`: one branch.
* `AlternativeLookahead.pairwise_expected`: the order in which kinds are expected.
* `AlternativeLookahead.ofSequences_exact`: which branches make a lookahead, which fault is
  reported, and what the lookahead holds.
-/

namespace PredictiveParsing

/-! ## Numbered readings -/

/-- Whether `run` reads a list from left to right by `step`, which is given the number of each item,
up to the first error. An item that is admitted gives what `item` makes it of, whatever its
number. -/
structure Numbered {ε α β : Type} (step : Nat → α → Except ε β)
    (run : Nat → List α → Except ε (List β)) (Admitted : α → Prop) (item : β → α) : Prop where
  nil : ∀ n, run n [] = .ok []
  cons : ∀ n a rest, run n (a :: rest) =
    (step n a).bind fun b => (run (n + 1) rest).map (b :: ·)
  step_ok_iff : ∀ {n a b}, step n a = .ok b ↔ Admitted a ∧ a = item b
  exists_item : ∀ {a}, Admitted a → ∃ b, a = item b

namespace Numbered

variable {ε α β γ : Type} {step : Nat → α → Except ε β} {run : Nat → List α → Except ε (List β)}
  {Admitted : α → Prop} {item : β → α} {n : Nat} {as : List α} {e e₀ : ε}

theorem ok_iff (h : Numbered step run Admitted item) {bs : List β} :
    run n as = .ok bs ↔ (∀ a ∈ as, Admitted a) ∧ as = bs.map item := by
  induction as generalizing n bs with
  | nil => simp [h.nil, eq_comm]
  | cons a rest ih =>
    rw [h.cons, List.forall_mem_cons]
    constructor
    · intro hrun
      cases ha : step n a with
      | error e =>
        rw [ha] at hrun
        cases hrun
      | ok b =>
        rw [ha] at hrun
        cases hrest : run (n + 1) rest with
        | error e =>
          rw [Except.bind, hrest] at hrun
          cases hrun
        | ok cs =>
          rw [Except.bind, hrest] at hrun
          cases hrun
          obtain ⟨hadmitted, rfl⟩ := h.step_ok_iff.1 ha
          obtain ⟨hall, rfl⟩ := ih.1 hrest
          exact ⟨⟨hadmitted, hall⟩, rfl⟩
    · rintro ⟨⟨hadmitted, hall⟩, heq⟩
      obtain ⟨b, cs, rfl, ha, hrest⟩ := List.map_eq_cons_iff.1 heq.symm
      rw [h.step_ok_iff.2 ⟨hadmitted, ha.symm⟩, Except.bind, ih.2 ⟨hall, hrest.symm⟩]
      rfl

theorem exists_items (h : Numbered step run Admitted item) (hall : ∀ a ∈ as, Admitted a) :
    ∃ bs : List β, as = bs.map item := by
  induction as with
  | nil => exact ⟨[], rfl⟩
  | cons a rest ih =>
    obtain ⟨hadmitted, hrest⟩ := List.forall_mem_cons.1 hall
    obtain ⟨b, rfl⟩ := h.exists_item hadmitted
    obtain ⟨bs, rfl⟩ := ih hrest
    exact ⟨b :: bs, rfl⟩

theorem run_eq_error (h : Numbered step run Admitted item) {before after : List α} {a : α}
    (hbefore : ∀ x ∈ before, Admitted x) (ha : step (n + before.length) a = .error e) :
    run n (before ++ a :: after) = .error e := by
  induction before generalizing n with
  | nil =>
    rw [List.length_nil, Nat.add_zero] at ha
    rw [List.nil_append, h.cons, ha]
    rfl
  | cons x before ih =>
    obtain ⟨hadmitted, hbefore⟩ := List.forall_mem_cons.1 hbefore
    obtain ⟨b, hb⟩ := h.exists_item hadmitted
    rw [List.length_cons, ← Nat.add_assoc, Nat.add_right_comm] at ha
    rw [List.cons_append, h.cons, h.step_ok_iff.2 ⟨hadmitted, hb⟩, Except.bind, ih hbefore ha]
    rfl

/-- A reading that fails does so with the error of an item that stands behind admitted ones. -/
theorem error_iff (h : Numbered step run Admitted item) :
    run n as = .error e ↔ ∃ before a after, as = before ++ a :: after ∧
      (∀ x ∈ before, Admitted x) ∧ step (n + before.length) a = .error e := by
  constructor
  · intro hrun
    induction as generalizing n with
    | nil => cases (h.nil n).symm.trans hrun
    | cons a rest ih =>
      rw [h.cons] at hrun
      cases ha : step n a with
      | error e' =>
        rw [ha] at hrun
        cases hrun
        exact ⟨[], a, rest, rfl, fun x hx => absurd hx List.not_mem_nil, ha⟩
      | ok b =>
        rw [ha, Except.bind] at hrun
        have hrest : run (n + 1) rest = .error e := by
          cases hrest : run (n + 1) rest with
          | error e' =>
            rw [hrest] at hrun
            exact congrArg Except.error (Except.error.inj hrun)
          | ok bs =>
            rw [hrest] at hrun
            cases hrun
        obtain ⟨before, x, after, rfl, hbefore, hx⟩ := ih hrest
        refine ⟨a :: before, x, after, rfl,
          List.forall_mem_cons.2 ⟨(h.step_ok_iff.1 ha).1, hbefore⟩, ?_⟩
        rwa [List.length_cons, ← Nat.add_assoc, Nat.add_right_comm]
  · rintro ⟨before, a, after, rfl, hbefore, ha⟩
    exact h.run_eq_error hbefore ha

/-- What is made of a list in which there has to be an item. -/
def nonempty (run : Nat → List α → Except ε (List β)) (e₀ : ε) (make : List β → γ)
    (as : List α) : Except ε γ :=
  (run 0 as).bind fun bs => if bs.isEmpty then .error e₀ else .ok (make bs)

variable {make : List β → γ}

theorem nonempty_of_ok {bs : List β} (h : run 0 as = .ok bs) :
    nonempty run e₀ make as = if bs.isEmpty then .error e₀ else .ok (make bs) := by
  rw [nonempty, h]
  rfl

theorem nonempty_of_error (h : run 0 as = .error e) : nonempty run e₀ make as = .error e := by
  rw [nonempty, h]
  rfl

theorem nonempty_ok_iff (h : Numbered step run Admitted item) (hmake : make.Injective)
    {bs : List β} :
    nonempty run e₀ make as = .ok (make bs) ↔
      (as ≠ [] ∧ ∀ a ∈ as, Admitted a) ∧ as = bs.map item := by
  rw [and_assoc, ← h.ok_iff (n := 0)]
  cases hrun : run 0 as with
  | error e =>
    rw [nonempty_of_error hrun]
    simp
  | ok cs =>
    obtain ⟨-, rfl⟩ := h.ok_iff.1 hrun
    rw [nonempty_of_ok hrun]
    cases cs <;> simp [hmake.eq_iff]

theorem nonempty_error_iff (h : Numbered step run Admitted item) :
    nonempty run e₀ make as = .error e ↔ (as = [] ∧ e₀ = e) ∨ ∃ before a after,
      as = before ++ a :: after ∧ (∀ x ∈ before, Admitted x) ∧
        step before.length a = .error e := by
  have herror : run 0 as = .error e ↔ _ := h.error_iff
  simp only [Nat.zero_add] at herror
  rw [← herror]
  cases hrun : run 0 as with
  | error e' =>
    rw [nonempty_of_error hrun, Except.error.injEq, Except.error.injEq]
    refine ⟨Or.inr, ?_⟩
    rintro (⟨rfl, -⟩ | he)
    · cases (h.nil 0).symm.trans hrun
    · exact he
  | ok cs =>
    obtain ⟨-, rfl⟩ := h.ok_iff.1 hrun
    rw [nonempty_of_ok hrun]
    cases cs <;> simp

end Numbered

/-! ## Faults -/

namespace Lexicon

/-- Whether a lookahead may look for a kind: it is defined and not passed over. -/
def Admits (lexicon : Lexicon) (id : KindId) : Prop :=
  ∃ kind, lexicon.get? id = some kind ∧ kind.flags.skipped = false

/-- Whether a sequence is a single kind that a lookahead may look for. -/
def AdmitsSequence (lexicon : Lexicon) (sequence : List KindId) : Prop :=
  ∃ id, sequence = [id] ∧ lexicon.Admits id

/-- Whether sequences make a branch. -/
def AdmitsBranch (lexicon : Lexicon) (sequences : List (List KindId)) : Prop :=
  sequences ≠ [] ∧ ∀ sequence ∈ sequences, lexicon.AdmitsSequence sequence

/-- The fault of the sequence with the given index of a branch. -/
inductive SequenceFault (lexicon : Lexicon) (branch index : Nat) :
    List KindId → LookaheadError → Prop
  | notSingleToken {sequence : List KindId} (hlength : sequence.length ≠ 1) :
    SequenceFault lexicon branch index sequence (.notSingleToken branch index sequence.length)
  | unknownKind {id : KindId} (hkind : lexicon.get? id = none) :
    SequenceFault lexicon branch index [id] (.unknownKind id)
  | skippedKind {id : KindId} {kind : Kind} (hkind : lexicon.get? id = some kind)
    (hskipped : kind.flags.skipped = true) :
    SequenceFault lexicon branch index [id] (.skippedKind id)

/-- The fault of the branch with the given index: it has no sequences, or the first of them that is
not admitted has this fault. -/
inductive BranchFault (lexicon : Lexicon) (branch : Nat) :
    List (List KindId) → LookaheadError → Prop
  | noCandidates : BranchFault lexicon branch [] (.noCandidates branch)
  | sequence {before after : List (List KindId)} {sequence : List KindId} {e : LookaheadError}
    (hbefore : ∀ s ∈ before, lexicon.AdmitsSequence s)
    (h : SequenceFault lexicon branch before.length sequence e) :
    BranchFault lexicon branch (before ++ sequence :: after) e

/-- The fault of branches: there are none, or the first of them that is not admitted has this
fault. -/
inductive ChoiceFault (lexicon : Lexicon) : List (List (List KindId)) → LookaheadError → Prop
  | noBranches : ChoiceFault lexicon [] .noBranches
  | branch {before after : List (List (List KindId))} {sequences : List (List KindId)}
    {e : LookaheadError} (hbefore : ∀ b ∈ before, lexicon.AdmitsBranch b)
    (h : BranchFault lexicon before.length sequences e) :
    ChoiceFault lexicon (before ++ sequences :: after) e

end Lexicon

/-! ## One branch -/

namespace Candidates

variable {lexicon : Lexicon} {branch index : Nat} {sequence : List KindId}
  {sequences : List (List KindId)} {e : LookaheadError}

theorem ofSequence_ok_iff {id : KindId} :
    ofSequence lexicon branch index sequence = .ok id ↔
      lexicon.AdmitsSequence sequence ∧ sequence = [id] := by
  constructor
  · intro h
    unfold ofSequence at h
    split at h
    · split at h
      · cases h
      · rename_i kind hkind
        split at h
        · cases h
        · rename_i hskipped
          cases h
          exact ⟨⟨id, rfl, kind, hkind, Bool.eq_false_iff.2 hskipped⟩, rfl⟩
    · cases h
  · rintro ⟨⟨found, rfl, kind, hkind, hskipped⟩, heq⟩
    cases heq
    simp only [ofSequence, hkind, hskipped, Bool.false_eq_true, if_false]

theorem ofSequence_error_iff :
    ofSequence lexicon branch index sequence = .error e ↔
      lexicon.SequenceFault branch index sequence e := by
  constructor
  · intro h
    unfold ofSequence at h
    split at h
    · split at h
      · rename_i hnone
        cases h
        exact .unknownKind hnone
      · rename_i kind hkind
        split at h
        · rename_i hskipped
          cases h
          exact .skippedKind hkind hskipped
        · cases h
    · rename_i hsingle
      cases h
      refine .notSingleToken fun hlength => ?_
      obtain ⟨id, rfl⟩ := List.length_eq_one_iff.1 hlength
      exact hsingle id rfl
  · intro h
    cases h with
    | notSingleToken hlength =>
      unfold ofSequence
      split
      · exact absurd rfl hlength
      · rfl
    | unknownKind hkind => simp only [ofSequence, hkind]
    | skippedKind hkind hskipped => simp only [ofSequence, hkind, hskipped, if_true]

theorem kindsOfSequences_numbered (lexicon : Lexicon) (branch : Nat) :
    Numbered (ofSequence lexicon branch) (kindsOfSequences lexicon branch)
      lexicon.AdmitsSequence ([·]) where
  nil := fun _ => rfl
  cons := fun _ _ _ => rfl
  step_ok_iff := ofSequence_ok_iff
  exists_item := fun ⟨id, hsequence, _⟩ => ⟨id, hsequence⟩

theorem ofSequences_eq (lexicon : Lexicon) (branch : Nat) :
    ofSequences lexicon branch =
      Numbered.nonempty (kindsOfSequences lexicon branch) (.noCandidates branch) mk :=
  rfl

/-- The kinds of admitted sequences are the candidates of a branch. -/
theorem ofSequences_ok_iff {candidates : Candidates} :
    ofSequences lexicon branch sequences = .ok candidates ↔
      lexicon.AdmitsBranch sequences ∧ sequences = candidates.kinds.map ([·]) := by
  rw [ofSequences_eq]
  exact (kindsOfSequences_numbered lexicon branch).nonempty_ok_iff fun _ _ => congrArg kinds

/-- Else the branch has no sequences, or the fault is that of the first that is not admitted. -/
theorem ofSequences_error_iff :
    ofSequences lexicon branch sequences = .error e ↔ lexicon.BranchFault branch sequences e := by
  rw [ofSequences_eq, (kindsOfSequences_numbered lexicon branch).nonempty_error_iff]
  simp only [ofSequence_error_iff]
  constructor
  · rintro (⟨rfl, rfl⟩ | ⟨before, sequence, after, rfl, hbefore, h⟩)
    · exact .noCandidates
    · exact .sequence hbefore h
  · intro h
    cases h with
    | noCandidates => exact Or.inl ⟨rfl, rfl⟩
    | sequence hbefore h => exact Or.inr ⟨_, _, _, rfl, hbefore, h⟩

end Candidates

/-- Kinds one by one make a branch if there are any and each of them is admitted. -/
theorem Lexicon.admitsBranch_map_singleton {lexicon : Lexicon} {kinds : List KindId} :
    lexicon.AdmitsBranch (kinds.map ([·])) ↔ kinds ≠ [] ∧ ∀ id ∈ kinds, lexicon.Admits id := by
  simp [AdmitsBranch, AdmitsSequence]

/-- Admitted kinds make a lookahead. -/
theorem OptionalLookahead.ofKinds_ok_iff {lexicon : Lexicon} {kinds : List KindId}
    {lookahead : OptionalLookahead} :
    ofKinds lexicon kinds = .ok lookahead ↔
      (kinds ≠ [] ∧ ∀ id ∈ kinds, lexicon.Admits id) ∧ kinds = lookahead.candidates.kinds := by
  have hcandidates : Candidates.ofSequences lexicon 0 (kinds.map ([·])) = .ok lookahead.candidates ↔
      _ := Candidates.ofSequences_ok_iff
  rw [Lexicon.admitsBranch_map_singleton, List.map_inj_right (by simp)] at hcandidates
  rw [← hcandidates, ofKinds, ofSequences]
  cases Candidates.ofSequences lexicon 0 (kinds.map ([·])) with
  | error e => exact ⟨nofun, nofun⟩
  | ok candidates =>
    exact ⟨fun h => congrArg _ (congrArg OptionalLookahead.candidates (Except.ok.inj h)),
      fun h => congrArg _ (congrArg OptionalLookahead.mk (Except.ok.inj h))⟩

/-! ## Choices -/

/-! ### Lists without repetitions -/

section

variable {α : Type} [BEq α] [LawfulBEq α]

/-- Of two elements that a filter keeps, the one that comes first in what is kept comes first. -/
theorem idxOf_lt_of_filter {p : α → Bool} {a b : α} (ha : p a = true) (hb : p b = true)
    {l : List α} (h : (l.filter p).idxOf a < (l.filter p).idxOf b) : l.idxOf a < l.idxOf b := by
  induction l with
  | nil => exact h
  | cons c l ih =>
    by_cases hca : c = a
    · subst hca
      rw [List.filter_cons_of_pos ha, List.idxOf_cons_self] at h
      rw [List.idxOf_cons_self, List.idxOf_cons]
      by_cases hcb : c = b
      · subst hcb
        rw [List.idxOf_cons_self] at h
        omega
      · rw [beq_false_of_ne hcb, cond_false]
        omega
    · by_cases hcb : c = b
      · subst hcb
        rw [List.filter_cons_of_pos hb, List.idxOf_cons_self] at h
        omega
      · rw [List.idxOf_cons, List.idxOf_cons, beq_false_of_ne hca, beq_false_of_ne hcb, cond_false,
          cond_false]
        apply Nat.succ_lt_succ
        apply ih
        by_cases hc : p c = true
        · rw [List.filter_cons_of_pos hc, List.idxOf_cons, List.idxOf_cons, beq_false_of_ne hca,
            beq_false_of_ne hcb] at h
          simpa using h
        · rwa [List.filter_cons_of_neg hc] at h

/-- Without its repetitions a list has its elements in the order in which they occur first. -/
theorem pairwise_eraseDups (l : List α) :
    l.eraseDups.Pairwise fun a b => l.idxOf a < l.idxOf b := by
  induction hn : l.length using Nat.strongRecOn generalizing l with
  | ind n ih =>
    cases l with
    | nil => exact .nil
    | cons a l =>
      have hother : ∀ b ∈ (l.filter fun b => !b == a).eraseDups,
          (!b == a) = true ∧ (a :: l).idxOf b = l.idxOf b + 1 := by
        intro b hb
        have hne : (!b == a) = true := (List.mem_filter.1 (List.mem_eraseDups.1 hb)).2
        refine ⟨hne, ?_⟩
        rw [List.idxOf_cons, beq_false_of_ne (by rintro rfl; simp at hne), cond_false]
      rw [List.eraseDups_cons]
      refine .cons (fun b hb => ?_) ?_
      · rw [List.idxOf_cons_self, (hother b hb).2]
        exact Nat.succ_pos _
      · have hlen := List.length_filter_le (fun b => !b == a) l
        have hrest := ih _ (by rw [List.length_cons] at hn; omega)
          (l.filter fun b => !b == a) rfl
        refine hrest.imp_of_mem fun {b c} hb hc hlt => ?_
        rw [(hother b hb).2, (hother c hc).2]
        exact Nat.succ_lt_succ
          (idxOf_lt_of_filter (p := fun b => !b == a) (hother b hb).1 (hother c hc).1 hlt)

end

namespace AlternativeLookahead

variable {lexicon : Lexicon} {branches : List (List (List KindId))} {e : LookaheadError}

/-- The kinds expected by a choice come in the order in which they occur first. -/
theorem pairwise_expected (lookahead : AlternativeLookahead) :
    lookahead.expected.Pairwise fun a b =>
      (lookahead.branches.flatMap (·.kinds)).idxOf a <
        (lookahead.branches.flatMap (·.kinds)).idxOf b :=
  pairwise_eraseDups _

theorem nodup_expected (lookahead : AlternativeLookahead) : lookahead.expected.Nodup :=
  lookahead.pairwise_expected.imp fun {a b} hlt (heq : a = b) =>
    absurd (heq ▸ hlt) (Nat.lt_irrefl _)

theorem branchesOfSequences_numbered (lexicon : Lexicon) :
    Numbered (Candidates.ofSequences lexicon) (branchesOfSequences lexicon)
      lexicon.AdmitsBranch (fun candidates => candidates.kinds.map ([·])) where
  nil := fun _ => rfl
  cons := fun _ _ _ => rfl
  step_ok_iff := Candidates.ofSequences_ok_iff
  exists_item := fun hadmitted =>
    let ⟨kinds, hkinds⟩ := (Candidates.kindsOfSequences_numbered lexicon 0).exists_items hadmitted.2
    ⟨⟨kinds⟩, hkinds⟩

theorem ofSequences_eq (lexicon : Lexicon) :
    ofSequences lexicon = Numbered.nonempty (branchesOfSequences lexicon) .noBranches mk :=
  rfl

theorem ofSequences_ok_iff {lookahead : AlternativeLookahead} :
    ofSequences lexicon branches = .ok lookahead ↔
      (branches ≠ [] ∧ ∀ branch ∈ branches, lexicon.AdmitsBranch branch) ∧
        branches = lookahead.branches.map fun candidates => candidates.kinds.map ([·]) := by
  rw [ofSequences_eq]
  exact (branchesOfSequences_numbered lexicon).nonempty_ok_iff
    fun _ _ => congrArg AlternativeLookahead.branches

/-- Branches of admitted kinds make a lookahead. -/
theorem ofKinds_ok_iff {branches : List (List KindId)} {lookahead : AlternativeLookahead} :
    ofKinds lexicon branches = .ok lookahead ↔
      (branches ≠ [] ∧ ∀ kinds ∈ branches, kinds ≠ [] ∧ ∀ id ∈ kinds, lexicon.Admits id) ∧
        branches = lookahead.branches.map (·.kinds) := by
  have hone (kinds kinds' : List KindId) (h : kinds.map ([·]) = kinds'.map ([·])) :
      kinds = kinds' := (List.map_inj_right (by simp)).1 h
  have hsame : branches.map (fun kinds => kinds.map ([·])) =
      lookahead.branches.map (fun candidates => candidates.kinds.map ([·])) ↔
        branches = lookahead.branches.map (·.kinds) := by
    rw [← List.map_inj_right hone, List.map_map]
    rfl
  rw [ofKinds, ofSequences_ok_iff, hsame]
  simp only [ne_eq, List.map_eq_nil_iff, List.forall_mem_map, Lexicon.admitsBranch_map_singleton]

theorem ofSequences_error_iff :
    ofSequences lexicon branches = .error e ↔ lexicon.ChoiceFault branches e := by
  rw [ofSequences_eq, (branchesOfSequences_numbered lexicon).nonempty_error_iff]
  simp only [Candidates.ofSequences_error_iff]
  constructor
  · rintro (⟨rfl, rfl⟩ | ⟨before, sequences, after, rfl, hbefore, h⟩)
    · exact .noBranches
    · exact .branch hbefore h
  · intro h
    cases h with
    | noBranches => exact Or.inl ⟨rfl, rfl⟩
    | branch hbefore h => exact Or.inr ⟨_, _, _, rfl, hbefore, h⟩

/-- Branches make a lookahead exactly if there is one, each of them has a sequence, and each
sequence is a single kind that is defined and not passed over. Else the error is that of the first
sequence, or of the first branch without sequences, that is at fault. The lookahead has the kinds
of the sequences as its candidates, and expects each of them once, in the order in which they occur
first. A decision on one branch is made as a choice between this one is. -/
theorem ofSequences_exact (lexicon : Lexicon) (branches : List (List (List KindId))) :
    let result := ofSequences lexicon branches
    ((∃ lookahead, result = .ok lookahead) ↔
      branches ≠ [] ∧ ∀ branch ∈ branches, branch ≠ [] ∧
        ∀ sequence ∈ branch, ∃ id, sequence = [id] ∧ lexicon.Admits id) ∧
    (∀ e, result = .error e ↔ lexicon.ChoiceFault branches e) ∧
    (∀ lookahead, result = .ok lookahead →
      lookahead.branches.map (fun candidates => candidates.kinds.map ([·])) = branches ∧
      lookahead.expected.Nodup ∧
      (∀ id, id ∈ lookahead.expected ↔ ∃ branch ∈ branches, ∃ sequence ∈ branch, id ∈ sequence) ∧
      lookahead.expected.Pairwise fun a b =>
        branches.flatten.flatten.idxOf a < branches.flatten.flatten.idxOf b) ∧
    ∀ sequences, (OptionalLookahead.ofSequences lexicon sequences).map ([·.candidates]) =
      (ofSequences lexicon [sequences]).map (·.branches) := by
  intro result
  refine ⟨⟨?_, ?_⟩, fun e => ofSequences_error_iff, fun lookahead hok => ?_, fun sequences => ?_⟩
  · rintro ⟨lookahead, hok⟩
    exact (ofSequences_ok_iff.1 hok).1
  · intro hadmitted
    obtain ⟨candidates, hbranches⟩ :=
      (branchesOfSequences_numbered lexicon).exists_items hadmitted.2
    exact ⟨⟨candidates⟩, ofSequences_ok_iff.2 ⟨hadmitted, hbranches⟩⟩
  · obtain ⟨-, rfl⟩ := ofSequences_ok_iff.1 hok
    have hkinds : (lookahead.branches.map fun candidates =>
        candidates.kinds.map ([·])).flatten.flatten = lookahead.branches.flatMap (·.kinds) := by
      rw [List.flatten_flatten, List.map_map, List.flatMap_def]
      exact congrArg List.flatten <| List.map_congr_left fun candidates _ =>
        List.flatMap_singleton' candidates.kinds
    rw [hkinds]
    refine ⟨rfl, lookahead.nodup_expected, fun id => ?_, lookahead.pairwise_expected⟩
    rw [mem_expected]
    simp
  · rw [OptionalLookahead.ofSequences, ofSequences, branchesOfSequences]
    cases Candidates.ofSequences lexicon 0 sequences <;> rfl

/-- Signs of multiplication and division make a choice in which one of them may be looked for twice.
A branch without sequences is found before a number that no kind has, and a kind that is passed over
before a sequence that is empty. -/
theorem ofSequences_exact_operators :
    (∃ lookahead,
      ofSequences Ecma.lexicon [[[Ecma.star]], [[Ecma.slash], [Ecma.star], [Ecma.slash]]] =
        .ok lookahead ∧
      lookahead.branches.map (fun candidates => candidates.kinds.map ([·])) =
        [[[Ecma.star]], [[Ecma.slash], [Ecma.star], [Ecma.slash]]] ∧
      lookahead.expected.Nodup ∧ Ecma.slash ∈ lookahead.expected) ∧
    ofSequences Ecma.lexicon [[[Ecma.star]], [], [[⟨16⟩]]] = .error (.noCandidates 1) ∧
    ofSequences Ecma.lexicon [[[Ecma.star]], [[Ecma.slash], [⟨0⟩], []]] =
      .error (.skippedKind ⟨0⟩) := by
  have hadmits (id : KindId)
      (hflags : (Ecma.lexicon.get? id).map (·.flags.skipped) = some false) :
      Ecma.lexicon.AdmitsSequence [id] :=
    ⟨id, rfl, Option.map_eq_some_iff.1 hflags⟩
  have hstar := hadmits Ecma.star (by decide +kernel)
  have hslash := hadmits Ecma.slash (by decide +kernel)
  have hfirst : Ecma.lexicon.AdmitsBranch [[Ecma.star]] :=
    ⟨List.cons_ne_nil _ _, List.forall_mem_singleton.2 hstar⟩
  refine ⟨?_, ?_, ?_⟩
  · obtain ⟨hok, -, hholds, -⟩ := ofSequences_exact Ecma.lexicon
      [[[Ecma.star]], [[Ecma.slash], [Ecma.star], [Ecma.slash]]]
    obtain ⟨lookahead, hlookahead⟩ := hok.2 ⟨List.cons_ne_nil _ _, List.forall_mem_cons.2
      ⟨hfirst, List.forall_mem_singleton.2 ⟨List.cons_ne_nil _ _, List.forall_mem_cons.2
        ⟨hslash, List.forall_mem_cons.2 ⟨hstar, List.forall_mem_singleton.2 hslash⟩⟩⟩⟩⟩
    obtain ⟨hbranches, hnodup, hmem, -⟩ := hholds lookahead hlookahead
    exact ⟨lookahead, hlookahead, hbranches, hnodup, (hmem _).2 (by simp)⟩
  · obtain ⟨-, herror, -⟩ := ofSequences_exact Ecma.lexicon [[[Ecma.star]], [], [[⟨16⟩]]]
    exact (herror _).2 <| @Lexicon.ChoiceFault.branch _ [[[Ecma.star]]] _ _ _
      (List.forall_mem_singleton.2 hfirst) .noCandidates
  · obtain ⟨-, herror, -⟩ :=
      ofSequences_exact Ecma.lexicon [[[Ecma.star]], [[Ecma.slash], [⟨0⟩], []]]
    have hskipped : (Ecma.lexicon.get? ⟨0⟩).map (·.flags.skipped) = some true := by decide +kernel
    obtain ⟨kind, hkind, hflags⟩ := Option.map_eq_some_iff.1 hskipped
    exact (herror _).2 <| @Lexicon.ChoiceFault.branch _ [[[Ecma.star]]] _ _ _
      (List.forall_mem_singleton.2 hfirst) <| @Lexicon.BranchFault.sequence _ _ [[Ecma.slash]] _ _ _
        (List.forall_mem_singleton.2 hslash) (.skippedKind hkind hflags)

end AlternativeLookahead

end PredictiveParsing
