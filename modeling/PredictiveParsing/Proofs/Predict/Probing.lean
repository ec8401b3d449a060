import PredictiveParsing.Ecma.Lexicon
import PredictiveParsing.Proofs.Scan.Moving

/-!
# Probing

A lookahead tries its candidates and takes up the position from before it. What it answers is what
consuming the candidates one by one, each from that position, would show.

* `Store.keepingPosition_eq`: a probe that only moves on is undone, however it ends.
* `consume_exit`, `matchingCandidate_exit`, `matchingBranch_exit`: what happens at any offset up to
  the end of the source depends on the text that is left there behind the gap.
* `OptionalLookahead.holds_state`, `lt_of_holds`: a decision moves nothing, and there is text left
  where it says yes.
* `Scanner.pastGap`: the place behind the gap, from any offset.
* `lookahead_agrees`: a lookahead decides as consuming would, and moves nothing.
-/

namespace PredictiveParsing

open Text

variable {ε α : Type}

/-! ## Probes are undone -/

/-- A probe that only moves on is undone, whether it ends with a value, an error or a fault. -/
theorem Store.keepingPosition_eq {body : Action Event Store ε α} (hbody : body.Follows Forward)
    {s : Store} (hoffset : s.offset ≤ byteLength s.source) :
    keepingPosition body s = ⟨(body s).exit, s, (body s).records⟩ := by
  have hsource := (hbody s).leads.source
  have hseek : (seek s.offset : Action Event Store ε Unit) (body s).state = ⟨.ok (), s, []⟩ := by
    rw [seek, hsource, if_pos hoffset]
  simp only [keepingPosition, Action.ensuring, hseek, List.append_nil]

/-- A probe is undone only before the end of the source. -/
theorem Store.le_of_keepingPosition {body : Action Event Store ε α} (hbody : body.Follows Forward)
    {s : Store} {a : α} (h : (keepingPosition body s).exit = .ok a) :
    s.offset ≤ byteLength s.source := by
  by_cases hoffset : s.offset ≤ byteLength s.source
  · exact hoffset
  · have hseek : (seek s.offset : Action Event Store ε Unit) (body s).state =
        ⟨.fault (.positionOutOfBounds s.offset (byteLength s.source)), (body s).state, []⟩ := by
      rw [seek, (hbody s).leads.source, if_neg hoffset]
    simp only [keepingPosition, Action.ensuring, hseek] at h
    cases h

namespace OptionalLookahead

/-- What a decision does before it takes the position up again. -/
def probe (lookahead : OptionalLookahead) (scanner : Scanner) (saved : Nat) :
    Action Event Store ε (Option KindId) := do
  let _ ← scanner.skip
  let hit ← scanner.firstMatch lookahead.candidates.kinds
  Action.emit (.probed saved hit)
  pure hit

section follows

variable {T : Store → List Event → Store → Prop} (lookahead : OptionalLookahead)
  (scanner : Scanner) [scanner.Obeys T]

theorem probe_follows (saved : Nat) :
    (lookahead.probe scanner saved : Action Event Store ε (Option KindId)).Follows T := by
  refine .bind Scanner.Obeys.skip fun _ => .bind (scanner.firstMatch_follows _) fun hit => ?_
  exact .bind (Scanner.Obeys.probed scanner saved hit) fun _ => .pure hit

theorem matchingCandidate_follows :
    (lookahead.matchingCandidate scanner : Action Event Store ε (Option KindId)).Follows T :=
  .bind .get fun s => Scanner.Obeys.keeping scanner (lookahead.probe_follows scanner s.offset)

theorem holds_follows : (lookahead.holds scanner : Action Event Store ε Bool).Follows T :=
  .bind (lookahead.matchingCandidate_follows scanner) fun _ => .pure _

end follows

theorem matchingCandidate_eq (lookahead : OptionalLookahead) (scanner : Scanner) {s : Store}
    (hoffset : s.offset ≤ byteLength s.source) :
    (lookahead.matchingCandidate scanner s : Run Event Store ε (Option KindId)) =
      ⟨(lookahead.probe scanner s.offset s : Run Event Store ε (Option KindId)).exit, s,
        (lookahead.probe scanner s.offset s : Run Event Store ε (Option KindId)).records⟩ := by
  rw [← Store.keepingPosition_eq (lookahead.probe_follows scanner s.offset) hoffset]
  rfl

end OptionalLookahead

namespace AlternativeLookahead

/-- What a decision does before it takes the position up again. -/
def probe (lookahead : AlternativeLookahead) (scanner : Scanner) (saved : Nat) :
    Action Event Store ε (Option Nat) := do
  let _ ← scanner.skip
  let hit ← firstBranch scanner 0 lookahead.branches
  Action.emit (.branched saved hit)
  pure hit

section follows

variable {T : Store → List Event → Store → Prop} (lookahead : AlternativeLookahead)
  (scanner : Scanner) [scanner.Obeys T]

theorem firstBranch_follows (index : Nat) (branches : List Candidates) :
    (firstBranch scanner index branches : Action Event Store ε (Option Nat)).Follows T := by
  induction branches generalizing index with
  | nil => exact .pure none
  | cons branch branches ih =>
    refine .bind (scanner.firstMatch_follows branch.kinds) fun found => ?_
    cases found with
    | none => exact ih (index + 1)
    | some _ => exact .pure _

theorem probe_follows (saved : Nat) :
    (lookahead.probe scanner saved : Action Event Store ε (Option Nat)).Follows T := by
  refine .bind Scanner.Obeys.skip fun _ => .bind (firstBranch_follows scanner 0 _) fun hit => ?_
  exact .bind (Scanner.Obeys.branched scanner saved hit) fun _ => .pure hit

theorem matchingBranch_follows :
    (lookahead.matchingBranch scanner : Action Event Store ε (Option Nat)).Follows T :=
  .bind .get fun s => Scanner.Obeys.keeping scanner (lookahead.probe_follows scanner s.offset)

end follows

theorem matchingBranch_eq (lookahead : AlternativeLookahead) (scanner : Scanner) {s : Store}
    (hoffset : s.offset ≤ byteLength s.source) :
    (lookahead.matchingBranch scanner s : Run Event Store ε (Option Nat)) =
      ⟨(lookahead.probe scanner s.offset s : Run Event Store ε (Option Nat)).exit, s,
        (lookahead.probe scanner s.offset s : Run Event Store ε (Option Nat)).records⟩ := by
  rw [← Store.keepingPosition_eq (lookahead.probe_follows scanner s.offset) hoffset]
  rfl

theorem mem_expected {lookahead : AlternativeLookahead} {id : KindId} :
    id ∈ lookahead.expected ↔ ∃ branch ∈ lookahead.branches, id ∈ branch.kinds := by
  rw [expected, List.mem_eraseDups, List.mem_flatMap]

end AlternativeLookahead

/-! ## What is ahead -/

/-- A state stands between two texts, or it stands inside a character and sees no text. -/
theorem Store.exists_between_or_remaining_eq_nil (s : Store) :
    (∃ before rest, s = between before rest) ∨ s.remaining = [] := by
  obtain ⟨source, offset⟩ := s
  cases h : dropBytes? source offset with
  | none => exact Or.inr (by rw [remaining, h]; rfl)
  | some rest =>
    obtain ⟨before, rfl, rfl⟩ := eq_append_of_dropBytes? h
    exact Or.inl ⟨before, rest, rfl⟩

namespace Scanner

variable {scanner : Scanner} {s : Store}

/-- The text behind the gap that a scanner passes over. -/
def ahead (scanner : Scanner) (s : Store) : Text :=
  (dropBytes? s.remaining (scanner.gapLength s.remaining)).getD []

theorem ahead_between {before gap rest : Text} (h : scanner.Gap gap rest) :
    scanner.ahead (Store.between before (gap ++ rest)) = rest := by
  have hlen : scanner.gapLength (gap ++ rest) = byteLength gap := h
  rw [ahead, Store.remaining_between, hlen, dropBytes?_byteLength_append]
  rfl

theorem gapLength_nil (scanner : Scanner) : scanner.gapLength [] = 0 := by
  obtain ⟨gap, rest, htext, hgap⟩ := scanner.exists_gap []
  obtain ⟨rfl, rfl⟩ := List.append_eq_nil_iff.1 htext.symm
  exact hgap

theorem ahead_of_remaining_eq_nil (h : s.remaining = []) : scanner.ahead s = [] := by
  rw [ahead, h, gapLength_nil]
  rfl

/-- Where no text is seen, nothing is passed over. -/
theorem skip_of_remaining_eq_nil (h : s.remaining = []) :
    (scanner.skip s : Run Event Store ε Nat) = ⟨.ok 0, s, []⟩ := by
  have hgap := scanner.gapLength_nil
  rw [gapLength] at hgap
  by_cases hs : scanner.config.skipping = true
  · rw [if_pos hs] at hgap
    simp [skip, hs, Action.bind_apply, h, hgap, offsetLimit]
  · simp [skip, hs]

/-- The place behind the gap. -/
def pastGap (scanner : Scanner) (s : Store) : Store :=
  { s with offset := s.offset + scanner.gapLength s.remaining }

theorem pastGap_between {before gap rest : Text} (h : scanner.Gap gap rest) :
    scanner.pastGap (Store.between before (gap ++ rest)) = Store.between (before ++ gap) rest := by
  have hlen : scanner.gapLength (gap ++ rest) = byteLength gap := h
  rw [pastGap, Store.remaining_between, hlen]
  simp [Store.between]

theorem pastGap_of_remaining_eq_nil (h : s.remaining = []) : scanner.pastGap s = s := by
  rw [pastGap, h, gapLength_nil]
  rfl

theorem remaining_pastGap (scanner : Scanner) (s : Store) :
    (scanner.pastGap s).remaining = scanner.ahead s := by
  rcases s.exists_between_or_remaining_eq_nil with ⟨before, text, rfl⟩ | hnil
  · obtain ⟨gap, rest, rfl, hgap⟩ := scanner.exists_gap text
    rw [pastGap_between hgap, ahead_between hgap, Store.remaining_between]
  · rw [pastGap_of_remaining_eq_nil hnil, ahead_of_remaining_eq_nil hnil, hnil]

theorem skip_run (scanner : Scanner) (hlen : byteLength s.source < offsetLimit) :
    (scanner.skip s : Run Event Store ε Nat) =
      ⟨.ok (scanner.gapLength s.remaining), scanner.pastGap s, []⟩ := by
  rcases s.exists_between_or_remaining_eq_nil with ⟨before, text, rfl⟩ | hnil
  · obtain ⟨gap, rest, rfl, hgap⟩ := scanner.exists_gap text
    rw [Store.source_between, ← List.append_assoc] at hlen
    rw [skip_between hgap hlen, pastGap_between hgap, Store.remaining_between]
    rw [show scanner.gapLength (gap ++ rest) = byteLength gap from hgap]
  · rw [skip_of_remaining_eq_nil hnil, pastGap_of_remaining_eq_nil hnil, hnil, gapLength_nil]

theorem found_of_remaining_eq_nil (h : s.remaining = []) (hlimit : s.offset < offsetLimit) :
    (scanner.found s : Run Event Store ε Token) = ⟨.ok (scanner.foundAt s), s, []⟩ := by
  have hstop : (scanner.foundAt s).span.stop = s.offset := by
    simp [foundAt, Store.current?, h, Span.point]
  simp only [found, Action.bind_apply, Action.get_apply, Action.ite_apply]
  rw [if_neg (by omega)]
  rfl

theorem firstMatch_none (kinds : List KindId)
    (h : ∀ id ∈ kinds, scanner.lexicon.sees s.remaining id = false) :
    (scanner.firstMatch kinds s : Run Event Store ε (Option KindId)) = ⟨.ok none, s, []⟩ := by
  induction kinds with
  | nil => rfl
  | cons id kinds ih =>
    rw [List.forall_mem_cons] at h
    rw [firstMatch, Action.bind_of_ok (tryMatch_none h.1)]
    simp only [ih h.2, List.nil_append]

/-- A kind is consumed if it matches behind the gap, and else there is a mismatch. -/
theorem consume_exit (htrip : scanner.tripwire = none)
    (hlen : byteLength s.source < offsetLimit) (hoffset : s.offset ≤ byteLength s.source)
    (id : KindId) :
    if scanner.lexicon.sees (scanner.ahead s) id then ∃ t, (scanner.consume id s).exit = .ok t
    else ∃ m, (scanner.consume id s).exit = .error m := by
  rcases s.exists_between_or_remaining_eq_nil with ⟨before, text, rfl⟩ | hnil
  · obtain ⟨gap, rest, rfl, hgap⟩ := scanner.exists_gap text
    rw [ahead_between hgap]
    rw [Store.source_between, ← List.append_assoc] at hlen
    rw [consume, Action.bind_of_ok (skip_between hgap hlen)]
    split
    · rename_i hsees
      obtain ⟨word, rest, rfl, htakes⟩ := Lexicon.exists_takes hsees
      rw [← List.append_assoc (before ++ gap)] at hlen
      obtain ⟨kind, hmatch⟩ := tryMatch_between (ε := Mismatch) htrip htakes hlen
      exact ⟨_, by rw [Action.bind_of_ok hmatch]; rfl⟩
    · rename_i hsees
      rw [Bool.not_eq_true] at hsees
      refine ⟨⟨id, scanner.foundOf (before ++ gap) rest⟩, ?_⟩
      rw [Action.bind_of_ok (tryMatch_between_none hsees)]
      simp only [Action.bind_of_ok (found_between hlen), Action.raise_apply]
  · rw [ahead_of_remaining_eq_nil hnil, if_neg (by rw [Lexicon.sees_nil]; decide)]
    refine ⟨⟨id, scanner.foundAt s⟩, ?_⟩
    rw [consume, Action.bind_of_ok (skip_of_remaining_eq_nil hnil)]
    rw [Action.bind_of_ok (tryMatch_none (by rw [hnil, Lexicon.sees_nil]))]
    simp only [Action.bind_of_ok (found_of_remaining_eq_nil hnil (Nat.lt_of_le_of_lt hoffset hlen)),
      Action.raise_apply]

/-- Consuming a kind would succeed. -/
def accepts (scanner : Scanner) (s : Store) (id : KindId) : Bool :=
  match (scanner.consume id s).exit with
  | .ok _ => true
  | _ => false

theorem accepts_eq (htrip : scanner.tripwire = none) (hlen : byteLength s.source < offsetLimit)
    (hoffset : s.offset ≤ byteLength s.source) :
    scanner.accepts s = scanner.lexicon.sees (scanner.ahead s) := by
  funext id
  have hexit := consume_exit htrip hlen hoffset id
  rw [accepts]
  split at hexit
  · rename_i hsees
    obtain ⟨t, ht⟩ := hexit
    rw [ht, hsees]
  · rename_i hsees
    obtain ⟨m, hm⟩ := hexit
    rw [hm, Bool.eq_false_iff.2 hsees]

/-- What is not accepted is refused with a mismatch, and never with a fault. -/
theorem accepts_eq_false_iff (htrip : scanner.tripwire = none)
    (hlen : byteLength s.source < offsetLimit) (hoffset : s.offset ≤ byteLength s.source)
    {id : KindId} :
    scanner.accepts s id = false ↔ ∃ m, (scanner.consume id s).exit = .error m := by
  have hexit := consume_exit htrip hlen hoffset id
  rw [accepts]
  split at hexit
  · obtain ⟨t, ht⟩ := hexit
    rw [ht]
    simp
  · obtain ⟨m, hm⟩ := hexit
    rw [hm]
    simp

end Scanner

/-! ## Decisions -/

section

variable {scanner : Scanner} {s : Store}

theorem OptionalLookahead.matchingCandidate_exit (htrip : scanner.tripwire = none)
    (hlen : byteLength s.source < offsetLimit) (hoffset : s.offset ≤ byteLength s.source)
    (lookahead : OptionalLookahead) :
    (lookahead.matchingCandidate scanner s : Run Event Store ε (Option KindId)).exit =
      .ok (lookahead.candidates.kinds.find? (scanner.lexicon.sees (scanner.ahead s))) := by
  rcases s.exists_between_or_remaining_eq_nil with ⟨before, text, rfl⟩ | hnil
  · obtain ⟨gap, rest, rfl, hgap⟩ := scanner.exists_gap text
    rw [Store.source_between, ← List.append_assoc] at hlen
    obtain ⟨records, hrun, -⟩ := matchingCandidate_between (ε := ε) htrip hgap hlen lookahead
    rw [hrun, Scanner.ahead_between hgap]
  · have hnone : ∀ id, scanner.lexicon.sees s.remaining id = false := by
      intro id
      rw [hnil, Lexicon.sees_nil]
    have hfind : lookahead.candidates.kinds.find?
        (scanner.lexicon.sees (scanner.ahead s)) = none := by
      rw [Scanner.ahead_of_remaining_eq_nil hnil, List.find?_eq_none]
      intro id _
      rw [Lexicon.sees_nil]
      decide
    rw [hfind, matchingCandidate_eq lookahead scanner hoffset, probe,
      Action.bind_of_ok (Scanner.skip_of_remaining_eq_nil hnil),
      Action.bind_of_ok (Scanner.firstMatch_none _ fun id _ => hnone id)]
    rfl

theorem OptionalLookahead.holds_exit (htrip : scanner.tripwire = none)
    (hlen : byteLength s.source < offsetLimit) (hoffset : s.offset ≤ byteLength s.source)
    (lookahead : OptionalLookahead) :
    (lookahead.holds scanner s : Run Event Store ε Bool).exit =
      .ok (lookahead.candidates.kinds.any (scanner.lexicon.sees (scanner.ahead s))) := by
  have hexit := lookahead.matchingCandidate_exit (ε := ε) htrip hlen hoffset
  rw [holds, Action.bind_of_ok (Run.eq_of_exit hexit), ← isSome_find?_eq_any]
  rfl

namespace AlternativeLookahead

theorem firstBranch_none (index : Nat) (branches : List Candidates)
    (h : ∀ id, scanner.lexicon.sees s.remaining id = false) :
    (firstBranch scanner index branches s : Run Event Store ε (Option Nat)) =
      ⟨.ok none, s, []⟩ := by
  induction branches generalizing index with
  | nil => rfl
  | cons branch branches ih =>
    rw [firstBranch, Action.bind_of_ok (Scanner.firstMatch_none _ fun id _ => h id)]
    simp only [ih, List.nil_append]

theorem matchingBranch_exit (htrip : scanner.tripwire = none)
    (hlen : byteLength s.source < offsetLimit) (hoffset : s.offset ≤ byteLength s.source)
    (lookahead : AlternativeLookahead) :
    (lookahead.matchingBranch scanner s : Run Event Store ε (Option Nat)).exit =
      .ok (lookahead.branches.findIdx? fun branch =>
        branch.kinds.any (scanner.lexicon.sees (scanner.ahead s))) := by
  rcases s.exists_between_or_remaining_eq_nil with ⟨before, text, rfl⟩ | hnil
  · obtain ⟨gap, rest, rfl, hgap⟩ := scanner.exists_gap text
    rw [Store.source_between, ← List.append_assoc] at hlen
    obtain ⟨records, hrun, -⟩ := matchingBranch_between (ε := ε) htrip hgap hlen lookahead
    rw [hrun, Scanner.ahead_between hgap]
  · have hnone : ∀ id, scanner.lexicon.sees s.remaining id = false := by
      intro id
      rw [hnil, Lexicon.sees_nil]
    have hfind : (lookahead.branches.findIdx? fun branch =>
        branch.kinds.any (scanner.lexicon.sees (scanner.ahead s))) = none := by
      rw [Scanner.ahead_of_remaining_eq_nil hnil, List.findIdx?_eq_none_iff]
      intro branch _
      rw [List.any_eq_false]
      intro id _
      rw [Lexicon.sees_nil]
      decide
    rw [hfind, matchingBranch_eq lookahead scanner hoffset, probe,
      Action.bind_of_ok (Scanner.skip_of_remaining_eq_nil hnil),
      Action.bind_of_ok (firstBranch_none 0 _ hnone)]
    rfl

end AlternativeLookahead

/-- Candidates match only where there is text left. -/
theorem Scanner.lt_of_firstMatch {kinds : List KindId} {id : KindId}
    (h : (scanner.firstMatch kinds s : Run Event Store ε (Option KindId)).exit = .ok (some id)) :
    s.offset < byteLength s.source := by
  induction kinds with
  | nil => cases h
  | cons kind kinds ih =>
    rw [firstMatch, Action.bind_apply] at h
    rcases scanner.tryMatch_cases (ε := ε) kind s with
      ⟨f, hrun⟩ | hrun | ⟨_, token, -, -, -, hstart, hstop, -⟩
    · rw [hrun] at h
      cases h
    · rw [hrun] at h
      exact ih h
    · exact Nat.lt_of_lt_of_le hstart hstop

namespace OptionalLookahead

/-- A decision moves nothing, not even from behind the end of the source. -/
theorem matchingCandidate_state (lookahead : OptionalLookahead) (scanner : Scanner) (s : Store) :
    (lookahead.matchingCandidate scanner s : Run Event Store ε (Option KindId)).state = s := by
  by_cases hoffset : s.offset ≤ byteLength s.source
  · exact congrArg Run.state (lookahead.matchingCandidate_eq scanner hoffset)
  · have hnil : s.remaining = [] := by
      rcases s.exists_between_or_remaining_eq_nil with ⟨before, rest, rfl⟩ | hnil
      · rw [Store.offset_between, Store.source_between, byteLength_append] at hoffset
        omega
      · exact hnil
    have hnone : ∀ id, scanner.lexicon.sees s.remaining id = false := by
      intro id
      rw [hnil, Lexicon.sees_nil]
    have hprobe : (lookahead.probe scanner s.offset s :
        Run Event Store ε (Option KindId)).state = s := by
      rw [probe, Action.bind_of_ok (Scanner.skip_of_remaining_eq_nil hnil),
        Action.bind_of_ok (Scanner.firstMatch_none _ fun id _ => hnone id)]
      rfl
    have hrun : (lookahead.matchingCandidate scanner s : Run Event Store ε (Option KindId)).state =
        (Store.keepingPosition (lookahead.probe scanner s.offset) s).state := rfl
    rw [hrun, Store.keepingPosition, Action.ensuring_state, hprobe, Store.seek, if_neg hoffset]

theorem holds_state (lookahead : OptionalLookahead) (scanner : Scanner) (s : Store) :
    (lookahead.holds scanner s : Run Event Store ε Bool).state = s := by
  have hstate := lookahead.matchingCandidate_state (ε := ε) scanner s
  rw [holds, Action.bind_apply]
  cases (lookahead.matchingCandidate scanner s : Run Event Store ε (Option KindId)).exit <;>
    exact hstate

/-- A candidate comes next only where there is text left. -/
theorem lt_of_holds {lookahead : OptionalLookahead}
    (h : (lookahead.holds scanner s : Run Event Store ε Bool).exit = .ok true) :
    s.offset < byteLength s.source := by
  rw [holds] at h
  obtain ⟨hit, hhit, hanswer⟩ := Action.exists_of_bind_ok h
  obtain ⟨id, rfl⟩ : ∃ id, hit = some id := Option.isSome_iff_exists.1 (Exit.ok.inj hanswer)
  have hoffset : s.offset ≤ byteLength s.source :=
    Store.le_of_keepingPosition (lookahead.probe_follows scanner s.offset) hhit
  rw [lookahead.matchingCandidate_eq scanner hoffset, probe] at hhit
  obtain ⟨_, -, hmatch⟩ := Action.exists_of_bind_ok hhit
  obtain ⟨found, hfound, hid⟩ := Action.exists_of_bind_ok hmatch
  obtain rfl : found = some id := Exit.ok.inj hid
  have hgap := (scanner.skip_forward (ε := ε) s).leads
  have hlt := Scanner.lt_of_firstMatch hfound
  rw [hgap.source] at hlt
  exact Nat.lt_of_le_of_lt hgap.le hlt

end OptionalLookahead

/-- A choice that answers moves nothing, and it answers with the first branch that has a candidate
behind the gap. -/
theorem AlternativeLookahead.matchingBranch_of_ok (htrip : scanner.tripwire = none)
    (hlen : byteLength s.source < offsetLimit) {lookahead : AlternativeLookahead}
    {branch : Option Nat}
    (h : (lookahead.matchingBranch scanner s : Run Event Store ε (Option Nat)).exit = .ok branch) :
    (lookahead.matchingBranch scanner s : Run Event Store ε (Option Nat)).state = s ∧
      branch = lookahead.branches.findIdx? fun branch =>
        branch.kinds.any (scanner.lexicon.sees (scanner.ahead s)) := by
  have hoffset : s.offset ≤ byteLength s.source :=
    Store.le_of_keepingPosition (lookahead.probe_follows scanner s.offset) h
  rw [lookahead.matchingBranch_exit htrip hlen hoffset] at h
  exact ⟨congrArg Run.state (lookahead.matchingBranch_eq scanner hoffset), (Exit.ok.inj h).symm⟩

/-- A decision that is made moves nothing, and it says whether a candidate stands behind the gap. -/
theorem OptionalLookahead.holds_of_ok (htrip : scanner.tripwire = none)
    (hlen : byteLength s.source < offsetLimit) {lookahead : OptionalLookahead} {b : Bool}
    (h : (lookahead.holds scanner s : Run Event Store ε Bool).exit = .ok b) :
    (lookahead.holds scanner s : Run Event Store ε Bool).state = s ∧
      b = lookahead.candidates.kinds.any (scanner.lexicon.sees (scanner.ahead s)) := by
  rw [holds] at h
  obtain ⟨hit, hhit, hanswer⟩ := Action.exists_of_bind_ok h
  have hoffset : s.offset ≤ byteLength s.source :=
    Store.le_of_keepingPosition (lookahead.probe_follows scanner s.offset) hhit
  rw [lookahead.matchingCandidate_exit htrip hlen hoffset] at hhit
  refine ⟨lookahead.holds_state scanner s, ?_⟩
  rw [← isSome_find?_eq_any, Exit.ok.inj hhit]
  exact (Exit.ok.inj hanswer).symm

/-- At every offset of a source a lookahead answers with the first candidate, or the first branch
with a candidate, that would be consumed from there, and with none where all of them would be
mismatches. It moves nothing, not even where a candidate that matches is a fault. -/
theorem lookahead_agrees (scanner : Scanner) {s : Store}
    (hlen : byteLength s.source < offsetLimit) (hoffset : s.offset ≤ byteLength s.source)
    (optional : OptionalLookahead) (alternative : AlternativeLookahead) :
    let candidate : Run Event Store ε (Option KindId) := optional.matchingCandidate scanner s
    let branch : Run Event Store ε (Option Nat) := alternative.matchingBranch scanner s
    candidate.state = s ∧ branch.state = s ∧
      (scanner.tripwire = none →
        candidate.exit = .ok (optional.candidates.kinds.find? (scanner.accepts s)) ∧
        (candidate.exit = .ok none ↔ ∀ id ∈ optional.candidates.kinds,
          ∃ m, (scanner.consume id s).exit = .error m) ∧
        branch.exit = .ok (alternative.branches.findIdx? fun branch =>
          branch.kinds.any (scanner.accepts s)) ∧
        (branch.exit = .ok none ↔ ∀ id ∈ alternative.expected,
          ∃ m, (scanner.consume id s).exit = .error m)) := by
  refine ⟨congrArg Run.state (optional.matchingCandidate_eq scanner hoffset),
    congrArg Run.state (alternative.matchingBranch_eq scanner hoffset), fun htrip => ?_⟩
  have hcandidate := optional.matchingCandidate_exit (ε := ε) htrip hlen hoffset
  have hbranch := alternative.matchingBranch_exit (ε := ε) htrip hlen hoffset
  rw [← Scanner.accepts_eq htrip hlen hoffset] at hcandidate hbranch
  refine ⟨hcandidate, ?_, hbranch, ?_⟩
  · simp only [hcandidate, Exit.ok.injEq, List.find?_eq_none, Bool.not_eq_true,
      Scanner.accepts_eq_false_iff htrip hlen hoffset]
  · simp only [hbranch, Exit.ok.injEq, List.findIdx?_eq_none_iff, List.any_eq_false,
      Bool.not_eq_true, Scanner.accepts_eq_false_iff htrip hlen hoffset,
      AlternativeLookahead.mem_expected]
    exact ⟨fun h id ⟨branch, hmem, hid⟩ => h branch hmem id hid,
      fun h branch hmem id hid => h id ⟨branch, hmem, hid⟩⟩

end

/-- Behind an operand and a comment, a sign of division is announced, and it would be consumed. -/
theorem lookahead_agrees_quotient :
    let scanner : Scanner := { lexicon := Ecma.lexicon }
    let s : Store := ⟨"a/*/*/ /b".toList, 1⟩
    let candidate : Run Event Store Empty (Option KindId) :=
      Ecma.multiplicativeStart.matchingCandidate scanner s
    let branch : Run Event Store Empty (Option Nat) :=
      Ecma.multiplicativeChoice.matchingBranch scanner s
    byteLength s.source < offsetLimit ∧ s.offset ≤ byteLength s.source ∧
      scanner.tripwire = none ∧ scanner.accepts s Ecma.star = false ∧
      scanner.accepts s Ecma.slash = true ∧ candidate.exit = .ok (some Ecma.slash) ∧
      candidate.state = s ∧ branch.exit = .ok (some 1) ∧ branch.state = s := by
  intro scanner s candidate branch
  have hlen : byteLength s.source < offsetLimit := by decide
  have hoffset : s.offset ≤ byteLength s.source := by decide
  have hstar : scanner.accepts s Ecma.star = false := by decide +kernel
  have hslash : scanner.accepts s Ecma.slash = true := by decide +kernel
  obtain ⟨hstate, hstate', hagrees⟩ := lookahead_agrees (ε := Empty) scanner hlen hoffset
    Ecma.multiplicativeStart Ecma.multiplicativeChoice
  obtain ⟨hcandidate, -, hbranch, -⟩ := hagrees rfl
  refine ⟨hlen, hoffset, rfl, hstar, hslash, hcandidate.trans ?_, hstate, hbranch.trans ?_, hstate'⟩
  · simp [Ecma.multiplicativeStart, hstar, hslash]
  · simp [Ecma.multiplicativeChoice, List.findIdx?_cons, hstar, hslash]

end PredictiveParsing
