import PredictiveParsing.Ecma.Lexicon
import PredictiveParsing.Proofs.Predict.Probing
import PredictiveParsing.Script.Scan

/-!
# Scripts without their probes

Guards and lookaheads only look. A script that goes without them answers its other operations as
before, with the same values, mismatches and faults at the same offsets, whatever the guards hold:
further guards, positions that do not exist, tokens that are committed, kinds whose match is a
fault.

* `ScanOp.isProbe`: the operations that only look.
* `perform_probe`: they move nothing.
* `probes_erasable`: they can be left out.
-/

namespace PredictiveParsing

open Text

namespace ScanOp

/-! ## Probes -/

/-- Whether an operation only looks. -/
def isProbe : ScanOp → Bool
  | .candidate _ | .check _ | .branch _ | .guard _ => true
  | _ => false

mutual

/-- Whether an operation, or one inside it, begins a source. -/
def restarts : ScanOp → Bool
  | .begin _ => true
  | .guard script => restartsAny script
  | _ => false

/-- Whether some operation begins a source. -/
def restartsAny : List ScanOp → Bool
  | [] => false
  | op :: rest => op.restarts || restartsAny rest

end

/-- A guard begins no source, also not inside further guards. -/
def Contained : ScanOp → Prop
  | .guard script => restartsAny script = false
  | _ => True

variable (scanner : Scanner)

mutual

theorem perform_source : ∀ (op : ScanOp) (s : Store), op.restarts = false →
    (op.perform scanner s).store.source = s.source
  | .skip, s, _ => (scanner.skip_forward s).leads.source
  | .tryMatch id, s, _ => (scanner.tryMatch_forward id s).leads.source
  | .consume id, s, _ => (scanner.consume_follows (T := Forward) id s).leads.source
  | .seek offset, s, _ => by
    rw [perform, step, Store.seek]
    split <;> rfl
  | .atEnd, _, _ | .remaining, _, _ | .source, _, _ | .config, _, _ => rfl
  | .found, s, _ => (scanner.found_follows (T := Forward) s).leads.source
  | .candidate lookahead, s, _ =>
    (lookahead.matchingCandidate_follows (T := Forward) scanner s).leads.source
  | .check lookahead, s, _ => (lookahead.holds_follows (T := Forward) scanner s).leads.source
  | .branch lookahead, s, _ =>
    (lookahead.matchingBranch_follows (T := Forward) scanner s).leads.source
  | .guard script, s, h => by
    rw [perform, Store.seek]
    split <;> exact performAll_source script s h

theorem performAll_source : ∀ (script : List ScanOp) (s : Store), restartsAny script = false →
    (performAll scanner script s).store.source = s.source
  | [], _, _ => rfl
  | op :: rest, s, h => by
    rw [restartsAny, Bool.or_eq_false_iff] at h
    rw [performAll]
    exact (performAll_source rest _ h.2).trans (perform_source op s h.1)

end

/-- At every offset of a source, an operation that only looks leaves the scanner as it is. -/
theorem perform_probe {op : ScanOp} (hprobe : op.isProbe = true) (hcontained : op.Contained)
    {s : Store} (hoffset : s.offset ≤ byteLength s.source) : (op.perform scanner s).store = s := by
  cases op with
  | candidate lookahead => exact congrArg Run.state (lookahead.matchingCandidate_eq scanner hoffset)
  | check lookahead =>
    have hrun := lookahead.matchingCandidate_eq (ε := Mismatch) scanner hoffset
    rw [perform, step, OptionalLookahead.holds, Action.bind_apply, hrun]
    split <;> rfl
  | branch lookahead => exact congrArg Run.state (lookahead.matchingBranch_eq scanner hoffset)
  | guard script =>
    have hsource := performAll_source scanner script s hcontained
    rw [perform, Store.seek, hsource, if_pos hoffset]
  | _ => cases hprobe

/-- An operation that moves gets to an offset of the source. -/
theorem perform_within {op : ScanOp} (hmoves : op.isProbe = false) {s : Store}
    (hoffset : s.offset ≤ byteLength s.source) :
    (op.perform scanner s).store.offset ≤ byteLength (op.perform scanner s).store.source := by
  have hforward {α : Type} {action : Action Event Store Mismatch α}
      (h : action.Follows Forward) :
      (action s).state.offset ≤ byteLength (action s).state.source := by
    rw [(h s).leads.source]
    exact (h s).leads.within hoffset
  cases op with
  | begin text =>
    rw [perform, step, Store.begin]
    split
    · exact Nat.zero_le _
    · exact hoffset
  | skip => exact hforward scanner.skip_forward
  | tryMatch id => exact hforward (scanner.tryMatch_forward id)
  | consume id => exact hforward (scanner.consume_follows id)
  | seek offset =>
    rw [perform, step, Store.seek]
    split
    · assumption
    · exact hoffset
  | found => exact hforward scanner.found_follows
  | atEnd | remaining | source | config => exact hoffset
  | candidate _ | check _ | branch _ | guard _ => cases hmoves

/-! ## Scripts -/

theorem length_performAll (script : List ScanOp) (s : Store) :
    (performAll scanner script s).result.length = script.length := by
  induction script generalizing s with
  | nil => rfl
  | cons op rest ih => rw [performAll, List.length_cons, ih, List.length_cons]

/-- Where the guards begin no source, a script can do without its guards and its lookaheads: each
other operation answers the same, with a value or a fault, and gets to the same offset, and so does
the script. -/
theorem probes_erasable (scanner : Scanner) {script : List ScanOp}
    (hcontained : ∀ op ∈ script, op.Contained) {s : Store}
    (hoffset : s.offset ≤ byteLength s.source) :
    let whole := performAll scanner script s
    let bare := performAll scanner (script.filter fun op => !op.isProbe) s
    whole.result.length = script.length ∧
      bare.result = ((script.zip whole.result).filter fun p => !p.1.isProbe).map Prod.snd ∧
      bare.store = whole.store := by
  refine ⟨length_performAll scanner script s, ?_⟩
  induction script generalizing s with
  | nil => exact ⟨rfl, rfl⟩
  | cons op rest ih =>
    rw [List.forall_mem_cons] at hcontained
    cases hprobe : op.isProbe with
    | true =>
      have hstore := perform_probe scanner hprobe hcontained.1 hoffset
      have hrest := ih hcontained.2 hoffset
      simp only [performAll, List.zip_cons_cons, List.filter_cons, hprobe, Bool.not_true,
        Bool.false_eq_true, if_false, hstore]
      exact hrest
    | false =>
      obtain ⟨hresult, hstore⟩ := ih hcontained.2 (perform_within scanner hprobe hoffset)
      simp only [performAll, List.zip_cons_cons, List.filter_cons, hprobe, Bool.not_false,
        if_true, List.map_cons]
      exact ⟨congrArg _ hresult, hstore⟩

/-- Where a sign of division must not be matched, a guard meets a fault inside another one, a
position that does not exist and a token that is committed, and a lookahead meets the sign. Without
them an operand is committed, no position is taken up, the sign is a fault behind which the scanner
stands, and then a second operand is committed. -/
theorem probes_erasable_tripwire :
    let scanner : Scanner := { lexicon := Ecma.lexicon, tripwire := some Ecma.slash }
    let guarded : List ScanOp := [.guard [.consume Ecma.slash], .seek 9, .seek 4,
      .consume Ecma.identifier]
    let script : List ScanOp := [.guard guarded, .consume Ecma.identifier, .guard guarded,
      .seek 9, .check Ecma.multiplicativeStart, .consume Ecma.slash, .consume Ecma.identifier]
    let s : Store := { source := "a / b".toList }
    let remaining : List (Except Fault ScanAnswer × Nat) :=
      [(.ok (.token (some ⟨Ecma.identifier, ['a'], ⟨0, 1⟩⟩)), 1),
        (.error (.positionOutOfBounds 9 5), 1), (.error .tripwire, 3),
        (.ok (.token (some ⟨Ecma.identifier, ['b'], ⟨4, 5⟩⟩)), 5)]
    (∀ op ∈ script, op.Contained) ∧ s.offset ≤ byteLength s.source ∧
      (((script.zip (performAll scanner script s).result).filter fun p => !p.1.isProbe).map
        fun p => (p.2.answer, p.2.offset)) = remaining := by
  intro scanner guarded script s remaining
  have hcontained : ∀ op ∈ script, op.Contained := by
    simp [script, guarded, Contained, restartsAny, restarts]
  have hoffset : s.offset ≤ byteLength s.source := by decide
  obtain ⟨-, hresult, -⟩ := probes_erasable scanner hcontained hoffset
  have hbare : (performAll scanner (script.filter fun op => !op.isProbe) s).result.map
      (fun step => (step.answer, step.offset)) = remaining := by
    decide +kernel
  rw [hresult, List.map_map] at hbare
  exact ⟨hcontained, hoffset, hbare⟩

end ScanOp

end PredictiveParsing
