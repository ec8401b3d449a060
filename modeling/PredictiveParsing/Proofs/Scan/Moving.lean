import PredictiveParsing.Proofs.Effect.Following

/-!
# Moving on

From any offset, also one inside a character or behind the end, a scanner moves forward only. What
it matches starts where it stands and ends where it gets to.

* `Store.Leads`: from one store to another it goes forward in the same source.
* `Forward`: what every run of a scanner does that takes up no position of its own.
* `Scanner.Obeys`: relations, such as this one, that all operations of a scanner follow.
* `tryMatch_tokenAt`, `consume_cases`: all that an attempt to match and a commitment can do.
-/

namespace PredictiveParsing

open Text

variable {ε α : Type}

/-! ## Forward -/

/-- In the same source it goes forward, and not behind its end unless it started from there. -/
structure Store.Leads (s t : Store) : Prop where
  source : t.source = s.source
  le : s.offset ≤ t.offset
  within : s.offset ≤ byteLength s.source → t.offset ≤ byteLength s.source

namespace Store.Leads

theorem refl (s : Store) : s.Leads s := ⟨rfl, Nat.le_refl _, id⟩

theorem trans {s t u : Store} (h : s.Leads t) (h' : t.Leads u) : s.Leads u where
  source := h'.source.trans h.source
  le := Nat.le_trans h.le h'.le
  within hs := by
    have ht := h'.within
    rw [h.source] at ht
    exact ht (h.within hs)

end Store.Leads

/-- Whether an event is reported by a parser and not by the scanner below it. -/
def Event.ofParser : Event → Bool
  | .consumed _ _ | .entered _ _ | .exited _ _ | .mismatched _ _ _ => true
  | _ => false

/-- It goes forward, and only the scanner reports. -/
structure Forward (s : Store) (events : List Event) (t : Store) : Prop where
  leads : s.Leads t
  scanned : ∀ e ∈ events, e.ofParser = false

theorem Forward.of_leads {s t : Store} (h : s.Leads t) : Forward s [] t :=
  ⟨h, fun _ he => absurd he List.not_mem_nil⟩

instance : Composes Forward where
  refl s := .of_leads (.refl s)
  trans h h' := ⟨h.leads.trans h'.leads, List.forall_mem_append.2 ⟨h.scanned, h'.scanned⟩⟩

theorem emit_forward {event : Event} (h : event.ofParser = false) :
    (Action.emit event : Action Event Store ε Unit).Follows Forward := fun s =>
  ⟨.refl s, List.forall_mem_singleton.2 h⟩

namespace Store

/-- Moving over bytes of the source faults and moves nothing, or it gets behind them. -/
theorem advance_cases (length : Nat) (s : Store) :
    (∃ f, (advance length s : Run Event Store ε Unit) = ⟨.fault f, s, []⟩) ∨
      s.offset + length ≤ byteLength s.source ∧
        (advance length s : Run Event Store ε Unit) =
          ⟨.ok (), { s with offset := s.offset + length }, []⟩ := by
  rw [advance]
  split
  · exact Or.inl ⟨_, rfl⟩
  · split
    · exact Or.inl ⟨_, rfl⟩
    · rename_i hend
      exact Or.inr ⟨Nat.le_of_not_lt hend, rfl⟩

theorem advance_forward (length : Nat) :
    Action.Follows Forward (advance length : Action Event Store ε Unit) := by
  intro s
  rcases advance_cases (ε := ε) length s with ⟨f, hrun⟩ | ⟨hend, hrun⟩
  · rw [hrun]
    exact Composes.refl s
  · rw [hrun]
    exact .of_leads ⟨rfl, Nat.le_add_right _ _, fun _ => hend⟩

/-- Taking up the position again emits nothing. -/
theorem keepingPosition_records {body : Action Event Store ε α} (s : Store) :
    (keepingPosition body s).records = (body s).records := by
  have hseek (t : Store) : (seek s.offset t : Run Event Store ε Unit).records = [] := by
    rw [seek]
    split <;> rfl
  simp only [keepingPosition, Action.ensuring, hseek, List.append_nil]
  split <;> rfl

/-- What leads forward is undone, or, where the position is behind the end, it stays done. -/
theorem keepingPosition_forward {body : Action Event Store ε α} (hbody : body.Follows Forward) :
    (keepingPosition body).Follows Forward := by
  intro s
  obtain ⟨hleads, hscanned⟩ := hbody s
  by_cases hwithin : s.offset ≤ byteLength (body s).state.source
  · simp only [keepingPosition, Action.ensuring, seek, if_pos hwithin, List.append_nil]
    exact ⟨⟨hleads.source, Nat.le_refl _, id⟩, hscanned⟩
  · simp only [keepingPosition, Action.ensuring, seek, if_neg hwithin, List.append_nil]
    exact ⟨hleads, hscanned⟩

end Store

/-! ## Relations that scanners obey -/

/-- A relation that holds of all gaps that a scanner passes over, of all its attempts to match and
of what lookaheads report, and that does not mind if a position is taken up again. -/
class Scanner.Obeys (scanner : Scanner) (T : Store → List Event → Store → Prop) : Prop extends
    Composes T where
  skip {ε : Type} : (scanner.skip : Action Event Store ε Nat).Follows T
  tryMatch {ε : Type} (id : KindId) :
    (scanner.tryMatch id : Action Event Store ε (Option Token)).Follows T
  probed {ε : Type} (offset : Nat) (candidate : Option KindId) :
    (Action.emit (.probed offset candidate) : Action Event Store ε Unit).Follows T
  branched {ε : Type} (offset : Nat) (branch : Option Nat) :
    (Action.emit (.branched offset branch) : Action Event Store ε Unit).Follows T
  keeping {ε α : Type} {body : Action Event Store ε α} :
    body.Follows T → (Store.keepingPosition body).Follows T

namespace Scanner

variable (scanner : Scanner) {T : Store → List Event → Store → Prop}

theorem found_follows [Composes T] : (scanner.found : Action Event Store ε Token).Follows T :=
  .bind .get fun _ => .ite (.stop _) (.pure _)

variable [scanner.Obeys T]

theorem firstMatch_follows (kinds : List KindId) :
    (scanner.firstMatch kinds : Action Event Store ε (Option KindId)).Follows T := by
  induction kinds with
  | nil => exact .pure none
  | cons id kinds ih =>
    refine .bind (Obeys.tryMatch id) fun found => ?_
    cases found with
    | none => exact ih
    | some _ => exact .pure _

theorem consume_follows (id : KindId) : (scanner.consume id).Follows T := by
  refine .bind Obeys.skip fun _ => .bind (Obeys.tryMatch id) fun found => ?_
  cases found with
  | some token => exact .pure token
  | none => exact .bind scanner.found_follows fun _ => .raise _

end Scanner

/-! ## Scanning -/

theorem Kind.pos_of_matchLength {kind : Kind} {text : Text} {length : Nat}
    (h : kind.matchLength text = some length) : 0 < length := by
  rw [matchLength, Option.bind_eq_some_iff] at h
  obtain ⟨found, -, hfound⟩ := h
  split at hfound
  · rename_i hlength
    cases hfound
    exact hlength.1
  · cases hfound

namespace Scanner

theorem tokenAt_ok {scanner : Scanner} {id : KindId} {s : Store} {kind : Kind} {token : Token}
    (h : scanner.tokenAt id s = .ok (some (kind, token))) :
    scanner.lexicon.get? id = some kind ∧ token.kind = id ∧ token.span.start = s.offset ∧
      s.offset < token.span.stop := by
  rw [tokenAt] at h
  split at h
  · cases h
  · rename_i found hkind
    split at h
    · cases h
    · rename_i length hlength
      have hpos := Kind.pos_of_matchLength hlength
      split at h
      · cases h
      · cases h
      · rename_i text span _ hspan
        cases h
        have hspan : span = ⟨s.offset, s.offset + length⟩ := by
          rw [Span.ofRange] at hspan
          split at hspan
          · cases hspan
          · split at hspan
            · cases hspan
            · cases hspan
              rfl
        exact ⟨hkind, rfl, by rw [hspan], by rw [hspan]; exact Nat.lt_add_of_pos_right hpos⟩

/-- The text of a token is what its kind takes of the text that is left. -/
theorem takes_of_tokenAt {scanner : Scanner} {id : KindId} {s : Store} {kind : Kind} {token : Token}
    (h : scanner.tokenAt id s = .ok (some (kind, token))) :
    ∃ rest, s.remaining = token.text ++ rest ∧ scanner.lexicon.Takes id token.text rest := by
  rw [tokenAt] at h
  split at h
  · cases h
  · rename_i found hkind
    split at h
    · cases h
    · rename_i length hlength
      have hat : scanner.lexicon.lengthAt id s.remaining = some length := by
        rw [Lexicon.lengthAt, hkind, Option.bind_some, hlength]
      obtain ⟨word, rest, hword, htakes⟩ := Lexicon.exists_takes (Option.isSome_of_eq_some hat)
      rw [hword, htakes, Option.some.injEq] at hat
      rw [hword, ← hat, takeBytes?_byteLength_append] at h
      split at h
      · cases h
      · cases h
      · rename_i text span htext hspan
        cases htext
        cases h
        exact ⟨rest, hword, htakes⟩

variable (scanner : Scanner)

theorem skip_cases (s : Store) :
    (∃ f, (scanner.skip s : Run Event Store ε Nat) = ⟨.fault f, s, []⟩) ∨
      ∃ length t, (scanner.skip s : Run Event Store ε Nat) = ⟨.ok length, t, []⟩ := by
  by_cases hskipping : scanner.config.skipping = true
  · simp only [skip, hskipping, if_true, Action.bind_of_ok (Action.get_apply s)]
    generalize (if scanner.lexicon.skipLength s.remaining < offsetLimit then
      scanner.lexicon.skipLength s.remaining else 0) = skipped
    by_cases hskipped : 0 < skipped
    · rcases Store.advance_cases (ε := ε) skipped s with ⟨f, hrun⟩ | ⟨-, hrun⟩
      · exact Or.inl ⟨f, by simp [Action.bind_apply, hskipped, hrun]⟩
      · exact Or.inr ⟨skipped, _, by simp [Action.bind_apply, hskipped, hrun]; rfl⟩
    · exact Or.inr ⟨skipped, s, by simp [hskipped]⟩
  · exact Or.inr ⟨0, s, by simp [skip, hskipping]⟩

theorem skip_forward : (scanner.skip : Action Event Store ε Nat).Follows Forward := by
  unfold skip
  refine .ite (.bind .get fun s => ?_) (.pure 0)
  exact .ite (.bind (Store.advance_forward _) fun _ => .pure _) (.pure _)

/-- An attempt to match faults or fails and moves nothing, or it finds the token at the position and
gets behind it. -/
theorem tryMatch_tokenAt (id : KindId) (s : Store) :
    (∃ f, (scanner.tryMatch id s : Run Event Store ε (Option Token)) = ⟨.fault f, s, []⟩) ∨
    (scanner.tryMatch id s : Run Event Store ε (Option Token)) = ⟨.ok none, s, []⟩ ∨
    ∃ kind token, scanner.tokenAt id s = .ok (some (kind, token)) ∧
      token.span.stop ≤ byteLength s.source ∧
      (scanner.tryMatch id s : Run Event Store ε (Option Token)) =
        ⟨if scanner.tripwire = some id then .fault .tripwire else .ok (some token),
          { s with offset := token.span.stop }, matchEvents kind token⟩ := by
  rcases htoken : scanner.tokenAt id s with f | _ | ⟨kind, token⟩
  · exact Or.inl ⟨f, by simp [tryMatch, Action.bind_apply, htoken, Action.ofExcept]⟩
  · exact Or.inr (Or.inl (by simp [tryMatch, Action.bind_apply, htoken]))
  · obtain ⟨-, -, hstart, hstop⟩ := tokenAt_ok htoken
    have hlength : token.span.length = .ok (token.span.stop - s.offset) := by
      rw [Span.length, hstart, if_neg (Nat.not_lt_of_lt hstop)]
    have hsum : s.offset + (token.span.stop - s.offset) = token.span.stop := by omega
    rcases Store.advance_cases (ε := ε) (token.span.stop - s.offset) s with
      ⟨f, hrun⟩ | ⟨hend, hrun⟩
    · exact Or.inl ⟨f, by simp [tryMatch, Action.bind_apply, htoken, hlength, hrun]⟩
    · rw [hsum] at hend hrun
      refine Or.inr (Or.inr ⟨kind, token, rfl, hend, ?_⟩)
      by_cases htrip : scanner.tripwire = some id <;>
        simp [tryMatch, Action.bind_apply, Action.map_apply, htoken, hlength, hrun, htrip]

/-- An attempt to match faults or fails and moves nothing, or it finds a token that starts where the
scanner stands and gets behind it. -/
theorem tryMatch_cases (id : KindId) (s : Store) :
    (∃ f, (scanner.tryMatch id s : Run Event Store ε (Option Token)) = ⟨.fault f, s, []⟩) ∨
    (scanner.tryMatch id s : Run Event Store ε (Option Token)) = ⟨.ok none, s, []⟩ ∨
    ∃ kind token, scanner.lexicon.get? id = some kind ∧ token.kind = id ∧
      token.span.start = s.offset ∧ s.offset < token.span.stop ∧
      token.span.stop ≤ byteLength s.source ∧
      (scanner.tryMatch id s : Run Event Store ε (Option Token)) =
        ⟨if scanner.tripwire = some id then .fault .tripwire else .ok (some token),
          { s with offset := token.span.stop }, matchEvents kind token⟩ := by
  rcases scanner.tryMatch_tokenAt (ε := ε) id s with
    hfault | hnone | ⟨kind, token, htoken, hend, hrun⟩
  · exact Or.inl hfault
  · exact Or.inr (Or.inl hnone)
  · obtain ⟨hkind, hid, hstart, hstop⟩ := tokenAt_ok htoken
    exact Or.inr (Or.inr ⟨kind, token, hkind, hid, hstart, hstop, hend, hrun⟩)

theorem scanned_matchEvents (kind : Kind) (token : Token) :
    ∀ e ∈ matchEvents kind token, e.ofParser = false := by
  rw [matchEvents, List.forall_mem_append, List.forall_mem_singleton]
  refine ⟨?_, rfl⟩
  split
  · exact List.forall_mem_singleton.2 rfl
  · exact fun _ he => absurd he List.not_mem_nil

theorem tryMatch_forward (id : KindId) :
    (scanner.tryMatch id : Action Event Store ε (Option Token)).Follows Forward := by
  intro s
  rcases scanner.tryMatch_cases (ε := ε) id s with
    ⟨f, hrun⟩ | hrun | ⟨kind, token, -, -, -, hstop, hend, hrun⟩
  · rw [hrun]
    exact Composes.refl s
  · rw [hrun]
    exact Composes.refl s
  · rw [hrun]
    exact ⟨⟨rfl, Nat.le_of_lt hstop, fun _ => hend⟩, scanned_matchEvents kind token⟩

/-- A commitment faults, or it mismatches, or it finds a token of the kind behind the gap and gets
behind it. -/
theorem consume_cases (id : KindId) (s : Store) :
    (∃ f, (scanner.consume id s).exit = .fault f) ∨
    (∃ m t, scanner.consume id s = ⟨.error m, t, []⟩) ∨
    ∃ kind token, scanner.lexicon.get? id = some kind ∧ token.kind = id ∧
      s.offset ≤ token.span.start ∧ token.span.start < token.span.stop ∧
      token.span.stop ≤ byteLength s.source ∧
      scanner.consume id s =
        ⟨.ok token, { s with offset := token.span.stop }, matchEvents kind token⟩ := by
  rcases scanner.skip_cases (ε := Mismatch) s with ⟨f, hskip⟩ | ⟨length, t, hskip⟩
  · exact Or.inl ⟨f, by rw [consume, Action.bind_apply, hskip]⟩
  have hgap : s.Leads t := by
    have h := (scanner.skip_forward (ε := Mismatch) s).leads
    rwa [hskip] at h
  rcases scanner.tryMatch_cases (ε := Mismatch) id t with
    ⟨f, hmatch⟩ | hmatch | ⟨kind, token, hkind, hid, hstart, hstop, hend, hmatch⟩
  · exact Or.inl ⟨f, by simp [consume, Action.bind_apply, hskip, hmatch]⟩
  · by_cases hlimit : offsetLimit ≤ (scanner.foundAt t).span.stop
    · exact Or.inl ⟨.offsetOverflow,
        by simp [consume, found, Action.bind_apply, hskip, hmatch, hlimit]⟩
    · exact Or.inr (Or.inl ⟨⟨id, scanner.foundAt t⟩, t,
        by simp [consume, found, Action.bind_apply, hskip, hmatch, hlimit]⟩)
  · by_cases htrip : scanner.tripwire = some id
    · rw [if_pos htrip] at hmatch
      exact Or.inl ⟨.tripwire, by simp [consume, Action.bind_apply, hskip, hmatch]⟩
    · rw [if_neg htrip] at hmatch
      rw [hgap.source] at hend hmatch
      refine Or.inr (Or.inr ⟨kind, token, hkind, hid, ?_, ?_, hend, ?_⟩)
      · exact hstart ▸ hgap.le
      · exact hstart ▸ hstop
      · simp [consume, Action.bind_apply, hskip, hmatch]

instance : Obeys scanner Forward where
  skip := scanner.skip_forward
  tryMatch := scanner.tryMatch_forward
  probed _ _ := emit_forward rfl
  branched _ _ := emit_forward rfl
  keeping := Store.keepingPosition_forward

end Scanner

end PredictiveParsing
