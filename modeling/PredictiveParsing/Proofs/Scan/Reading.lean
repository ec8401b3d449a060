import PredictiveParsing.Predict.Lookahead
import PredictiveParsing.Proofs.Regex.Rests

/-!
# Scanning at a place between two texts

A store whose offset stands between two characters is `Store.between before rest`. From such a
place the operations of a scanner act on the text `rest` alone: they pass over a gap and move
over a word, and the place behind them is again between two texts. Where the source is short
enough for its offsets nothing faults.

* `skip_between`, `tryMatch_between`, `tryMatch_between_none`: the operations that move.
* `matchingCandidate_between`, `matchingBranch_between`: a lookahead answers with the first
  candidate or branch that matches behind the gap, and stays where it is.
-/

namespace PredictiveParsing

open Text

/-! ## Running actions -/

namespace Action

variable {ρ σ ε α β : Type}

@[simp] theorem pure_apply (a : α) (s : σ) : (pure a : Action ρ σ ε α) s = ⟨.ok a, s, []⟩ := rfl

@[simp] theorem get_apply (s : σ) : (get : Action ρ σ ε σ) s = ⟨.ok s, s, []⟩ := rfl

@[simp] theorem modify_apply (f : σ → σ) (s : σ) :
    (modify f : Action ρ σ ε Unit) s = ⟨.ok (), f s, []⟩ := rfl

@[simp] theorem emit_apply (r : ρ) (s : σ) : (emit r : Action ρ σ ε Unit) s = ⟨.ok (), s, [r]⟩ :=
  rfl

@[simp] theorem emitAll_apply (rs : List ρ) (s : σ) :
    (emitAll rs : Action ρ σ ε Unit) s = ⟨.ok (), s, rs⟩ := rfl

@[simp] theorem raise_apply (e : ε) (s : σ) :
    (raise e : Action ρ σ ε α) s = ⟨.error e, s, []⟩ := rfl

@[simp] theorem stop_apply (f : Fault) (s : σ) :
    (stop f : Action ρ σ ε α) s = ⟨.fault f, s, []⟩ := rfl

@[simp] theorem ofExcept_ok_apply (a : α) (s : σ) :
    (ofExcept (.ok a) : Action ρ σ ε α) s = ⟨.ok a, s, []⟩ := rfl

theorem bind_apply (x : Action ρ σ ε α) (f : α → Action ρ σ ε β) (s : σ) :
    (x >>= f) s =
      match (x s).exit with
      | .ok a => ⟨(f a (x s).state).exit, (f a (x s).state).state,
          (x s).records ++ (f a (x s).state).records⟩
      | .error e => ⟨.error e, (x s).state, (x s).records⟩
      | .fault g => ⟨.fault g, (x s).state, (x s).records⟩ := rfl

theorem map_apply (f : α → β) (x : Action ρ σ ε α) (s : σ) :
    (f <$> x) s =
      match (x s).exit with
      | .ok a => ⟨.ok (f a), (x s).state, (x s).records ++ []⟩
      | .error e => ⟨.error e, (x s).state, (x s).records⟩
      | .fault g => ⟨.fault g, (x s).state, (x s).records⟩ := rfl

theorem bind_of_ok {x : Action ρ σ ε α} {f : α → Action ρ σ ε β} {s s' : σ} {a : α}
    {records : List ρ} (h : x s = ⟨.ok a, s', records⟩) :
    (x >>= f) s = ⟨(f a s').exit, (f a s').state, records ++ (f a s').records⟩ := by
  rw [bind_apply, h]

theorem ite_apply (c : Prop) [Decidable c] (x y : Action ρ σ ε α) (s : σ) :
    (if c then x else y) s = if c then x s else y s := by
  split <;> rfl

end Action

theorem Run.eq_of_exit {ρ σ ε α : Type} {r : Run ρ σ ε α} {exit : Exit ε α} (h : r.exit = exit) :
    r = ⟨exit, r.state, r.records⟩ := by
  rw [← h]

/-! ## Cutting texts -/

/-- Ends of a text that have the same length are the same. -/
theorem Text.eq_of_append_eq {a b rest rest' : Text} (h : a ++ rest = b ++ rest')
    (hlen : byteLength rest = byteLength rest') : rest = rest' := by
  rcases List.append_eq_append_iff.1 h with ⟨c, -, hc⟩ | ⟨c, -, hc⟩
  · have hzero : byteLength c = 0 := by
      rw [hc, byteLength_append] at hlen
      omega
    rw [hc, byteLength_eq_zero_iff.1 hzero, List.nil_append]
  · have hzero : byteLength c = 0 := by
      rw [hc, byteLength_append] at hlen
      omega
    rw [hc, byteLength_eq_zero_iff.1 hzero, List.nil_append]

/-! ## Words and gaps -/

namespace Lexicon

/-- The numbers of the kinds with a property, in order. -/
def kindsWith (lexicon : Lexicon) (p : Kind → Bool) : List KindId :=
  ((List.range lexicon.size).map KindId.mk).filter fun id => (lexicon.get? id).any p

theorem mem_kindsWith {lexicon : Lexicon} {p : Kind → Bool} {id : KindId} :
    id ∈ lexicon.kindsWith p ↔ ∃ kind, lexicon.get? id = some kind ∧ p kind = true := by
  rw [kindsWith, List.mem_filter, Option.any_eq_true]
  refine and_iff_right_of_imp ?_
  rintro ⟨kind, hkind, -⟩
  obtain ⟨hlt, -⟩ := List.getElem?_eq_some_iff.1 hkind
  exact List.mem_map_of_mem (List.mem_range.2 hlt)

/-- The bytes that a word of a kind takes at the front of a text. -/
def lengthAt (lexicon : Lexicon) (id : KindId) (text : Text) : Option Nat :=
  (lexicon.get? id).bind (·.matchLength text)

/-- In front of the rest of a text, a word is what a kind matches. -/
def Takes (lexicon : Lexicon) (id : KindId) (word rest : Text) : Prop :=
  lexicon.lengthAt id (word ++ rest) = some (byteLength word)

/-- A kind matches at the front of a text. -/
def sees (lexicon : Lexicon) (text : Text) (id : KindId) : Bool :=
  (lexicon.lengthAt id text).isSome

theorem exists_of_lengthAt {lexicon : Lexicon} {id : KindId} {text : Text} {n : Nat}
    (h : lexicon.lengthAt id text = some n) :
    ∃ kind, lexicon.get? id = some kind ∧ kind.matchLength text = some n := by
  rwa [lengthAt, Option.bind_eq_some_iff] at h

theorem Takes.ne_nil {lexicon : Lexicon} {id : KindId} {word rest : Text}
    (h : lexicon.Takes id word rest) : word ≠ [] := by
  obtain ⟨kind, -, hlen⟩ := exists_of_lengthAt h
  rw [Kind.matchLength, Option.bind_eq_some_iff] at hlen
  obtain ⟨f, -, hf⟩ := hlen
  split at hf
  · rename_i hpos
    intro hnil
    rw [Option.some.injEq, hnil, byteLength_nil] at hf
    omega
  · cases hf

/-- What a kind matches is a word at the front of the text. -/
theorem exists_takes {lexicon : Lexicon} {id : KindId} {text : Text}
    (h : lexicon.sees text id = true) :
    ∃ word rest, text = word ++ rest ∧ lexicon.Takes id word rest := by
  obtain ⟨n, hn⟩ := Option.isSome_iff_exists.1 h
  obtain ⟨kind, hkind, hlen⟩ := exists_of_lengthAt hn
  rw [Kind.matchLength, Option.bind_eq_some_iff] at hlen
  obtain ⟨f, hfind, hf⟩ := hlen
  obtain ⟨pre, mid, post, htext, -, hstop⟩ := Matcher.find_split hfind
  split at hf
  · cases hf
    refine ⟨pre ++ mid, post, htext, ?_⟩
    rw [Takes, ← htext, hn, hstop, byteLength_append]
  · cases hf

theorem Takes.sees {lexicon : Lexicon} {id : KindId} {word rest : Text}
    (h : lexicon.Takes id word rest) : lexicon.sees (word ++ rest) id = true := by
  rw [Lexicon.sees, h]
  rfl

theorem sees_nil (lexicon : Lexicon) (id : KindId) : lexicon.sees [] id = false := by
  cases hsees : lexicon.sees [] id with
  | false => rfl
  | true =>
    obtain ⟨word, rest, htext, ht⟩ := exists_takes hsees
    exact absurd (List.append_eq_nil_iff.1 htext.symm).1 ht.ne_nil

/-- What is passed over is a piece at the front of the text. -/
theorem exists_skipLength (lexicon : Lexicon) (text : Text) :
    ∃ gap rest, text = gap ++ rest ∧ lexicon.skipLength text = byteLength gap := by
  rw [skipLength]
  cases h : lexicon.skip.bind (·.find text) with
  | none => exact ⟨[], text, rfl, rfl⟩
  | some f =>
    obtain ⟨m, -, hf⟩ := Option.bind_eq_some_iff.1 h
    obtain ⟨pre, mid, post, htext, -, hstop⟩ := Matcher.find_split hf
    exact ⟨pre ++ mid, post, htext, by rw [byteLength_append, ← hstop]; rfl⟩

end Lexicon

namespace Scanner

/-- The bytes that a scanner passes over at the front of a text. -/
def gapLength (scanner : Scanner) (text : Text) : Nat :=
  if scanner.config.skipping then scanner.lexicon.skipLength text else 0

/-- In front of the rest of a text, a gap is what the scanner passes over. -/
def Gap (scanner : Scanner) (gap rest : Text) : Prop :=
  scanner.gapLength (gap ++ rest) = byteLength gap

theorem exists_gap (scanner : Scanner) (text : Text) :
    ∃ gap rest, text = gap ++ rest ∧ scanner.Gap gap rest := by
  by_cases h : scanner.config.skipping = true
  · obtain ⟨gap, rest, htext, hlen⟩ := scanner.lexicon.exists_skipLength text
    exact ⟨gap, rest, htext, by rw [Gap, gapLength, if_pos h, ← htext, hlen]⟩
  · exact ⟨[], text, rfl, by rw [Gap, gapLength, if_neg h]; rfl⟩

end Scanner

/-! ## Places -/

namespace Store

/-- The place behind one text and in front of another. -/
def between (before rest : Text) : Store := ⟨before ++ rest, byteLength before⟩

@[simp] theorem source_between (before rest : Text) :
    (between before rest).source = before ++ rest :=
  rfl

@[simp] theorem offset_between (before rest : Text) :
    (between before rest).offset = byteLength before := rfl

@[simp] theorem remaining_between (before rest : Text) :
    (between before rest).remaining = rest := by
  simp [remaining]

theorem atEnd_between (before rest : Text) : (between before rest).atEnd = rest.isEmpty := by
  cases rest with
  | nil => simp [atEnd]
  | cons c rest =>
    have hpos := utf8Size_pos c
    simp [atEnd]
    omega

variable {ρ ε : Type}

theorem advance_between {a b rest : Text} (hlen : byteLength (a ++ b ++ rest) < offsetLimit) :
    (advance (byteLength b) : Action ρ Store ε Unit) (between a (b ++ rest)) =
      ⟨.ok (), between (a ++ b) rest, []⟩ := by
  simp only [byteLength_append] at hlen
  rw [advance, if_neg (by simp; omega), if_neg (by simp)]
  simp [between]

theorem begin_of_lt {source : Text} (hlen : byteLength source < offsetLimit) (s : Store) :
    (begin source : Action ρ Store ε Unit) s = ⟨.ok (), between [] source, []⟩ := by
  rw [begin, if_pos hlen]
  rfl

end Store

/-! ## Moving -/

namespace Scanner

variable {ε : Type} {scanner : Scanner}

theorem skip_between {before gap rest : Text} (hgap : scanner.Gap gap rest)
    (hlen : byteLength (before ++ gap ++ rest) < offsetLimit) :
    (scanner.skip : Action Event Store ε Nat) (Store.between before (gap ++ rest)) =
      ⟨.ok (byteLength gap), Store.between (before ++ gap) rest, []⟩ := by
  have hlt : byteLength gap < offsetLimit := by
    simp only [byteLength_append] at hlen
    omega
  rw [Gap, gapLength] at hgap
  by_cases hs : scanner.config.skipping = true
  · rw [if_pos hs] at hgap
    by_cases hzero : byteLength gap = 0
    · have hnil := byteLength_eq_zero_iff.1 hzero
      subst hnil
      simp only [List.nil_append, byteLength_nil] at hgap
      simp [skip, hs, Action.bind_apply, hgap]
    · have hpos : 0 < byteLength gap := Nat.pos_of_ne_zero hzero
      simp [skip, hs, Action.bind_apply, Action.map_apply, hgap, hlt, hpos,
        Store.advance_between hlen]
  · rw [if_neg hs] at hgap
    have hnil := byteLength_eq_zero_iff.1 hgap.symm
    subst hnil
    simp [skip, hs]

/-- The token of a word behind a text. -/
def tokenOf (id : KindId) (before word : Text) : Token :=
  ⟨id, word, ⟨byteLength before, byteLength before + byteLength word⟩⟩

theorem tokenAt_between {id : KindId} {before word rest : Text}
    (htakes : scanner.lexicon.Takes id word rest)
    (hlen : byteLength (before ++ word ++ rest) < offsetLimit) :
    ∃ kind, scanner.tokenAt id (Store.between before (word ++ rest)) =
      .ok (some (kind, tokenOf id before word)) := by
  obtain ⟨kind, hkind, hmatch⟩ := Lexicon.exists_of_lengthAt htakes
  refine ⟨kind, ?_⟩
  simp only [byteLength_append] at hlen
  have hstart : ¬ offsetLimit ≤ byteLength before := by omega
  have hstop : ¬ offsetLimit ≤ byteLength before + byteLength word := by omega
  simp [tokenAt, hkind, hmatch, Span.ofRange, hstart, hstop, tokenOf]

theorem tryMatch_between {id : KindId} {before word rest : Text} (htrip : scanner.tripwire = none)
    (htakes : scanner.lexicon.Takes id word rest)
    (hlen : byteLength (before ++ word ++ rest) < offsetLimit) :
    ∃ kind, (scanner.tryMatch id : Action Event Store ε (Option Token))
        (Store.between before (word ++ rest)) =
      ⟨.ok (some (tokenOf id before word)), Store.between (before ++ word) rest,
        matchEvents kind (tokenOf id before word)⟩ := by
  obtain ⟨kind, htoken⟩ := tokenAt_between htakes hlen
  have hspan : (tokenOf id before word).span.length = .ok (byteLength word) := by
    rw [Span.length, if_neg (by simp [tokenOf])]
    simp [tokenOf]
  refine ⟨kind, ?_⟩
  simp [tryMatch, Action.bind_apply, Action.map_apply, htoken, hspan,
    Store.advance_between hlen, htrip]

theorem tryMatch_none {id : KindId} {s : Store}
    (h : scanner.lexicon.sees s.remaining id = false) :
    (scanner.tryMatch id : Action Event Store ε (Option Token)) s = ⟨.ok none, s, []⟩ := by
  have hnone : scanner.lexicon.lengthAt id s.remaining = none := by
    rwa [Lexicon.sees, Option.isSome_eq_false_iff, Option.isNone_iff_eq_none] at h
  have htoken : scanner.tokenAt id s = .ok none := by
    rw [Lexicon.lengthAt] at hnone
    cases hkind : scanner.lexicon.get? id with
    | none => simp [tokenAt, hkind]
    | some kind =>
      rw [hkind, Option.bind_some] at hnone
      simp [tokenAt, hkind, hnone]
  simp [tryMatch, Action.bind_apply, htoken]

theorem tryMatch_between_none {id : KindId} {before rest : Text}
    (h : scanner.lexicon.sees rest id = false) :
    (scanner.tryMatch id : Action Event Store ε (Option Token)) (Store.between before rest) =
      ⟨.ok none, Store.between before rest, []⟩ :=
  tryMatch_none (by rwa [Store.remaining_between])

/-- What stands in front of a text when no kind is asked for. -/
def foundOf (scanner : Scanner) (before rest : Text) : Token :=
  scanner.foundAt (Store.between before rest)

theorem found_between {before rest : Text} (hlen : byteLength (before ++ rest) < offsetLimit) :
    (scanner.found : Action Event Store ε Token) (Store.between before rest) =
      ⟨.ok (scanner.foundOf before rest), Store.between before rest, []⟩ := by
  have hstop : (scanner.foundOf before rest).span.stop < offsetLimit := by
    rw [byteLength_append] at hlen
    cases rest with
    | nil => simpa [foundOf, foundAt, Store.current?, Span.point] using hlen
    | cons c rest =>
      simp only [byteLength_cons] at hlen
      simp only [foundOf, foundAt, Store.current?, Store.remaining_between, List.head?_cons,
        Store.offset_between]
      omega
  simp only [found, Action.bind_apply, Action.get_apply, Action.ite_apply]
  rw [if_neg (by rw [foundOf] at hstop; omega)]
  rfl

end Scanner

/-! ## Looking ahead -/

/-- The name and the span of a token that is reported as committed. -/
def Event.commit? : Event → Option (String × Span)
  | .consumed kind span => some (kind, span)
  | _ => none

theorem filterMap_commit?_matchEvents (kind : Kind) (token : Token) :
    (Scanner.matchEvents kind token).filterMap Event.commit? = [] := by
  rw [Scanner.matchEvents]
  split <;> rfl

theorem isSome_find?_eq_any {α : Type} (p : α → Bool) (l : List α) :
    (l.find? p).isSome = l.any p := by
  rw [Bool.eq_iff_iff]
  simp

namespace Scanner

variable {ε : Type} {scanner : Scanner}

/-- The first kind that matches is found. If there is none, nothing moves. -/
theorem firstMatch_between {before rest : Text} (htrip : scanner.tripwire = none)
    (hlen : byteLength (before ++ rest) < offsetLimit) (kinds : List KindId) :
    ∃ s records, (scanner.firstMatch kinds : Action Event Store ε (Option KindId))
        (Store.between before rest) =
        ⟨.ok (kinds.find? (scanner.lexicon.sees rest)), s, records⟩ ∧
      s.source = before ++ rest ∧
      (kinds.find? (scanner.lexicon.sees rest) = none → s = Store.between before rest) ∧
      records.filterMap Event.commit? = [] := by
  induction kinds with
  | nil => exact ⟨_, _, rfl, rfl, fun _ => rfl, rfl⟩
  | cons id kinds ih =>
    by_cases hsees : scanner.lexicon.sees rest id = true
    · obtain ⟨word, rest', rfl, htakes⟩ := Lexicon.exists_takes hsees
      obtain ⟨kind, hmatch⟩ := tryMatch_between (ε := ε) htrip htakes
        (by rwa [List.append_assoc])
      refine ⟨Store.between (before ++ word) rest', _, ?_, ?_, ?_,
        filterMap_commit?_matchEvents kind (tokenOf id before word)⟩
      · rw [firstMatch, Action.bind_of_ok hmatch, List.find?_cons_of_pos hsees]
        simp only [Action.pure_apply, List.append_nil]
      · simp
      · simp [List.find?_cons_of_pos hsees]
    · obtain ⟨s, records, hrun, hsource, hnone, hquiet⟩ := ih
      have hmiss : scanner.lexicon.sees rest id = false := by simpa using hsees
      refine ⟨s, records, ?_, hsource, ?_, hquiet⟩
      · rw [firstMatch, Action.bind_of_ok (tryMatch_between_none hmiss),
          List.find?_cons_of_neg hsees]
        simp only [hrun, List.nil_append]
      · rwa [List.find?_cons_of_neg hsees]

end Scanner

/-- A body that leaves the source as it is and does not fault is undone by taking the position up
again. -/
theorem Store.keepingPosition_between {ε α : Type} {before rest : Text}
    {body : Action Event Store ε α} (a : α) (s : Store) (records : List Event)
    (h : body (between before rest) = ⟨.ok a, s, records⟩) (hsource : s.source = before ++ rest) :
    keepingPosition body (between before rest) = ⟨.ok a, between before rest, records⟩ := by
  have hle : byteLength before ≤ byteLength s.source := by
    rw [hsource, byteLength_append]
    omega
  simp only [keepingPosition, Action.ensuring, h, seek, offset_between]
  rw [if_pos hle]
  simp [between, hsource]

namespace OptionalLookahead

variable {ε : Type} {scanner : Scanner}

theorem matchingCandidate_between {before gap rest : Text} (htrip : scanner.tripwire = none)
    (hgap : scanner.Gap gap rest) (hlen : byteLength (before ++ gap ++ rest) < offsetLimit)
    (lookahead : OptionalLookahead) :
    ∃ records, (lookahead.matchingCandidate scanner : Action Event Store ε (Option KindId))
        (Store.between before (gap ++ rest)) =
        ⟨.ok (lookahead.candidates.kinds.find? (scanner.lexicon.sees rest)),
          Store.between before (gap ++ rest), records⟩ ∧
      records.filterMap Event.commit? = [] := by
  obtain ⟨s, records, hrun, hsource, -, hquiet⟩ :=
    Scanner.firstMatch_between (ε := ε) htrip hlen lookahead.candidates.kinds
  refine ⟨records ++ [.probed (byteLength before)
    (lookahead.candidates.kinds.find? (scanner.lexicon.sees rest))], ?_, ?_⟩
  · rw [matchingCandidate, Action.bind_of_ok (Action.get_apply _)]
    rw [Store.keepingPosition_between (lookahead.candidates.kinds.find?
      (scanner.lexicon.sees rest)) s (records ++ [.probed (byteLength before)
        (lookahead.candidates.kinds.find? (scanner.lexicon.sees rest))]) ?_
      (by simpa using hsource)]
    · rfl
    · rw [Action.bind_of_ok (Scanner.skip_between hgap hlen), Action.bind_of_ok hrun]
      simp [Action.bind_apply]
  · rw [List.filterMap_append, hquiet]
    rfl

theorem holds_between {before gap rest : Text} (htrip : scanner.tripwire = none)
    (hgap : scanner.Gap gap rest) (hlen : byteLength (before ++ gap ++ rest) < offsetLimit)
    (lookahead : OptionalLookahead) :
    ∃ records, (lookahead.holds scanner : Action Event Store ε Bool)
        (Store.between before (gap ++ rest)) =
        ⟨.ok (lookahead.candidates.kinds.any (scanner.lexicon.sees rest)),
          Store.between before (gap ++ rest), records⟩ ∧
      records.filterMap Event.commit? = [] := by
  obtain ⟨records, hrun, hquiet⟩ :=
    matchingCandidate_between (ε := ε) htrip hgap hlen lookahead
  refine ⟨records, ?_, hquiet⟩
  rw [holds, Action.bind_of_ok hrun]
  simp [isSome_find?_eq_any]

end OptionalLookahead

namespace AlternativeLookahead

variable {ε : Type} {scanner : Scanner}

theorem firstBranch_between {before rest : Text} (htrip : scanner.tripwire = none)
    (hlen : byteLength (before ++ rest) < offsetLimit) (index : Nat) (branches : List Candidates) :
    ∃ s records, (firstBranch scanner index branches : Action Event Store ε (Option Nat))
        (Store.between before rest) =
        ⟨.ok ((branches.findIdx? fun branch =>
            branch.kinds.any (scanner.lexicon.sees rest)).map (· + index)), s, records⟩ ∧
      s.source = before ++ rest ∧ records.filterMap Event.commit? = [] := by
  induction branches generalizing index with
  | nil => exact ⟨_, _, rfl, rfl, rfl⟩
  | cons branch branches ih =>
    obtain ⟨s, records, hrun, hsource, hnone, hquiet⟩ :=
      Scanner.firstMatch_between (ε := ε) htrip hlen branch.kinds
    cases hfind : branch.kinds.find? (scanner.lexicon.sees rest) with
    | some id =>
      have hany : branch.kinds.any (scanner.lexicon.sees rest) = true := by
        rw [← isSome_find?_eq_any, hfind]
        rfl
      rw [hfind] at hrun
      refine ⟨s, records, ?_, hsource, hquiet⟩
      rw [firstBranch, Action.bind_of_ok hrun]
      simp [List.findIdx?_cons, hany]
    | none =>
      have hany : branch.kinds.any (scanner.lexicon.sees rest) = false := by
        rw [← isSome_find?_eq_any, hfind]
        rfl
      obtain ⟨s', records', hrun', hsource', hquiet'⟩ := ih (index + 1)
      rw [hfind, hnone hfind] at hrun
      refine ⟨s', records ++ records', ?_, hsource', ?_⟩
      · rw [firstBranch, Action.bind_of_ok hrun]
        simp only [hrun', List.findIdx?_cons, hany, Bool.false_eq_true, if_false, Option.map_map]
        congr 3
        funext n
        simp only [Function.comp]
        omega
      · rw [List.filterMap_append, hquiet, hquiet', List.append_nil]

theorem matchingBranch_between {before gap rest : Text} (htrip : scanner.tripwire = none)
    (hgap : scanner.Gap gap rest) (hlen : byteLength (before ++ gap ++ rest) < offsetLimit)
    (lookahead : AlternativeLookahead) :
    ∃ records, (lookahead.matchingBranch scanner : Action Event Store ε (Option Nat))
        (Store.between before (gap ++ rest)) =
        ⟨.ok (lookahead.branches.findIdx? fun branch =>
            branch.kinds.any (scanner.lexicon.sees rest)),
          Store.between before (gap ++ rest), records⟩ ∧
      records.filterMap Event.commit? = [] := by
  obtain ⟨s, records, hrun, hsource, hquiet⟩ :=
    firstBranch_between (ε := ε) htrip hlen 0 lookahead.branches
  simp only [Nat.add_zero, Option.map_id'] at hrun
  refine ⟨records ++ [.branched (byteLength before) (lookahead.branches.findIdx? fun branch =>
    branch.kinds.any (scanner.lexicon.sees rest))], ?_, ?_⟩
  · rw [matchingBranch, Action.bind_of_ok (Action.get_apply _)]
    rw [Store.keepingPosition_between (lookahead.branches.findIdx? fun branch =>
      branch.kinds.any (scanner.lexicon.sees rest)) s (records ++ [.branched
        (byteLength before) (lookahead.branches.findIdx? fun branch =>
          branch.kinds.any (scanner.lexicon.sees rest))]) ?_ (by simpa using hsource)]
    · rfl
    · rw [Action.bind_of_ok (Scanner.skip_between hgap hlen), Action.bind_of_ok hrun]
      simp [Action.bind_apply]
  · rw [List.filterMap_append, hquiet]
    rfl

end AlternativeLookahead

end PredictiveParsing
