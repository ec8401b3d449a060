import PredictiveParsing.Proofs.Scan.Erasing

/-!
# Scripts without faults

A script is lawful if it takes up no position that was not exported in the same source, begins no
source that is too long, and begins none inside a guard. Which positions were exported depends on
the run. In the run of a lawful script nothing faults, and every offset stands between two
characters.

* `Store.Sound`: what every operation asks of a store and leaves behind.
* `tryMatch_sound`, `consume_sound`, `found_sound`: the tokens are cut out of the source.
* `ScanOp.lawful`: the scripts; `ScanOp.Performs`: what they perform, also inside guards.
* `perform_kept`: one step; `scripts_safe`: whole runs.
-/

namespace PredictiveParsing

open Text

/-! ## Stores between two characters -/

namespace Store

/-- A store that a scanner can work on: the source is short enough for its offsets, and the offset
stands between two characters. -/
structure Sound (s : Store) : Prop where
  fits : byteLength s.source < offsetLimit
  boundary : IsBoundary s.source s.offset

namespace Sound

variable {s : Store}

theorem exists_between (h : s.Sound) :
    ∃ before rest, s = between before rest ∧ byteLength (before ++ rest) < offsetLimit := by
  obtain ⟨before, rest, hsource, hoffset⟩ := h.boundary
  refine ⟨before, rest, ?_, hsource ▸ h.fits⟩
  rw [between, ← hsource, ← hoffset]

theorem between {before rest : Text} (h : byteLength (before ++ rest) < offsetLimit) :
    (Store.between before rest).Sound :=
  ⟨h, before, rest, rfl, rfl⟩

theorem le (h : s.Sound) : s.offset ≤ byteLength s.source := by
  obtain ⟨before, rest, hsource, hoffset⟩ := h.boundary
  rw [hsource, hoffset, byteLength_append]
  exact Nat.le_add_right _ _

end Sound

end Store

namespace ScanOp

/-! ## Positions that may be taken up -/

mutual

/-- The positions exported since the last begin, up to the end of an operation. A begin forgets
those before it, and inside a guard further ones are exported. -/
def exported (scanner : Scanner) : ScanOp → Store → List Nat → List Nat
  | .begin _, _, _ => []
  | .guard script, s, seen => exportedAll scanner script s seen
  | _, _, seen => seen

/-- The positions exported since the last begin, up to the end of a script and behind it. -/
def exportedAll (scanner : Scanner) : List ScanOp → Store → List Nat → List Nat
  | [], _, seen => seen
  | op :: rest, s, seen =>
    let after := (perform scanner op s).store
    exportedAll scanner rest after (after.offset :: exported scanner op s seen)

end

mutual

/-- An operation takes up exported positions only, begins no source that is too long, and guards
nothing that begins a source. -/
def lawful (scanner : Scanner) : ScanOp → Store → List Nat → Bool
  | .begin text, _, _ => byteLength text < offsetLimit
  | .seek offset, _, seen => offset ∈ seen
  | .guard script, s, seen => !restartsAny script && lawfulAll scanner script s seen
  | _, _, _ => true

/-- All operations of a script are lawful where they are performed. -/
def lawfulAll (scanner : Scanner) : List ScanOp → Store → List Nat → Bool
  | [], _, _ => true
  | op :: rest, s, seen =>
    let after := (perform scanner op s).store
    lawful scanner op s seen &&
      lawfulAll scanner rest after (after.offset :: exported scanner op s seen)

end

/-- In the run of a script from a store an operation is performed at a store, in the script itself
or in one that it guards. -/
inductive Performs (scanner : Scanner) : List ScanOp → Store → ScanOp → Store → Prop where
  | here {op : ScanOp} {rest : List ScanOp} {s : Store} : Performs scanner (op :: rest) s op s
  | inside {script rest : List ScanOp} {s t : Store} {op : ScanOp} :
      Performs scanner script s op t → Performs scanner (.guard script :: rest) s op t
  | later {first op : ScanOp} {rest : List ScanOp} {s t : Store} :
      Performs scanner rest (perform scanner first s).store op t →
      Performs scanner (first :: rest) s op t

end ScanOp

/-! ## Tokens -/

/-- A token with some text, which is the slice of a source between two offsets. -/
structure Token.CutFrom (token : Token) (source : Text) (start stop : Nat) : Prop where
  ne_nil : token.text ≠ []
  span : token.span = ⟨start, stop⟩
  slice : Text.slice source token.span.start token.span.stop = some token.text

theorem Scanner.tokenOf_cutFrom (id : KindId) (before rest : Text) {word : Text} (h : word ≠ []) :
    (tokenOf id before word).CutFrom (before ++ word ++ rest) (byteLength before)
      (byteLength (before ++ word)) where
  ne_nil := h
  span := by rw [byteLength_append, tokenOf]
  slice := slice_append before word rest

namespace Scanner

variable {ε : Type} {scanner : Scanner} {s : Store}

/-- An attempt to match moves nothing, or it moves over a token that is cut out right there. -/
theorem tryMatch_sound (htrip : scanner.tripwire = none) (hs : s.Sound) (id : KindId) :
    (scanner.tryMatch id s : Run Event Store ε (Option Token)) = ⟨.ok none, s, []⟩ ∨
      ∃ token t events,
        (scanner.tryMatch id s : Run Event Store ε (Option Token)) = ⟨.ok (some token), t, events⟩ ∧
          t.Sound ∧ token.kind = id ∧ token.CutFrom s.source s.offset t.offset := by
  obtain ⟨before, text, rfl, hlen⟩ := hs.exists_between
  cases hsees : scanner.lexicon.sees text id with
  | false => exact Or.inl (tryMatch_between_none hsees)
  | true =>
    obtain ⟨word, rest, rfl, htakes⟩ := Lexicon.exists_takes hsees
    rw [← List.append_assoc] at hlen
    obtain ⟨kind, hrun⟩ := tryMatch_between (ε := ε) htrip htakes hlen
    refine Or.inr ⟨_, _, _, hrun, .between hlen, rfl, ?_⟩
    rw [Store.source_between, ← List.append_assoc]
    exact tokenOf_cutFrom id before rest htakes.ne_nil

theorem pastGap_sound (scanner : Scanner) (hs : s.Sound) : (scanner.pastGap s).Sound := by
  obtain ⟨before, text, rfl, hlen⟩ := hs.exists_between
  obtain ⟨gap, rest, rfl, hgap⟩ := scanner.exists_gap text
  rw [pastGap_between hgap]
  rw [← List.append_assoc] at hlen
  exact .between hlen

/-- What stands at a place is the end of the input or one character. -/
theorem found_sound (hs : s.Sound) :
    (scanner.found s : Run Event Store ε Token) = ⟨.ok (scanner.foundAt s), s, []⟩ := by
  obtain ⟨before, rest, rfl, hlen⟩ := hs.exists_between
  exact found_between hlen

/-- A commitment mismatches, or it moves over a token that is cut out behind the gap. -/
theorem consume_sound (htrip : scanner.tripwire = none) (hs : s.Sound) (id : KindId) :
    (∃ m t, scanner.consume id s = ⟨.error m, t, []⟩ ∧ t.Sound) ∨
      ∃ token t events, scanner.consume id s = ⟨.ok token, t, events⟩ ∧ t.Sound ∧
        token.kind = id ∧
        token.CutFrom s.source (s.offset + scanner.gapLength s.remaining) t.offset := by
  have hskip := skip_run (ε := Mismatch) scanner hs.fits
  have hgap := scanner.pastGap_sound hs
  rcases tryMatch_sound (ε := Mismatch) htrip hgap id with
    hnone | ⟨token, t, events, hrun, ht, hid, hcut⟩
  · refine Or.inl ⟨⟨id, scanner.foundAt (scanner.pastGap s)⟩, scanner.pastGap s, ?_, hgap⟩
    rw [consume, Action.bind_of_ok hskip, Action.bind_of_ok hnone]
    simp only [Action.bind_of_ok (found_sound hgap), Action.raise_apply]
    rfl
  · refine Or.inr ⟨token, t, events, ?_, ht, hid, hcut⟩
    rw [consume, Action.bind_of_ok hskip, Action.bind_of_ok hrun]
    simp

/-- Only where there is no text left, the end of the input is found. -/
theorem isEndOfInput_foundOf (scanner : Scanner) (before rest : Text) :
    (scanner.foundOf before rest).isEndOfInput = rest.isEmpty := by
  cases rest with
  | nil => simp [foundOf, foundAt, Store.current?, Token.isEndOfInput, Token.isError, Span.point,
      Span.isEmpty]
  | cons c rest =>
    have hpos := utf8Size_pos c
    have hspan : (scanner.foundOf before (c :: rest)).span =
        ⟨byteLength before, byteLength before + c.utf8Size⟩ := by
      simp [foundOf, foundAt, Store.current?]
    have hempty : (byteLength before == byteLength before + c.utf8Size) = false := by
      rw [beq_eq_false_iff_ne]
      omega
    rw [Token.isEndOfInput, hspan, Span.isEmpty, hempty, Bool.and_false]
    rfl

theorem foundOf_cutFrom (scanner : Scanner) (before rest : Text) (c : Char) :
    (scanner.foundOf before (c :: rest)).CutFrom (before ++ c :: rest) (byteLength before)
        (byteLength before + c.utf8Size) ∧
      (scanner.foundOf before (c :: rest)).text = [c] := by
  have hfound : scanner.foundOf before (c :: rest) = tokenOf KindId.error before [c] := by
    simp [foundOf, foundAt, Store.current?, tokenOf]
  have hcut := tokenOf_cutFrom KindId.error before rest (List.cons_ne_nil c [])
  rw [hfound]
  rw [byteLength_append, byteLength_cons, byteLength_nil, Nat.add_zero, List.append_assoc] at hcut
  exact ⟨hcut, rfl⟩

end Scanner

namespace ScanOp

/-! ## One operation -/

/-- A store that a scanner can work on, and the positions that were exported in its source. -/
structure Kept (seen : List Nat) (s : Store) : Prop extends s.Sound where
  exported : ∀ offset ∈ seen, IsBoundary s.source offset

/-- An operation answers, and the scanner can go on behind it. -/
structure Settled (r : ScanRun ScanStep) : Prop where
  answers : ∃ answer, r.result.answer = .ok answer
  sound : r.store.Sound

theorem Settled.step {α : Type} {value : α → ScanAnswer} {action : Action Event Store Mismatch α}
    {s t : Store} {a : α} {events : List Event} (h : action s = ⟨.ok a, t, events⟩) (ht : t.Sound) :
    Settled (step value action s) := by
  rw [ScanOp.step, h]
  exact ⟨⟨value a, rfl⟩, ht⟩

variable {scanner : Scanner} {s : Store} {seen : List Nat}

/-- A lawful operation does not fault. -/
theorem perform_settled (htrip : scanner.tripwire = none) (h : Kept seen s) {op : ScanOp}
    (hop : lawful scanner op s seen = true) : Settled (perform scanner op s) := by
  have hs := h.toSound
  have hprobe (op : ScanOp) (hprobe : op.isProbe = true) (hcontained : op.Contained) :
      (perform scanner op s).store.Sound := by
    rw [perform_probe scanner hprobe hcontained hs.le]
    exact hs
  cases op with
  | begin text =>
    have hlen : byteLength text < offsetLimit := of_decide_eq_true hop
    exact .step (Store.begin_of_lt hlen s) (.between hlen)
  | skip => exact .step (Scanner.skip_run scanner hs.fits) (scanner.pastGap_sound hs)
  | tryMatch id =>
    rcases Scanner.tryMatch_sound (ε := Mismatch) htrip hs id with
      hrun | ⟨token, t, events, hrun, ht, -⟩
    · exact .step hrun hs
    · exact .step hrun ht
  | consume id =>
    rcases Scanner.consume_sound htrip hs id with
      ⟨m, t, hrun, ht⟩ | ⟨token, t, events, hrun, ht, -⟩
    · rw [perform, ScanOp.step, hrun]
      exact ⟨⟨.mismatch m, rfl⟩, ht⟩
    · exact .step hrun ht
  | seek offset =>
    have ht : ({ s with offset := offset } : Store).Sound :=
      ⟨hs.fits, h.exported offset (of_decide_eq_true hop)⟩
    have hrun : (Store.seek offset : Action Event Store Mismatch Unit) s = ⟨.ok (), _, []⟩ :=
      if_pos ht.le
    exact .step hrun ht
  | found => exact .step (Scanner.found_sound hs) hs
  | atEnd | remaining | source | config => exact ⟨⟨_, rfl⟩, hs⟩
  | candidate lookahead =>
    have hexit := lookahead.matchingCandidate_exit (ε := Mismatch) htrip hs.fits hs.le
    exact .step (Run.eq_of_exit hexit) (hprobe (.candidate lookahead) rfl trivial)
  | check lookahead =>
    have hexit := lookahead.holds_exit (ε := Mismatch) htrip hs.fits hs.le
    exact .step (Run.eq_of_exit hexit) (hprobe (.check lookahead) rfl trivial)
  | branch lookahead =>
    have hexit := lookahead.matchingBranch_exit (ε := Mismatch) htrip hs.fits hs.le
    exact .step (Run.eq_of_exit hexit) (hprobe (.branch lookahead) rfl trivial)
  | guard script =>
    rw [lawful, Bool.and_eq_true, Bool.not_eq_true'] at hop
    refine ⟨⟨.guarded s.offset, ?_⟩, hprobe (.guard script) rfl hop.1⟩
    rw [perform, Store.seek, performAll_source scanner script s hop.1, if_pos hs.le]
    rfl

mutual

/-- A lawful operation leaves a store that a scanner can work on, and the positions exported behind
it stand between two characters of the source. -/
theorem perform_kept (htrip : scanner.tripwire = none) :
    ∀ (op : ScanOp) (s : Store) (seen : List Nat), Kept seen s → lawful scanner op s seen = true →
      let after := (perform scanner op s).store
      Kept (after.offset :: exported scanner op s seen) after := by
  intro op s seen h hop after
  have ht := (perform_settled htrip h hop).sound
  refine ⟨ht, List.forall_mem_cons.2 ⟨ht.boundary, ?_⟩⟩
  cases op with
  | begin text => exact fun offset hoffset => absurd hoffset List.not_mem_nil
  | guard script =>
    rw [lawful, Bool.and_eq_true, Bool.not_eq_true'] at hop
    have hbody := performAll_kept htrip script s seen h hop.2
    have hsource : after.source = s.source := perform_source scanner (.guard script) s hop.1
    rw [hsource, ← performAll_source scanner script s hop.1]
    exact hbody.exported
  | _ =>
    have hsource : after.source = s.source := perform_source scanner _ s rfl
    rw [hsource]
    exact h.exported

theorem performAll_kept (htrip : scanner.tripwire = none) :
    ∀ (script : List ScanOp) (s : Store) (seen : List Nat), Kept seen s →
      lawfulAll scanner script s seen = true →
      Kept (exportedAll scanner script s seen) (performAll scanner script s).store
  | [], s, seen, h, _ => h
  | op :: rest, s, seen, h, hall => by
    rw [lawfulAll, Bool.and_eq_true] at hall
    have hop := perform_kept htrip op s seen h hall.1
    exact performAll_kept htrip rest _ _ hop hall.2

end

/-- Every operation that is performed in the run of a lawful script is lawful there. -/
theorem Performs.exists_kept (htrip : scanner.tripwire = none) {script : List ScanOp} {op : ScanOp}
    {t : Store} (hperforms : Performs scanner script s op t) (h : Kept seen s)
    (hall : lawfulAll scanner script s seen = true) :
    ∃ seen', Kept seen' t ∧ lawful scanner op t seen' = true := by
  induction hperforms generalizing seen with
  | here =>
    rw [lawfulAll, Bool.and_eq_true] at hall
    exact ⟨seen, h, hall.1⟩
  | inside _ ih =>
    rw [lawfulAll, Bool.and_eq_true, lawful, Bool.and_eq_true] at hall
    exact ih h hall.1.2
  | later _ ih =>
    rw [lawfulAll, Bool.and_eq_true] at hall
    exact ih (perform_kept htrip _ _ _ h hall.1) hall.2

/-- What is performed behind the first operations of a script. -/
theorem Performs.append {rest : List ScanOp} {op : ScanOp} {t u : Store} (first : List ScanOp)
    (hfirst : (performAll scanner first s).store = u) (h : Performs scanner rest u op t) :
    Performs scanner (first ++ rest) s op t := by
  induction first generalizing s with
  | nil =>
    obtain rfl : s = u := hfirst
    exact h
  | cons op first ih => exact .later (ih hfirst)

/-! ## Whole scripts -/

/-- What an attempt to match and a commitment give at a store. An attempt that fails changes
nothing. -/
def Delivers (scanner : Scanner) (s : Store) : ScanOp → Prop
  | .tryMatch id =>
    let r := perform scanner (.tryMatch id) s
    (r.result.answer = .ok (.token none) ∧ r.store = s) ∨
      ∃ token, r.result.answer = .ok (.token (some token)) ∧ token.kind = id ∧
        token.CutFrom s.source s.offset r.store.offset
  | .consume id =>
    let r := perform scanner (.consume id) s
    (∃ m, r.result.answer = .ok (.mismatch m)) ∨
      ∃ token, r.result.answer = .ok (.token (some token)) ∧ token.kind = id ∧
        token.CutFrom s.source (s.offset + scanner.gapLength s.remaining) r.store.offset
  | _ => True

/-- A scanner tells the end of its input from a character at its offset. -/
structure Discerns (scanner : Scanner) (s : Store) : Prop where
  atEnd_iff : s.atEnd = true ↔ s.remaining = []
  found : ∃ token, (perform scanner .found s).result.answer = .ok (.found token) ∧
    (token.isEndOfInput = true ↔ s.atEnd = true) ∧
    ∀ c rest, s.remaining = c :: rest →
      token.CutFrom s.source s.offset (s.offset + c.utf8Size) ∧ token.text = [c]

theorem perform_delivers (htrip : scanner.tripwire = none) (hs : s.Sound) (op : ScanOp) :
    Delivers scanner s op := by
  cases op with
  | tryMatch id =>
    rcases Scanner.tryMatch_sound (ε := Mismatch) htrip hs id with
      hrun | ⟨token, t, events, hrun, -, hid, hcut⟩
    · simp only [Delivers, perform, ScanOp.step, hrun]
      exact Or.inl ⟨rfl, trivial⟩
    · simp only [Delivers, perform, ScanOp.step, hrun]
      exact Or.inr ⟨token, rfl, hid, hcut⟩
  | consume id =>
    rcases Scanner.consume_sound htrip hs id with
      ⟨m, t, hrun, -⟩ | ⟨token, t, events, hrun, -, hid, hcut⟩
    · simp only [Delivers, perform, ScanOp.step, hrun]
      exact Or.inl ⟨m, rfl⟩
    · simp only [Delivers, perform, ScanOp.step, hrun]
      exact Or.inr ⟨token, rfl, hid, hcut⟩
  | _ => trivial

theorem discerns (scanner : Scanner) (hs : s.Sound) : Discerns scanner s := by
  obtain ⟨before, rest, rfl, hlen⟩ := hs.exists_between
  have hrun : (scanner.found : Action Event Store Mismatch Token) (Store.between before rest) =
      _ := Scanner.found_between hlen
  refine ⟨?_, scanner.foundOf before rest, ?_, ?_, ?_⟩
  · rw [Store.atEnd_between, Store.remaining_between, List.isEmpty_iff]
  · rw [perform, ScanOp.step, hrun]
    rfl
  · rw [Store.atEnd_between, Scanner.isEndOfInput_foundOf]
  · intro c rest' hrest
    rw [Store.remaining_between] at hrest
    subst hrest
    exact scanner.foundOf_cutFrom before rest' c

/-- In the run of a lawful script no operation faults, not even inside a guard. Before and behind
each one the offset stands between two characters of the source, and the scanner tells the end of
the input from the character there. What is matched or committed is cut out of the source. -/
theorem scripts_safe (scanner : Scanner) (htrip : scanner.tripwire = none) {source : Text}
    (hlen : byteLength source < offsetLimit) {script : List ScanOp}
    (hlawful : lawfulAll scanner script { source } [0] = true) {op : ScanOp} {t : Store}
    (hperforms : Performs scanner script { source } op t) :
    let r := perform scanner op t
    (∃ answer, r.result.answer = .ok answer) ∧ Delivers scanner t op ∧
      ∀ u ∈ [t, r.store],
        u.offset ≤ byteLength u.source ∧ IsBoundary u.source u.offset ∧ Discerns scanner u := by
  intro r
  have hstart : ({ source } : Store).Sound := ⟨hlen, [], source, rfl, rfl⟩
  have hkept : Kept [0] { source } := ⟨hstart, List.forall_mem_singleton.2 hstart.boundary⟩
  obtain ⟨seen, hkept, hop⟩ := hperforms.exists_kept htrip hkept hlawful
  have hsettled := perform_settled htrip hkept hop
  have hplace {u : Store} (hu : u.Sound) :
      u.offset ≤ byteLength u.source ∧ IsBoundary u.source u.offset ∧ Discerns scanner u :=
    ⟨hu.le, hu.boundary, discerns scanner hu⟩
  refine ⟨hsettled.answers, perform_delivers htrip hkept.toSound op, ?_⟩
  rw [List.forall_mem_cons, List.forall_mem_singleton]
  exact ⟨hplace hkept.toSound, hplace hsettled.sound⟩

/-- Inside a guard a name is committed behind a comment. Behind the guard the position from inside
it is taken up, where a character stands that begins no token. -/
theorem scripts_safe_guarded :
    let scanner : Scanner := { lexicon := Ecma.lexicon }
    let source : Text := "a /*é*/ b €".toList
    let inner : List ScanOp := [.consume Ecma.identifier, .skip]
    let script : List ScanOp := [.begin source, .tryMatch Ecma.identifier, .guard inner, .seek 11,
      .found]
    let start : Store := { source := [] }
    let t : Store := ⟨source, 1⟩
    scanner.tripwire = none ∧ byteLength start.source < offsetLimit ∧
      lawfulAll scanner script start [0] = true ∧
      Performs scanner script start (.consume Ecma.identifier) t ∧
      Delivers scanner t (.consume Ecma.identifier) ∧
      (perform scanner (.consume Ecma.identifier) t).result.answer =
        .ok (.token (some ⟨Ecma.identifier, ['b'], ⟨9, 10⟩⟩)) ∧
      Performs scanner script start .found ⟨source, 11⟩ ∧
      IsBoundary source 11 ∧ Discerns scanner ⟨source, 11⟩ := by
  intro scanner source inner script start t
  have hlen : byteLength start.source < offsetLimit := by decide
  have hlawful : lawfulAll scanner script start [0] = true := by decide +kernel
  have hname : (performAll scanner (script.take 2) start).store = t := by decide +kernel
  have hsign : (performAll scanner (script.take 4) start).store = ⟨source, 11⟩ := by
    decide +kernel
  have hconsume : Performs scanner script start (.consume Ecma.identifier) t :=
    .append (script.take 2) hname (.inside .here)
  have hfound : Performs scanner script start .found ⟨source, 11⟩ :=
    .append (script.take 4) hsign .here
  have hanswer : (perform scanner (.consume Ecma.identifier) t).result.answer =
      .ok (.token (some ⟨Ecma.identifier, ['b'], ⟨9, 10⟩⟩)) := by
    decide +kernel
  obtain ⟨-, hdelivers, -⟩ := scripts_safe scanner rfl hlen hlawful hconsume
  obtain ⟨-, -, hplaces⟩ := scripts_safe scanner rfl hlen hlawful hfound
  obtain ⟨-, hboundary, hdiscerns⟩ := hplaces ⟨source, 11⟩ List.mem_cons_self
  exact ⟨rfl, hlen, hlawful, hconsume, hdelivers, hanswer, hfound, hboundary, hdiscerns⟩

end ScanOp

end PredictiveParsing
