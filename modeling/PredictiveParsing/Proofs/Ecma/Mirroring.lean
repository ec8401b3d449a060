import PredictiveParsing.Proofs.Ecma.Shifting

/-!
# Runs that mirror each other

A parser runs on a source and on the same source with trivia in front. Its places are the same but
for the text in front of them, except at the very start, where the trivia is still ahead. So it
decides alike, commits the same tokens, and fails alike, with every span shifted.

* `Beside`: a place and the place that corresponds to it behind the trivia.
* `Mirrors`: two actions that go on alike in states that are alike.
* `mirrors_consume`, `mirrors_alternatives`, `Mirrors.rule`, `Mirrors.many`: the operations.
-/

namespace PredictiveParsing

open Text

theorem Token.isEndOfInput_shift (n : Nat) (t : Token) :
    (t.shift n).isEndOfInput = t.isEndOfInput := by
  have hempty : (t.span.shift n).isEmpty = t.span.isEmpty := by
    rw [Bool.eq_iff_iff]
    simp [Span.isEmpty, Span.shift]
  exact congrArg (t.isError && ·) hempty

/-- An error behind a text of the length. -/
def ParseError.shift (n : Nat) (e : ParseError) : ParseError := { e with found := e.found.shift n }

/-- A place with a text in front of its source. -/
def Place.after (text : Text) (p : Place) : Place := ⟨text ++ p.before, p.rest⟩

namespace Ecma

open PredictiveParsing.Parser Scanner

variable {μ α β : Type} {parser : Parser} {w : Text} {p p' q q' : Place} {s s' : ParserState}

/-- The parser passes over a text, and its messages do not tell where something was found. -/
structure Ignores (parser : Parser) (w : Text) : Prop where
  standard : Standard parser
  skips : Skips parser.scanner
  trivia : Trivia w
  messages : ∀ lexicon expected found rule n,
    parser.messages lexicon expected (found.shift n) rule =
      parser.messages lexicon expected found rule

theorem Ignores.of_trivia (h : Trivia w) : Ignores (Ecma.parser {} .standard) w where
  standard := .of_config {} .standard
  skips := .of_config .standard (show ({} : ScanConfig).skipping = true from rfl)
  trivia := h
  messages := by
    intro lexicon expected found rule n
    change MessageBuilder.standard lexicon expected (found.shift n) rule =
      MessageBuilder.standard lexicon expected found rule
    rw [MessageBuilder.standard, MessageBuilder.standard, Token.isEndOfInput_shift]
    rfl

/-! ## Places -/

/-- A place corresponds to the one behind the text, and the start also to the one in front of the
text. -/
inductive Beside (w : Text) : Place → Place → Prop where
  | after (p : Place) : Beside w p (p.after w)
  | front (rest : Text) : Beside w ⟨[], rest⟩ ⟨[], w ++ rest⟩

theorem behind_after (scanner : Scanner) (w : Text) (p : Place) :
    scanner.behind (p.after w) = (scanner.behind p).after w := by
  simp [behind, Place.after]

theorem foundOf_after (scanner : Scanner) (w : Text) (p : Place) :
    scanner.foundOf (p.after w).before (p.after w).rest =
      (scanner.foundOf p.before p.rest).shift (byteLength w) := by
  obtain ⟨before, rest⟩ := p
  have hcurrent (before : Text) : (Store.between before rest).current? = rest.head? := by
    rw [Store.current?, Store.remaining_between]
  simp only [Place.after, foundOf, foundAt, hcurrent, Store.offset_between, byteLength_append]
  cases rest with
  | nil => rfl
  | cons c rest => simp [Token.shift, Span.shift, Nat.add_assoc]

namespace Beside

theorem behind_eq (hw : Ignores parser w) (h : Beside w p p') :
    parser.scanner.behind p' = (parser.scanner.behind p).after w := by
  cases h with
  | after => exact behind_after _ _ _
  | front rest =>
    rw [behind_trivia hw.skips hw.trivia, ← behind_after]
    simp [Place.after]

theorem offers_eq (hw : Ignores parser w) (h : Beside w p p') :
    parser.scanner.offers p' = parser.scanner.offers p := by
  funext id
  rw [offers, h.behind_eq hw]
  rfl

/-- The same token comes next, shifted. -/
theorem reads (hw : Ignores parser w) (h : Beside w p p') {t : Token}
    (hreads : parser.scanner.Reads p [t] q) :
    parser.scanner.Reads p' [t.shift (byteLength w)] (q.after w) := by
  have hshift := hreads.shift w
  cases h with
  | after => exact hshift
  | front rest =>
    rw [List.append_nil, ← List.nil_append w] at hshift
    exact Reads.prepend_cons hw.skips hw.trivia hshift

theorem fits (h : Beside w p p') (hfits : p'.Fits) : p.Fits := by
  cases h with
  | after =>
    simp only [Place.Fits, Place.source, Place.after, byteLength_append] at hfits ⊢
    omega
  | front rest =>
    simp only [Place.Fits, Place.source, byteLength_append] at hfits ⊢
    omega

/-- Where a parser moves on, it moves on behind the text, too. -/
theorem before_lt (h : Beside w p p') (h' : Beside w q q')
    (hlt : byteLength p.before < byteLength q.before) :
    byteLength p'.before < byteLength q'.before := by
  cases h <;> cases h' <;> simp only [Place.after, byteLength_append, byteLength_nil] at hlt ⊢ <;>
    omega

end Beside

theorem errorAt_after (hw : Ignores parser w) (expected : List KindId) (rule : Option String)
    (p : Place) :
    parser.errorAt expected rule (p.after w) =
      (parser.errorAt expected rule p).shift (byteLength w) := by
  rw [errorAt, errorAt, foundOf_after]
  simp only [hw.messages, ParseError.shift]

/-! ## States and runs -/

/-- States at corresponding places that differ only in spans. -/
structure Alike (w : Text) (p p' : Place) (s s' : ParserState) : Prop where
  beside : Beside w p p'
  fits : p'.Fits
  store : s.store = p.store
  store' : s'.store = p'.store
  rules : s'.rules = s.rules
  errors : s'.errors = s.errors.map (ParseError.shift (byteLength w))
  consumed : s'.consumed = s.consumed

/-- Runs that end alike, in states that are alike, unless a fault ends the first one. -/
inductive Mirrored (w : Text) (f : α → β) : Run (Emission μ) ParserState ParseError α →
    Run (Emission μ) ParserState ParseError β → Prop where
  | ok {p p' : Place} {s s' : ParserState} {records records' : List (Emission μ)} (a : α) :
      Alike w p p' s s' → Mirrored w f ⟨.ok a, s, records⟩ ⟨.ok (f a), s', records'⟩
  | error {p p' : Place} {s s' : ParserState} {records records' : List (Emission μ)}
      (e : ParseError) : Alike w p p' s s' →
      Mirrored w f ⟨.error e, s, records⟩ ⟨.error (e.shift (byteLength w)), s', records'⟩
  | fault {s : ParserState} {records : List (Emission μ)} (fault : Fault)
      (r' : Run (Emission μ) ParserState ParseError β) : Mirrored w f ⟨.fault fault, s, records⟩ r'

/-- What was emitted before makes no difference. -/
theorem Mirrored.behind {f : α → β} {r : Run (Emission μ) ParserState ParseError α}
    {r' : Run (Emission μ) ParserState ParseError β} (h : Mirrored w f r r')
    (records records' : List (Emission μ)) :
    Mirrored w f ⟨r.exit, r.state, records ++ r.records⟩
      ⟨r'.exit, r'.state, records' ++ r'.records⟩ := by
  cases h with
  | ok a h => exact .ok a h
  | error e h => exact .error e h
  | fault fault r' => exact .fault fault _

/-- In states that are alike the runs of two actions end alike, and a function takes the one value
to the other. -/
def Mirrors (w : Text) (f : α → β) (x : ParseAction μ α) (x' : ParseAction μ β) : Prop :=
  ∀ p p' s s', Alike w p p' s s' → Mirrored w f (x s) (x' s')

/-- Where a parser moves on, it moves on behind the text, too. -/
theorem Alike.offset_lt {t t' : ParserState} (h : Alike w p p' s s') (h' : Alike w q q' t t')
    (hlt : s.offset < t.offset) : s'.offset < t'.offset := by
  simp only [ParserState.offset, h.store, h.store', h'.store, h'.store', Place.store,
    Store.offset_between] at hlt ⊢
  exact h.beside.before_lt h'.beside hlt

theorem Alike.advanced (h : Alike w p p' s s') {a a' : List Token} (hq : Beside w q q')
    (hfits : q'.Fits) (hlength : a'.length = a.length) :
    Alike w q q' (Parser.advanced s a q) (Parser.advanced s' a' q') where
  beside := hq
  fits := hfits
  store := rfl
  store' := rfl
  rules := h.rules
  errors := h.errors
  consumed := by rw [Parser.advanced, Parser.advanced, h.consumed, hlength]

theorem Alike.succeed (h : Alike w p p' s s') {x : ParseAction μ α} {x' : ParseAction μ β}
    {f : α → β} {a a' : List Token} {v : α} (hx : Succeeds parser s.rules x p a q v)
    (hx' : Succeeds parser s'.rules x' p' a' q' (f v)) (hq : Beside w q q')
    (hlength : a'.length = a.length) : Mirrored w f (x s) (x' s') := by
  obtain ⟨records, hrun, -⟩ := hx.run (h.beside.fits h.fits) s h.store rfl
  obtain ⟨records', hrun', -⟩ := hx'.run h.fits s' h.store' rfl
  rw [hrun, hrun']
  exact .ok v (h.advanced hq (hx'.reads.fits h.fits) hlength)

/-- What fails at corresponding places, before anything is committed, fails alike. -/
theorem Alike.fail (hw : Ignores parser w) (h : Alike w p p' s s') {x : ParseAction μ α}
    {x' : ParseAction μ β} {f : α → β} {expected : List KindId}
    (hx : Fails parser s.rules x p [] p expected s.rules.head?)
    (hx' : Fails parser s'.rules x' p' [] p' expected s'.rules.head?) :
    Mirrored w f (x s) (x' s') := by
  obtain ⟨records, hrun, -⟩ := hx.run (h.beside.fits h.fits) s h.store rfl
  obtain ⟨records', hrun', -⟩ := hx'.run h.fits s' h.store' rfl
  have hfits : (parser.scanner.behind p').Fits := by
    rw [Place.Fits, source_behind]
    exact h.fits
  rw [h.beside.behind_eq hw] at hrun' hfits
  rw [hrun, hrun', errorAt_after hw, h.rules]
  exact .error _ (h.advanced (.after _) hfits rfl)

/-! ## Actions -/

variable {γ δ : Type} {f : α → β} {g : γ → δ}

theorem mirrors_pure {a : α} {b : β} (hab : f a = b) :
    Mirrors w f (pure a : ParseAction μ α) (pure b : ParseAction μ β) := by
  subst hab
  exact fun _ _ _ _ h => .ok a h

theorem mirrors_stop (fault : Fault) (x' : ParseAction μ β) :
    Mirrors w f (Action.stop fault : ParseAction μ α) x' :=
  fun _ _ _ s' _ => .fault fault (x' s')

theorem Mirrors.bind {x : ParseAction μ α} {x' : ParseAction μ β} {k : α → ParseAction μ γ}
    {k' : β → ParseAction μ δ} (hx : Mirrors w f x x') (hk : ∀ a, Mirrors w g (k a) (k' (f a))) :
    Mirrors w g (x >>= k) (x' >>= k') := by
  intro p p' s s' h
  have hfirst := hx p p' s s' h
  rw [Action.bind_apply, Action.bind_apply]
  rcases hrun : x s with ⟨exit, t, records⟩
  rcases hrun' : x' s' with ⟨exit', t', records'⟩
  rw [hrun, hrun'] at hfirst
  cases hfirst with
  | ok a hmid => exact (hk a _ _ _ _ hmid).behind records records'
  | error e hmid => exact .error e hmid
  | fault fault r' => exact .fault fault _

theorem Mirrors.ite {c : Prop} [Decidable c] {x y : ParseAction μ α} {x' y' : ParseAction μ β}
    (hx : Mirrors w f x x') (hy : Mirrors w f y y') :
    Mirrors w f (if c then x else y) (if c then x' else y') := by
  split
  · exact hx
  · exact hy

theorem Mirrors.rule {x : ParseAction μ α} {x' : ParseAction μ β} (name : String)
    (hx : Mirrors w f x x') : Mirrors w f (Parser.rule name x) (Parser.rule name x') := by
  intro p p' s s' h
  have hbody := hx p p' { s with rules := name :: s.rules } { s' with rules := name :: s'.rules }
    { h with rules := congrArg (name :: ·) h.rules }
  rcases hrun : x { s with rules := name :: s.rules } with ⟨exit, t, records⟩
  rcases hrun' : x' { s' with rules := name :: s'.rules } with ⟨exit', t', records'⟩
  rw [hrun, hrun'] at hbody
  cases hbody with
  | ok a hend =>
    rw [rule_of_ok name hrun, rule_of_ok name hrun']
    exact .ok a { hend with rules := congrArg List.tail hend.rules }
  | error e hend =>
    rw [rule_of_error name hrun, rule_of_error name hrun']
    exact .error e { hend with rules := congrArg List.tail hend.rules }
  | fault fault r' =>
    rw [rule_of_fault name hrun]
    exact .fault fault _

/-! ## Operations -/

theorem mirrors_consume (hw : Ignores parser w) (id : KindId) :
    Mirrors w (Token.shift (byteLength w)) (parser.consume id : ParseAction μ Token)
      (parser.consume id) := by
  intro p p' s s' h
  cases hoffers : parser.scanner.offers p id with
  | true =>
    obtain ⟨t, q, rfl, hreads⟩ := exists_reads_of_offers hoffers
    exact h.succeed (consume_succeeds hw.standard.tripwire_eq hreads)
      (consume_succeeds hw.standard.tripwire_eq (h.beside.reads hw hreads)) (.after q) rfl
  | false =>
    refine h.fail hw (consume_fails hoffers) (consume_fails ?_)
    rw [h.beside.offers_eq hw, hoffers]

theorem mirrors_alternatives (hw : Ignores parser w) (lookahead : AlternativeLookahead) :
    Mirrors w id (parser.alternatives lookahead : ParseAction μ Nat)
      (parser.alternatives lookahead) := by
  intro p p' s s' h
  have hoffers := h.beside.offers_eq hw
  cases hbranch : lookahead.branches.findIdx? fun branch =>
      branch.kinds.any (parser.scanner.offers p) with
  | some branch =>
    exact h.succeed (alternatives_succeeds hw.standard.tripwire_eq hbranch)
      (alternatives_succeeds hw.standard.tripwire_eq (hoffers ▸ hbranch)) h.beside rfl
  | none =>
    exact h.fail hw (alternatives_fails hw.standard.tripwire_eq hbranch)
      (alternatives_fails hw.standard.tripwire_eq (hoffers ▸ hbranch))

theorem mirrors_check (hw : Ignores parser w) (lookahead : OptionalLookahead) :
    Mirrors w id (parser.check lookahead : ParseAction μ Bool) (parser.check lookahead) := by
  intro p p' s s' h
  refine h.succeed (check_succeeds hw.standard.tripwire_eq rfl)
    (check_succeeds hw.standard.tripwire_eq ?_) h.beside rfl
  rw [h.beside.offers_eq hw]
  rfl

theorem mirrors_expectEnd (hw : Ignores parser w) :
    Mirrors w id (parser.expectEnd : ParseAction μ Unit) parser.expectEnd := by
  intro p p' s s' h
  have hbehind := h.beside.behind_eq hw
  by_cases hend : (parser.scanner.behind p).rest = []
  · have hend' : (parser.scanner.behind p').rest = [] := by
      rw [hbehind]
      exact hend
    have hfits : (parser.scanner.behind p').Fits := by
      rw [Place.Fits, source_behind]
      exact h.fits
    rw [expectEnd_ends hend (h.beside.fits h.fits) h.store, expectEnd_ends hend' h.fits h.store']
    rw [hbehind] at hfits ⊢
    exact .ok () (h.advanced (.after _) hfits rfl)
  · refine h.fail hw (expectEnd_fails hend) (expectEnd_fails ?_)
    rw [hbehind]
    exact hend

theorem Mirrors.optional (hw : Ignores parser w) (lookahead : OptionalLookahead)
    {x : ParseAction μ α} {x' : ParseAction μ β} (hx : Mirrors w f x x') :
    Mirrors w (Option.map f) (parser.optional lookahead x) (parser.optional lookahead x') :=
  (mirrors_check hw lookahead).bind fun _ =>
    .ite (hx.bind fun _ => mirrors_pure rfl) (mirrors_pure rfl)

theorem Mirrors.progressing {x : ParseAction μ α} {x' : ParseAction μ β} (hx : Mirrors w f x x') :
    Mirrors w f (Parser.progressing x) (Parser.progressing x') := by
  intro p p' s s' h
  have hbody := hx p p' s s' h
  rcases hrun : x s with ⟨exit, t, records⟩
  rcases hrun' : x' s' with ⟨exit', t', records'⟩
  rw [hrun, hrun'] at hbody
  cases hbody with
  | ok a hend =>
    -- At the start the offsets differ by less than behind the text, so only one direction holds.
    rw [progressing_of_ok hrun, progressing_of_ok hrun']
    by_cases hmoved : t.offset ≤ s.offset
    · rw [if_pos hmoved]
      exact .fault _ _
    · have hmoved' := h.offset_lt hend (Nat.lt_of_not_le hmoved)
      rw [if_neg hmoved, if_neg (Nat.not_le.2 hmoved')]
      exact .ok a hend
  | error e hend =>
    rw [progressing_of_error hrun, progressing_of_error hrun']
    exact .error e hend
  | fault fault r' =>
    rw [progressing_of_fault hrun]
    exact .fault fault _

theorem mirrors_rounds (hw : Ignores parser w) (lookahead : OptionalLookahead)
    {x : ParseAction μ α} {x' : ParseAction μ β} (hx : Mirrors w f x x') (n : Nat) :
    Mirrors w (List.map f) (parser.rounds lookahead x n) (parser.rounds lookahead x' n) := by
  induction n with
  | zero => exact fun _ _ s _ _ => .fault (.noProgress s.offset) _
  | succ n ih =>
    rw [rounds_succ, rounds_succ]
    refine (mirrors_check hw lookahead).bind fun _ => .ite ?_ (mirrors_pure rfl)
    exact hx.progressing.bind fun _ => ih.bind fun _ => mirrors_pure rfl

theorem Mirrors.many (hw : Ignores parser w) (lookahead : OptionalLookahead)
    {x : ParseAction μ α} {x' : ParseAction μ β} (hx : Mirrors w f x x') :
    Mirrors w (List.map f) (parser.many lookahead x) (parser.many lookahead x') :=
  mirrors_rounds hw lookahead hx _

end Ecma

end PredictiveParsing
