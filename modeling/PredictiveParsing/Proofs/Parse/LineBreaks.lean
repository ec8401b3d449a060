import PredictiveParsing.Proofs.Parse.Following
import PredictiveParsing.Proofs.Regex.Avoiding

/-!
# Line breaks in tokens

A kind says whether its tokens may hold line breaks. A lexicon is truthful if the other kinds take
none; this can be read off the classes of their code. A warning is reported only where a kind is
found to be untruthful, so that nothing warns with a truthful lexicon, neither probes nor
commitments.

* `Lexicon.truthful_of_staysOnLine`: a lexicon is truthful if the code of its kinds says so.
* `Scanner.obeys_calm`: a scanner with a truthful lexicon does not warn.
* `Parser.run_unwarned`: a whole parse with one does not, as long as its entry does not.
-/

namespace PredictiveParsing

open Text PredictiveParsing.Action

variable {μ α ε : Type}

/-! ## Truthful kinds -/

/-- A kind that is not meant to hold line breaks takes none. -/
def Lexicon.Truthful (lexicon : Lexicon) : Prop :=
  ∀ {id kind word rest}, lexicon.get? id = some kind → kind.flags.lineBreaks = false →
    lexicon.Takes id word rest → '\n' ∉ word

/-- Whether the code of a kind keeps to one line, if the kind is meant to. -/
def Kind.staysOnLine (kind : Kind) : Bool :=
  kind.flags.lineBreaks ||
    (kind.matcher.anchored && kind.matcher.code.isSolid && kind.matcher.code.avoids '\n')

theorem Lexicon.truthful_of_staysOnLine {lexicon : Lexicon}
    (h : lexicon.kinds.all Kind.staysOnLine = true) : lexicon.Truthful := by
  intro id kind word rest hkind hflag htakes
  have hstays := List.all_eq_true.1 h kind (List.mem_of_getElem? hkind)
  rw [Kind.staysOnLine, hflag, Bool.false_or, Bool.and_eq_true, Bool.and_eq_true] at hstays
  obtain ⟨⟨hanchored, hsolid⟩, havoids⟩ := hstays
  rw [Takes, lengthAt, hkind, Option.bind_some, Kind.matchLength, Option.bind_eq_some_iff] at htakes
  obtain ⟨found, hfound, hlength⟩ := htakes
  obtain ⟨word', rest', htext, hstop, hfeed⟩ :=
    Matcher.not_mem_of_find hanchored hsolid havoids hfound
  split at hlength
  · have hword : byteLength word' = byteLength word := hstop.symm.trans (Option.some.inj hlength)
    have hrest : rest = rest' := by
      refine Text.eq_of_append_eq htext ?_
      have hlen := congrArg byteLength htext
      rw [byteLength_append, byteLength_append] at hlen
      omega
    rw [hrest] at htext
    rwa [List.append_cancel_right htext]
  · cases hlength

/-! ## Scanning -/

/-- No warning is reported. -/
def Calm (_ : Store) (events : List Event) (_ : Store) : Prop := ∀ e ∈ events, e.level ≠ .warn

instance : Composes Calm where
  refl _ := fun _ he => absurd he List.not_mem_nil
  trans h h' := List.forall_mem_append.2 ⟨h, h'⟩

namespace Scanner

variable {scanner : Scanner}

/-- The events of a match warn only of a line break that its kind is not meant to hold. -/
theorem calm_matchEvents {kind : Kind} {token : Token}
    (h : kind.flags.lineBreaks = false → '\n' ∉ token.text) :
    ∀ e ∈ matchEvents kind token, e.level ≠ .warn := by
  have hnone : ¬ ('\n' ∈ token.text ∧ ¬ kind.flags.lineBreaks = true) :=
    fun hboth => h (Bool.eq_false_iff.2 hboth.2) hboth.1
  rw [matchEvents, if_neg hnone, List.nil_append, List.forall_mem_singleton]
  exact Level.noConfusion

/-- A token that is found holds no line break unless its kind is meant to. -/
theorem not_mem_of_tokenAt (h : scanner.lexicon.Truthful) {id : KindId} {s : Store} {kind : Kind}
    {token : Token} (htoken : scanner.tokenAt id s = .ok (some (kind, token)))
    (hflag : kind.flags.lineBreaks = false) : '\n' ∉ token.text := by
  obtain ⟨rest, -, htakes⟩ := takes_of_tokenAt htoken
  exact h (tokenAt_ok htoken).1 hflag htakes

theorem tryMatch_calm (h : scanner.lexicon.Truthful) (id : KindId) :
    (scanner.tryMatch id : Action Event Store ε (Option Token)).Follows Calm := by
  intro s
  rcases scanner.tryMatch_tokenAt (ε := ε) id s with
    ⟨f, hrun⟩ | hrun | ⟨kind, token, htoken, -, hrun⟩
  · rw [hrun]
    exact Composes.refl s
  · rw [hrun]
    exact Composes.refl s
  · rw [hrun]
    exact calm_matchEvents (not_mem_of_tokenAt h htoken)

theorem not_mem_of_tryMatch (h : scanner.lexicon.Truthful) {id : KindId} {s : Store} {kind : Kind}
    {token : Token} (hkind : scanner.lexicon.get? id = some kind)
    (hflag : kind.flags.lineBreaks = false)
    (htoken : (scanner.tryMatch id s : Run Event Store ε (Option Token)).exit = .ok (some token)) :
    '\n' ∉ token.text := by
  rcases scanner.tryMatch_tokenAt (ε := ε) id s with
    ⟨f, hrun⟩ | hrun | ⟨kind', token', hat, -, hrun⟩
  · rw [hrun] at htoken
    cases htoken
  · rw [hrun] at htoken
    cases htoken
  · rw [hrun] at htoken
    split at htoken
    · cases htoken
    · cases htoken
      obtain rfl : kind' = kind := Option.some.inj ((tokenAt_ok hat).1.symm.trans hkind)
      exact not_mem_of_tokenAt h hat hflag

theorem obeys_calm (h : scanner.lexicon.Truthful) : scanner.Obeys Calm where
  skip := by
    intro ε s
    rcases scanner.skip_cases (ε := ε) s with ⟨f, hrun⟩ | ⟨length, t, hrun⟩
    · rw [hrun]
      exact Composes.refl (T := Calm) s
    · rw [hrun]
      exact Composes.refl (T := Calm) s
  tryMatch := tryMatch_calm h
  probed offset candidate := fun s => List.forall_mem_singleton.2 Level.noConfusion
  branched offset branch := fun s => List.forall_mem_singleton.2 Level.noConfusion
  keeping := by
    intro ε α body hbody s
    rw [Calm, Store.keepingPosition_records]
    exact hbody s

end Scanner

/-! ## Parsing -/

/-- No warning is emitted. -/
def Unwarned (_ : ParserState) (records : List (Emission μ)) (_ : ParserState) : Prop :=
  ∀ r ∈ records, ∀ e ∈ r.event?, e.level ≠ .warn

instance : Steady Calm (Unwarned (μ := μ)) where
  refl _ := fun _ hr => absurd hr List.not_mem_nil
  trans h h' := List.forall_mem_append.2 ⟨h, h'⟩
  scan h := by
    intro r hr
    obtain ⟨e, he, rfl⟩ := List.mem_map.1 hr
    rintro _ ⟨⟩
    exact h e he
  rules _ _ := fun _ hr => absurd hr List.not_mem_nil
  emit _ event h := by
    refine List.forall_mem_singleton.2 ?_
    rintro _ ⟨⟩
    cases event with
    | lineBreak kind start => cases h
    | _ => exact Level.noConfusion

namespace Parser

variable {parser : Parser}

theorem consume_unwarned (h : parser.scanner.lexicon.Truthful) (kind : KindId) :
    Follows Unwarned (parser.consume kind : ParseAction μ Token) := by
  have hobeys := Scanner.obeys_calm h
  refine .bind (scanOr_follows (fun m => mismatch_follows parser _ m.found)
    (parser.scanner.consume_follows kind)) fun token => ?_
  have hcount (s : ParserState) :
      Unwarned (μ := μ) s [] { s with consumed := s.consumed + 1 } :=
    fun _ hr => absurd hr List.not_mem_nil
  exact .bind hcount fun _ => .bind (emit_follows rfl) fun _ => .pure token

/-- A whole parse warns no more than its entry does. -/
theorem run_unwarned {entry : ParseAction μ α} (h : Follows Unwarned entry) (source : Text)
    (s : ParserState) :
    ∀ r ∈ (Parser.run source entry s).records, ∀ e ∈ r.event?, e.level ≠ .warn := by
  by_cases hlen : byteLength source < offsetLimit
  · have hentry := h (started source)
    rcases hrun : entry (started source) with ⟨a | e | f, t, records⟩
    · rw [hrun] at hentry
      rwa [run_of_ok hlen hrun]
    · rw [hrun] at hentry
      rwa [run_of_error hlen hrun]
    · rw [hrun] at hentry
      rwa [run_of_fault hlen hrun]
  · rw [run_eq_of_long hlen]
    exact fun _ hr => absurd hr List.not_mem_nil

end Parser

end PredictiveParsing
