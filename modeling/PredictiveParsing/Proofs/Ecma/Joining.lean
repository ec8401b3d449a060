import PredictiveParsing.Proofs.Ecma.Replacing
import PredictiveParsing.Proofs.Ecma.Shifting

/-!
# Programs one behind the other

Two programs with a line feed between them are one program, unless a regular expression of the first
begins like a block comment and the second holds the end of one.

* `SpellsAll.mem_regexes`: the regular expressions of a program are tokens of its source.
* `parse_join`: when the statements of both sources are the statements of one.
-/

namespace PredictiveParsing.Ecma

open Text Scanner

variable {tokens : List Token}

/-! ## Regular expressions -/

/-- The regular expressions of an expression, where they stand. -/
def Expr.regexes : Expr → List Token
  | .regex pattern flags span => [⟨regexLiteral, '/' :: (pattern ++ '/' :: flags), span⟩]
  | .binary _ left right _ => left.regexes ++ right.regexes
  | .paren inner _ => inner.regexes
  | _ => []

/-- The regular expressions of a statement, where they stand. -/
def Statement.regexes : Statement → List Token
  | .returned value _ => value.elim [] Expr.regexes
  | .declared _ init _ => init.elim [] Expr.regexes
  | .evaluated expr _ => expr.regexes

/-- The tokens that are regular expressions. -/
def regexesOf (tokens : List Token) : List Token :=
  tokens.filter (·.kind = regexLiteral)

theorem regexesOf_append (a b : List Token) : regexesOf (a ++ b) = regexesOf a ++ regexesOf b :=
  List.filter_append a b

theorem regexesOf_cons_of_ne {t : Token} (h : t.kind ≠ regexLiteral) (tokens : List Token) :
    regexesOf (t :: tokens) = regexesOf tokens :=
  List.filter_cons_of_neg (by simpa using h)

theorem Expr.Spells.regexesOf_eq {e : Expr} (h : e.Spells tokens) :
    regexesOf tokens = e.regexes := by
  induction h with
  | number hkind => exact regexesOf_cons_of_ne (by rw [hkind]; decide) []
  | @regex t pattern flags hkind htext hflags =>
    rw [regexes, ← htext, ← hkind]
    exact List.filter_cons_of_pos (by simpa using hkind)
  | ident hkind => exact regexesOf_cons_of_ne (by rw [hkind]; decide) []
  | @binary op left right a b t _ hop _ ihl ihr =>
    have hne : t.kind ≠ regexLiteral := by
      rw [kind_eq_of_word hop]
      cases op <;> decide
    rw [regexesOf_append, regexesOf_cons_of_ne hne, ihl, ihr, regexes]
  | @paren inner a first last hfirst _ hlast ih =>
    have hopen : first.kind ≠ regexLiteral := by rw [kind_eq_of_word hfirst]; decide
    have hclose : last.kind ≠ regexLiteral := by rw [kind_eq_of_word hlast]; decide
    rw [regexesOf_cons_of_ne hopen, regexesOf_append, regexesOf_cons_of_ne hclose, ih]
    exact List.append_nil _

theorem Statement.Spells.regexesOf_eq {s : Statement} (h : s.Spells tokens) :
    regexesOf tokens = s.regexes := by
  have hword : ∀ {t : Token} {id : KindId} {text : Text}, t.word = (id, text) →
      id ≠ regexLiteral → t.kind ≠ regexLiteral := by
    intro t id text hword hne
    rw [kind_eq_of_word hword]
    exact hne
  have hend : ∀ {last : Token} (a : List Token), last.word = (semicolon, [';']) →
      regexesOf (a ++ [last]) = regexesOf a := by
    intro last a hlast
    rw [regexesOf_append, regexesOf_cons_of_ne (hword hlast (by decide))]
    exact List.append_nil _
  cases h with
  | @returned first last hfirst hlast =>
    rw [regexesOf_cons_of_ne (hword hfirst (by decide))]
    exact hend [] hlast
  | returnedValue hfirst he hlast =>
    rw [regexesOf_cons_of_ne (hword hfirst (by decide)), hend _ hlast, he.regexesOf_eq]
    rfl
  | @declared first name last hfirst hname hlast =>
    rw [regexesOf_cons_of_ne (hword hfirst (by decide)),
      regexesOf_cons_of_ne (by rw [hname]; decide)]
    exact hend [] hlast
  | declaredInit hfirst hname hsign he hlast =>
    rw [regexesOf_cons_of_ne (hword hfirst (by decide)),
      regexesOf_cons_of_ne (by rw [hname]; decide),
      regexesOf_cons_of_ne (hword hsign (by decide)), hend _ hlast, he.regexesOf_eq]
    rfl
  | evaluated he hlast =>
    rw [hend _ hlast, he.regexesOf_eq]
    rfl

/-- The regular expressions of statements are the tokens that are regular expressions. -/
theorem SpellsAll.regexesOf_eq {body : List Statement} (h : SpellsAll body tokens) :
    regexesOf tokens = body.flatMap Statement.regexes := by
  induction h with
  | nil => rfl
  | cons hs _ ih => rw [regexesOf_append, hs.regexesOf_eq, ih, List.flatMap_cons]

theorem SpellsAll.mem_regexes {body : List Statement} (h : SpellsAll body tokens) {t : Token} :
    t ∈ body.flatMap Statement.regexes ↔ t ∈ tokens ∧ t.kind = regexLiteral := by
  rw [← h.regexesOf_eq, regexesOf, List.mem_filter, decide_eq_true_iff]

/-! ## Joining -/

section

variable {source source' : Text} {tokens' : List Token} {q q' : Place}
  {body body' : List Statement} {joined : List Statement}

/-- The tokens of two sources are those of their join, if no comment is made in it. -/
theorem Accepted.join (h : Accepted (parser {} .standard) source tokens q body)
    (h' : Accepted (parser {} .standard) source' tokens' q' body')
    (hopen : (∀ t ∈ body.flatMap Statement.regexes, ¬ ['/', '*'] <+: t.text) ∨
      Unclosed source') :
    ∃ r, Accepted (parser {} .standard) (source ++ '\n' :: source')
      (tokens ++ tokens'.map (Token.shift (byteLength source + 1))) r
      (body ++ body'.map (Statement.shift (byteLength source + 1))) := by
  have hskips : Skips (parser {} .standard).scanner := .of_config .standard rfl
  have htrivia : Trivia (q.rest ++ ['\n']) :=
    (trivia_of_afterTrivia ((gap_iff hskips).1 h.gap)).2
  have hopens : Unclosed ('\n' :: source') ∨
      (Divided tokens ∧ ∀ t ∈ tokens, ¬ ['/', '*'] <+: t.text) := by
    rcases hopen with hregexes | hunclosed
    · refine Or.inr ⟨h.spells.divided, fun t ht hbegins => ?_⟩
      obtain ⟨shape, hshape, hword⟩ := exists_word hskips h.reads h.spells.exists_shape t ht
      have hkind := kind_eq_regex hshape hword hbegins
      exact hregexes t (h.spells.mem_regexes.2 ⟨ht, hkind⟩) hbegins
    · exact Or.inl (unclosed_cons.2 ⟨by simp [List.cons_prefix_cons], hunclosed⟩)
  obtain ⟨front, hfront, -, -, hfirst⟩ := Reads.replace hskips h.reads h.spells.exists_shape
    (List.append_nil _).symm h.gap (Or.inr ⟨source', rfl⟩) hopens
  rw [List.append_nil] at hfront
  obtain rfl : source = front := hfront
  have hsource : q.before ++ (q.rest ++ ['\n']) = source ++ ['\n'] := by
    rw [← List.append_assoc]
    exact congrArg (· ++ ['\n']) h.reads.source_eq
  have hlength : byteLength (source ++ ['\n']) = byteLength source + 1 := byteLength_append _ _
  have hsecond := h'.reads.shift (source ++ ['\n'])
  rw [List.append_nil, hlength, ← hsource] at hsecond
  obtain ⟨r, hreads, hbehind⟩ := Reads.prepend hskips htrivia hsecond
  rw [List.append_assoc, List.singleton_append] at hreads
  refine ⟨r, hfirst.append hreads, ?_, h.spells.append (h'.spells.shift _), ?_⟩
  · rw [hbehind]
    exact h'.rest
  · exact List.forall_mem_append.2 ⟨h.stands, stands_shift _ h'.stands⟩

/-- If the tokens of a source are tokens of its join with another, no comment is made of them. -/
theorem Accepted.unclosed_of_join (h : Accepted (parser {} .standard) source tokens q body)
    (hjoined : Accepted (parser {} .standard) (source ++ '\n' :: source') tokens' q' joined)
    (hbegins : body <+: joined) {t : Token} (ht : t ∈ body.flatMap Statement.regexes)
    (hopen : ['/', '*'] <+: t.text) : Unclosed source' := by
  have hskips : Skips (parser {} .standard).scanner := .of_config .standard rfl
  have hmem : t ∈ joined.flatMap Statement.regexes := by
    obtain ⟨more, rfl⟩ := hbegins
    rw [List.flatMap_append]
    exact List.mem_append_left _ ht
  have hstop : t.span.stop ≤ byteLength source := by
    have hspan := h.reads.span_mem (h.spells.mem_regexes.1 ht).1
    have hwhole := congrArg byteLength h.reads.source_eq
    simp only [Place.source, byteLength_append, List.nil_append] at hwhole
    omega
  obtain ⟨before, gap, rest, hsource, hgap, -, hend⟩ :=
    hjoined.reads.exists_gap (hjoined.spells.mem_regexes.1 hmem).1
  have hwhole : source ++ '\n' :: source' = before ++ gap ++ t.text ++ rest := hsource
  obtain ⟨more, hmore⟩ := hopen
  -- What is behind the token holds all of the second source.
  have hrest : source' <:+ rest := by
    rcases List.append_eq_append_iff.1 hwhole with ⟨between, hfront, hback⟩ | ⟨between, -, hback⟩
    · have hlength := congrArg byteLength hfront
      rw [← hend, byteLength_append] at hlength
      have hnil : between = [] := byteLength_eq_zero_iff.1 (by omega)
      rw [hnil] at hback
      exact ⟨['\n'], hback⟩
    · exact ⟨between ++ ['\n'], by rw [hback]; simp⟩
  rw [← hmore] at hgap
  have hsolid := (trivia_of_gap hskips hgap (List.cons_ne_nil _ _)).2
  have hunclosed : Unclosed (more ++ rest) := hsolid.2.2 ⟨more ++ rest, rfl⟩
  exact fun hinside => hunclosed
    (hinside.trans (hrest.trans (List.suffix_append more rest)).isInfix)

end

/-- Two programs with a line feed between them are one program, which has the statements of the
first and those of the second shifted, if and only if no regular expression of the first begins like
a block comment or the second does not hold the end of one. -/
theorem parse_join {source source' : Text} {program program' : Program}
    {errors errors' : List ParseError}
    (h : (parse source).exit = .ok ⟨some program, errors⟩)
    (h' : (parse source').exit = .ok ⟨some program', errors'⟩)
    (hlen : byteLength (source ++ '\n' :: source') < 2 ^ 32) :
    (∃ joined : Program, (parse (source ++ '\n' :: source')).exit = .ok ⟨some joined, []⟩ ∧
      joined.body =
        program.body ++ program'.body.map (Statement.shift (byteLength source + 1))) ↔
      ((∀ t ∈ program.body.flatMap Statement.regexes, ¬ ['/', '*'] <+: t.text) ∨
        ¬ ['*', '/'] <:+: source') := by
  obtain ⟨-, tokens, q, haccepted⟩ := accepted_of_parse h
  obtain ⟨-, tokens', q', haccepted'⟩ := accepted_of_parse h'
  constructor
  · rintro ⟨joined, hjoined, hbody⟩
    obtain ⟨-, tokens'', q'', haccepted''⟩ := accepted_of_parse hjoined
    by_cases hopen : ∃ t ∈ program.body.flatMap Statement.regexes, ['/', '*'] <+: t.text
    · obtain ⟨t, ht, hbegins⟩ := hopen
      refine Or.inr (haccepted.unclosed_of_join haccepted'' ?_ ht hbegins)
      rw [hbody]
      exact List.prefix_append _ _
    · exact Or.inl fun t ht hbegins => hopen ⟨t, ht, hbegins⟩
  · intro hopen
    obtain ⟨r, hjoined⟩ := haccepted.join haccepted' hopen
    obtain ⟨records, hrun, -⟩ :=
      hjoined.parse (Standard.of_config {} .standard) hlen (ParserState.start [])
    exact ⟨_, congrArg Run.exit hrun, rfl⟩

/-- A line comment at the end of the first source, and nothing in the second that ends a block
comment. -/
theorem parse_join_lines :
    ∃ joined : Program, (parse "/*x/; // y\n/*z/;".toList).exit = .ok ⟨some joined, []⟩ ∧
      joined.body = [.evaluated (.regex ['*', 'x'] [] ⟨0, 4⟩) ⟨0, 5⟩,
        .evaluated (.regex ['*', 'z'] [] ⟨11, 15⟩) ⟨11, 16⟩] := by
  have hfirst : (parse "/*x/; // y".toList).exit = .ok
      ⟨some ⟨[.evaluated (.regex ['*', 'x'] [] ⟨0, 4⟩) ⟨0, 5⟩], ⟨0, 5⟩⟩, []⟩ := by
    decide +kernel
  have hsecond : (parse "/*z/;".toList).exit = .ok
      ⟨some ⟨[.evaluated (.regex ['*', 'z'] [] ⟨0, 4⟩) ⟨0, 5⟩], ⟨0, 5⟩⟩, []⟩ := by
    decide +kernel
  exact (parse_join hfirst hsecond (by decide)).2 (Or.inr (by decide))

/-- A regular expression of the first source begins a comment that the second source ends: both are
swallowed by it. -/
theorem parse_join_swallowed :
    (parse "/*x/;".toList).exit = .ok
        ⟨some ⟨[.evaluated (.regex ['*', 'x'] [] ⟨0, 4⟩) ⟨0, 5⟩], ⟨0, 5⟩⟩, []⟩ ∧
      (parse "1;/**/".toList).exit = .ok
        ⟨some ⟨[.evaluated (.number ['1'] ⟨0, 1⟩) ⟨0, 2⟩], ⟨0, 2⟩⟩, []⟩ ∧
      (parse ("/*x/;".toList ++ '\n' :: "1;/**/".toList)).exit = .ok
        ⟨some ⟨[], ⟨0, 0⟩⟩, []⟩ ∧
      ¬ ∃ joined : Program,
        (parse ("/*x/;".toList ++ '\n' :: "1;/**/".toList)).exit = .ok ⟨some joined, []⟩ ∧
        joined.body = [.evaluated (.regex ['*', 'x'] [] ⟨0, 4⟩) ⟨0, 5⟩] ++
          [Statement.evaluated (.number ['1'] ⟨0, 1⟩) ⟨0, 2⟩].map
            (Statement.shift (byteLength "/*x/;".toList + 1)) := by
  have hempty : (parse ("/*x/;".toList ++ '\n' :: "1;/**/".toList)).exit = .ok
      ⟨some ⟨[], ⟨0, 0⟩⟩, []⟩ := by
    decide +kernel
  refine ⟨by decide +kernel, by decide +kernel, hempty, ?_⟩
  rintro ⟨joined, hjoined, hbody⟩
  rw [hempty] at hjoined
  cases Option.some.inj (ParseOutput.mk.inj (Exit.ok.inj hjoined)).1
  cases hbody

end PredictiveParsing.Ecma
