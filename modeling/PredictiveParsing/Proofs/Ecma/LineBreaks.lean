import PredictiveParsing.Proofs.Ecma.Composing
import PredictiveParsing.Proofs.Parse.LineBreaks

/-!
# Line breaks in the tokens of the language

Only white space and block comments may hold line breaks. The classes of all other kinds leave the
line feed out, also where a pattern excludes or escapes characters.

* `truthful_lexicon`: the lexicon of the language is truthful.
* `lineBreaks_declared`: no token of another kind holds a line break, and no parse warns of one.
-/

namespace PredictiveParsing.Ecma

open Text PredictiveParsing.Parser

variable {μ : Type}

/-- The kinds whose tokens are to keep to one line. -/
def oneLineKinds : List KindId :=
  [⟨1⟩, returnKeyword, varKeyword, identifier, numericLiteral, regexLiteral, slash, star, plus,
    minus, equals, semicolon, leftParen, rightParen]

theorem mem_oneLineKinds (id : KindId) :
    id ∈ oneLineKinds ↔ ∃ kind, lexicon.get? id = some kind ∧ kind.flags.lineBreaks = false := by
  have hkinds : oneLineKinds = lexicon.kindsWith (!·.flags.lineBreaks) := by decide +kernel
  rw [hkinds, Lexicon.mem_kindsWith]
  simp only [Bool.not_eq_true']

theorem truthful_lexicon : lexicon.Truthful :=
  Lexicon.truthful_of_staysOnLine (by decide +kernel)

theorem program_unwarned {parser : Parser} (h : parser.scanner.lexicon.Truthful) :
    Action.Follows Unwarned (program parser : ParseAction μ Program) := by
  have hobeys := Scanner.obeys_calm h
  exact program_carried (carries_follows parser) (consume_unwarned h)

/-- A token of a kind that is to keep to one line holds no line break, at whatever place of whatever
source it is found, and no parse reports that one does, whether it accepts or rejects its source. -/
theorem lineBreaks_declared :
    (∀ id, id ∈ oneLineKinds ↔
      ∃ kind, lexicon.get? id = some kind ∧ kind.flags.lineBreaks = false) ∧
    (∀ (scanner : Scanner), scanner.lexicon = lexicon → ∀ id ∈ oneLineKinds,
      ∀ (s : Store) (token : Token),
        (scanner.tryMatch id s : Run Event Store Empty (Option Token)).exit = .ok (some token) →
          '\n' ∉ token.text) ∧
    ∀ (parser : Parser), parser.scanner.lexicon = lexicon →
      ∀ (source : Text) (s : ParserState),
        let r : Run (Emission μ) ParserState ParseError (ParseOutput Program) :=
          parseWith parser source s
        ∀ (kind : String) (start : Nat), .event (.lineBreak kind start) ∉ r.records := by
  refine ⟨mem_oneLineKinds, ?_, ?_⟩
  · intro scanner hlexicon id hid s token htoken
    obtain ⟨kind, hkind, hflag⟩ := (mem_oneLineKinds id).1 hid
    have htruthful : scanner.lexicon.Truthful := hlexicon ▸ truthful_lexicon
    exact Scanner.not_mem_of_tryMatch htruthful (hlexicon ▸ hkind) hflag htoken
  · intro parser hlexicon source s r kind start hwarned
    have htruthful : parser.scanner.lexicon.Truthful := hlexicon ▸ truthful_lexicon
    exact run_unwarned (program_unwarned htruthful) source s _ hwarned _ rfl rfl

/-- A line comment ends before the line break behind it. The parse that passes over both, and then
misses a semicolon, does not warn. -/
theorem lineBreaks_declared_comment :
    let scanner : Scanner := { lexicon, config := { skipping := false } }
    let s : Store := ⟨"a // b\n+ c".toList, 2⟩
    let comment : Token := ⟨⟨1⟩, "// b".toList, ⟨2, 6⟩⟩
    let missing : ParseError := ⟨[semicolon], ⟨KindId.error, "<eof>".toList, ⟨10, 10⟩⟩,
      some "ExpressionStatement",
      "expected ';', found end of input while parsing ExpressionStatement"⟩
    let r := parse s.source
    (scanner.tryMatch ⟨1⟩ s : Run Event Store Empty (Option Token)).exit = .ok (some comment) ∧
      '\n' ∉ comment.text ∧ '\n' ∈ s.source ∧
      r.exit = .ok ⟨none, [missing]⟩ ∧
      ∀ (kind : String) (start : Nat), .event (.lineBreak kind start) ∉ r.records := by
  intro scanner s comment missing r
  obtain ⟨hcomment, hexit⟩ : (scanner.tryMatch ⟨1⟩ s :
      Run Event Store Empty (Option Token)).exit = .ok (some comment) ∧
        r.exit = .ok ⟨none, [missing]⟩ := by
    decide +kernel
  have hscanner : scanner.lexicon = lexicon := by simp only [scanner]
  have hparser : (parser {} .standard).scanner.lexicon = lexicon := by simp only [parser]
  obtain ⟨-, htokens, hparses⟩ := lineBreaks_declared (μ := Empty)
  exact ⟨hcomment, htokens scanner hscanner ⟨1⟩ (by decide) s comment hcomment, by decide, hexit,
    hparses _ hparser s.source (.start [])⟩

end PredictiveParsing.Ecma
