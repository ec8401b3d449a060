import PredictiveParsing.Predict.Lookahead

/-!
# The lexicon of the language

Sixteen kinds: white space and two sorts of comments, which are passed over, two keywords,
names, numbers, regular expressions and eight signs. A slash begins a regular expression, a
comment or nothing longer; which of them is meant is for the grammar to ask.

* `build_definitions`: the definitions have no fault.
-/

namespace PredictiveParsing.Ecma

/-- The class of the characters of words, as a pattern. -/
def wordPattern : Text := "[A-Za-z0-9_$]".toList

/-- A kind given by a pattern. -/
def patternKind (name pattern : String) (flags : KindFlags) : KindDefinition :=
  ⟨name, .pattern pattern.toList, flags⟩

/-- A kind given by its text, which is also its name, between quotes. -/
def literalKind (text : String) : KindDefinition :=
  ⟨"'" ++ text ++ "'", .literal text.toList, {}⟩

/-- A keyword, whose name is its text between quotes. -/
def keywordKind (text : String) : KindDefinition :=
  ⟨"'" ++ text ++ "'", .keyword text.toList wordPattern, {}⟩

/-- The kinds of the language, in order of their numbers. -/
def definitions : List KindDefinition :=
  [patternKind "WhiteSpace" "[ \\t\\r\\n]+" ⟨true, true⟩,
   patternKind "LineComment" "//[^\\n]*" ⟨true, false⟩,
   patternKind "BlockComment" "/\\*[\\s\\S]*?\\*/" ⟨true, true⟩,
   keywordKind "return",
   keywordKind "var",
   patternKind "Identifier" "[A-Za-z_$][A-Za-z0-9_$]*" {},
   patternKind "NumericLiteral" "[0-9]+(?:\\.[0-9]+)?" {},
   patternKind "RegularExpressionLiteral"
     "/(?:[^/\\\\\\r\\n\\[]|\\\\.|\\[(?:[^\\]\\\\\\r\\n]|\\\\.)*\\])+/[A-Za-z]*" {},
   literalKind "/",
   literalKind "*",
   literalKind "+",
   literalKind "-",
   literalKind "=",
   literalKind ";",
   literalKind "(",
   literalKind ")"]

/-! ## Numbers of kinds -/

/-- The keyword that begins a return statement. -/
def returnKeyword : KindId := ⟨3⟩
/-- The keyword that begins a declaration. -/
def varKeyword : KindId := ⟨4⟩
/-- A name. -/
def identifier : KindId := ⟨5⟩
/-- A number. -/
def numericLiteral : KindId := ⟨6⟩
/-- A regular expression. -/
def regexLiteral : KindId := ⟨7⟩
/-- The sign of division. -/
def slash : KindId := ⟨8⟩
/-- The sign of multiplication. -/
def star : KindId := ⟨9⟩
/-- The sign of addition. -/
def plus : KindId := ⟨10⟩
/-- The sign of subtraction. -/
def minus : KindId := ⟨11⟩
/-- The sign between a name and its initial value. -/
def equals : KindId := ⟨12⟩
/-- The sign that ends a statement. -/
def semicolon : KindId := ⟨13⟩
/-- The sign that opens parentheses. -/
def leftParen : KindId := ⟨14⟩
/-- The sign that closes parentheses. -/
def rightParen : KindId := ⟨15⟩

/-! ## The lexicon -/

theorem isSome_build_definitions : (Lexicon.build definitions).toOption.isSome = true := by
  decide +kernel

/-- The lexicon of the language. -/
def lexicon : Lexicon := (Lexicon.build definitions).toOption.get isSome_build_definitions

theorem build_definitions : Lexicon.build definitions = .ok lexicon := by
  have h : (Lexicon.build definitions).toOption = some lexicon := (Option.some_get _).symm
  cases hb : Lexicon.build definitions with
  | error e => rw [hb] at h; simp [Except.toOption] at h
  | ok l => rw [hb] at h; simpa [Except.toOption] using h

/-! ## Lookaheads -/

/-- The kinds with which an operand begins. -/
def operandKinds : List KindId := [numericLiteral, regexLiteral, identifier, leftParen]

/-- A statement comes next. -/
def statementStart : OptionalLookahead := ⟨⟨returnKeyword :: varKeyword :: operandKinds⟩⟩

/-- Which sort of statement comes next. -/
def statementChoice : AlternativeLookahead := ⟨[⟨[returnKeyword]⟩, ⟨[varKeyword]⟩, ⟨operandKinds⟩]⟩

/-- An expression comes next. -/
def expressionStart : OptionalLookahead := ⟨⟨operandKinds⟩⟩

/-- An initial value comes next. -/
def initializerStart : OptionalLookahead := ⟨⟨[equals]⟩⟩

/-- An operator between terms comes next. -/
def additiveStart : OptionalLookahead := ⟨⟨[plus, minus]⟩⟩

/-- Which operator between terms comes next. -/
def additiveChoice : AlternativeLookahead := ⟨[⟨[plus]⟩, ⟨[minus]⟩]⟩

/-- An operator between factors comes next. -/
def multiplicativeStart : OptionalLookahead := ⟨⟨[star, slash]⟩⟩

/-- Which operator between factors comes next. -/
def multiplicativeChoice : AlternativeLookahead := ⟨[⟨[star]⟩, ⟨[slash]⟩]⟩

/-- Which sort of operand comes next. -/
def primaryChoice : AlternativeLookahead :=
  ⟨[⟨[numericLiteral]⟩, ⟨[regexLiteral]⟩, ⟨[identifier]⟩, ⟨[leftParen]⟩]⟩

end PredictiveParsing.Ecma
