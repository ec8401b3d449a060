import PredictiveParsing.Regex.Assertion
import PredictiveParsing.Regex.CharClass
import PredictiveParsing.Text.Letter
import PredictiveParsing.Text.Numeral

/-!
# Lexemes of patterns

The text of a pattern is a sequence of lexemes: characters, classes, conditions, repetitions,
bars, parentheses with their names and flags. Which lexeme stands at the front of a text depends
on that text and on whether blanks and comments are ignored there, and on nothing else.

Named properties other than digits, blanks and word characters, characters given by number, sets
inside sets and set operations are refused.

* `Lexeme.read?`: the lexeme at the front of a text.
-/

namespace PredictiveParsing

/-- Why a text is no pattern. -/
inductive PatternError where
  | unclosedGroup
  | unopenedGroup
  | unclosedClass
  | nestedClass
  | badRange
  | nothingToRepeat
  | badCount
  | lookaround
  | badGroupName
  | repeatedGroupName (name : Text)
  | badFlags
  | danglingEscape
  | badEscape (c : Char)
  /-- Parts of the pattern are nested too deep. -/
  | tooDeep
  /-- The automaton of the pattern takes too much memory. -/
  | tooLarge
  deriving DecidableEq

/-- What a flag of a pattern turns on. -/
inductive Flag where
  /-- Letters match in both cases. -/
  | caseless
  /-- `^` and `$` are also met at the ends of lines. -/
  | multiline
  /-- The dot also matches a line feed. -/
  | dotAll
  /-- Repetitions are lazy, and greedy where marked as lazy. -/
  | swapGreed
  /-- Blanks and comments are ignored. -/
  | extended
  /-- Classes are those of all scripts; this is always on. -/
  | allScripts
  deriving DecidableEq

/-- The flag that a letter stands for. -/
def Flag.ofChar? : Char → Option Flag
  | 'i' => some .caseless
  | 'm' => some .multiline
  | 's' => some .dotAll
  | 'U' => some .swapGreed
  | 'x' => some .extended
  | 'u' => some .allScripts
  | _ => none

/-- Flags that are turned on or off, in order. -/
abbrev FlagChanges := List (Flag × Bool)

/-- One lexeme of a pattern. -/
inductive Lexeme where
  | literal (c : Char)
  | dot
  | caret
  | dollar
  | set (items : List ClassItem) (negated : Bool)
  | property (which : CharProperty) (negated : Bool)
  | look (a : Assertion)
  | repeat (low : Nat) (high : Option Nat) (marked : Bool)
  | bar
  /-- The start of a group that does not count. -/
  | openGroup (changes : FlagChanges)
  /-- The start of a group that counts. -/
  | openCounted (name : Option Text)
  | closeGroup
  | directive (changes : FlagChanges)
  deriving DecidableEq

namespace Lexeme

/-! ## Blanks and comments -/

/-- Drops blanks and comments; the flag tells whether the front is inside a comment. -/
def skipIgnored : Bool → Text → Text
  | _, [] => []
  | true, c :: rest => skipIgnored (c != '\n') rest
  | false, c :: rest =>
    if Text.isBlank c then skipIgnored false rest
    else if c = '#' then skipIgnored true rest
    else c :: rest

/-- What is left at the front where blanks and comments are ignored. -/
def significant (extended : Bool) (text : Text) : Text :=
  if extended then skipIgnored false text else text

/-! ## Escapes -/

/-- What a backslash and the characters behind it stand for. -/
inductive Escape where
  | literal (c : Char)
  | property (which : CharProperty) (negated : Bool)
  | look (a : Assertion)
  deriving DecidableEq

/-- A character that may stand for itself behind a backslash: any of ASCII but letters and
digits. -/
def isEscapable (c : Char) : Bool :=
  c.toNat < 128 && !c.isAlphanum

/-- The meaning of a character behind a backslash. -/
def Escape.ofChar? : Char → Option Escape
  | 'd' => some (.property .digit false)
  | 'D' => some (.property .digit true)
  | 's' => some (.property .blank false)
  | 'S' => some (.property .blank true)
  | 'w' => some (.property .word false)
  | 'W' => some (.property .word true)
  | 'a' => some (.literal '\x07')
  | 'f' => some (.literal '\x0c')
  | 'n' => some (.literal '\n')
  | 'r' => some (.literal '\r')
  | 't' => some (.literal '\t')
  | 'v' => some (.literal '\x0b')
  | 'A' => some (.look .textStart)
  | 'z' => some (.look .textEnd)
  | 'b' => some (.look .wordBoundary)
  | 'B' => some (.look .noWordBoundary)
  | '<' => some (.look .wordStart)
  | '>' => some (.look .wordEnd)
  | c => if isEscapable c then some (.literal c) else none

/-- The escape behind a backslash. -/
def readEscape : Text → Except PatternError (Escape × Text)
  | [] => .error .danglingEscape
  | c :: rest =>
    match Escape.ofChar? c with
    | some escape => .ok (escape, rest)
    | none => .error (.badEscape c)

/-! ## Classes -/

/-- One character of a class or an escape in it. -/
def readAtom : Text → Except PatternError (Escape × Text)
  | [] => .error .unclosedClass
  | c :: rest => if c = '\\' then readEscape rest else .ok (.literal c, rest)

/-- An escape as an entry of a class. -/
def Escape.classItem : Escape → Except PatternError ClassItem
  | .literal c => .ok (.range c c)
  | .property which negated => .ok (.property which negated)
  | .look _ => .error .badRange

/-- The entry for the range between two escapes. -/
def Escape.classRange : Escape → Escape → Except PatternError ClassItem
  | .literal first, .literal last =>
    if first.toNat ≤ last.toNat then .ok (.range first last) else .error .badRange
  | _, _ => .error .badRange

/-- The first character that is not blank and comes before or behind a number sign. -/
def glimpse? : Bool → Text → Option Char
  | _, [] => none
  | marked, c :: rest =>
    if Text.isBlank c then glimpse? marked rest
    else if c = '#' ∧ ¬ marked then glimpse? true rest
    else some c

/-- The character that decides whether a hyphen makes a range. Where blanks and comments are
ignored, this is the next character that is no blank, even if it stands in a comment. -/
def behindHyphen? (extended : Bool) (text : Text) : Option Char :=
  if extended then (glimpse? false text).orElse fun _ => text.head? else text.head?

/-- The entries up to the closing bracket, behind the entries read already, latest first. A hyphen
is a character if a bracket or another hyphen follows it. -/
def readClassItems (extended : Bool) :
    Nat → List ClassItem → Text → Except PatternError (List ClassItem × Text)
  | 0, _, _ => .error .unclosedClass
  | n + 1, items, text =>
    match significant extended text with
    | [] => .error .unclosedClass
    | ']' :: rest => .ok (items.reverse, rest)
    | '[' :: _ => .error .nestedClass
    | '&' :: '&' :: _ => .error .nestedClass
    | '-' :: '-' :: _ => .error .nestedClass
    | '~' :: '~' :: _ => .error .nestedClass
    | text => do
      let (first, rest) ← readAtom text
      match significant extended rest with
      | '-' :: behind =>
        if behindHyphen? extended behind ∈ [some ']', some '-'] then
          readClassItems extended n ((← first.classItem) :: items) ('-' :: behind)
        else
          let (last, rest) ← readAtom (significant extended behind)
          readClassItems extended n ((← first.classRange last) :: items) rest
      | rest => readClassItems extended n ((← first.classItem) :: items) rest

/-- The hyphens at the front of a class, which are characters. -/
def readHyphens (extended : Bool) : Nat → List ClassItem → Text → List ClassItem × Text
  | 0, items, text => (items, text)
  | n + 1, items, text =>
    match significant extended text with
    | '-' :: rest => readHyphens extended n (ClassItem.range '-' '-' :: items) rest
    | rest => (items, rest)

/-- A class, from behind its opening bracket. A closing bracket that comes first is a character. -/
def readClass (extended : Bool) (text : Text) : Except PatternError (Lexeme × Text) := do
  let (negated, text) :=
    match significant extended text with
    | '^' :: rest => (true, rest)
    | rest => (false, rest)
  let (items, text) := readHyphens extended text.length [] text
  let (items, text) :=
    match items, text with
    | [], ']' :: rest => ([ClassItem.range ']' ']'], rest)
    | items, text => (items, text)
  let (items, rest) ← readClassItems extended (text.length + 1) items text
  return (.set items negated, rest)

/-! ## Groups -/

/-- The flags up to a colon or a closing parenthesis, and whether it was the parenthesis. The first
argument tells that flags are being turned off, the second that the hyphen came last. -/
def readFlags : Bool → Bool → FlagChanges → Text →
    Except PatternError (FlagChanges × Bool × Text)
  | _, _, _, [] => .error .badFlags
  | off, pending, changes, c :: rest =>
    if c = ':' ∨ c = ')' then
      if pending then .error .badFlags else .ok (changes.reverse, c = ')', rest)
    else if c = '-' then
      if off then .error .badFlags else readFlags true true changes rest
    else
      match Flag.ofChar? c with
      | none => .error .badFlags
      | some flag =>
        if changes.any (·.1 = flag) ∨ (flag = .allScripts ∧ off) then .error .badFlags
        else readFlags off false ((flag, !off) :: changes) rest

/-- A character of a group's name, which starts with a letter or an underscore. -/
def isNameChar (first : Bool) (c : Char) : Bool :=
  if first then c = '_' || Text.isLetter c
  else c ∈ ['_', '.', '[', ']'] || Text.isLetter c || Text.isNumeral c

/-- A group's name up to the closing angle bracket, behind the characters read already, latest
first. -/
def readName : Text → Text → Except PatternError (Text × Text)
  | _, [] => .error .badGroupName
  | name, c :: rest =>
    if c = '>' then
      if name.isEmpty then .error .badGroupName else .ok (name.reverse, rest)
    else if isNameChar name.isEmpty c then readName (c :: name) rest
    else .error .badGroupName

/-- The start of a named group. -/
def readNamed (text : Text) : Except PatternError (Lexeme × Text) := do
  let (name, rest) ← readName [] text
  return (.openCounted (some name), rest)

/-- What an opening parenthesis starts. -/
def readOpening (extended : Bool) (text : Text) : Except PatternError (Lexeme × Text) :=
  match significant extended text with
  | '?' :: '=' :: _ => .error .lookaround
  | '?' :: '!' :: _ => .error .lookaround
  | '?' :: '<' :: '=' :: _ => .error .lookaround
  | '?' :: '<' :: '!' :: _ => .error .lookaround
  | '?' :: 'P' :: '<' :: rest => readNamed rest
  | '?' :: '<' :: rest => readNamed rest
  | '?' :: rest => do
    let (changes, closed, rest) ← readFlags false false [] rest
    if closed then
      if changes.isEmpty then .error .nothingToRepeat else return (.directive changes, rest)
    else
      return (.openGroup changes, rest)
  | rest => .ok (.openCounted none, rest)

/-! ## Repetitions -/

/-- The digits at the front, with nothing but ignored text between them. The second argument tells
whether the front is inside a comment. -/
def readDigits (extended : Bool) : Bool → Text → Text × Text
  | _, [] => ([], [])
  | true, c :: rest => readDigits extended (c != '\n') rest
  | false, c :: rest =>
    if c.isDigit then
      let (digits, rest) := readDigits extended false rest
      (c :: digits, rest)
    else if extended && Text.isBlank c then readDigits extended false rest
    else if extended && c = '#' then readDigits extended true rest
    else ([], c :: rest)

/-- The number that decimal digits write. -/
def decimalValue (digits : Text) : Nat :=
  digits.foldl (fun n c => 10 * n + (c.toNat - '0'.toNat)) 0

/-- A count between blanks. -/
def readCount (extended : Bool) (text : Text) : Except PatternError (Nat × Text) :=
  let (digits, rest) := readDigits extended false (text.dropWhile Text.isBlank)
  if digits.isEmpty ∨ 0x100000000 ≤ decimalValue digits then .error .badCount
  else .ok (decimalValue digits, rest.dropWhile Text.isBlank)

/-- A repetition mark behind its bounds, and whether it is marked as lazy. -/
def readMark (low : Nat) (high : Option Nat) : Text → Lexeme × Text
  | '?' :: rest => (.repeat low high true, rest)
  | rest => (.repeat low high false, rest)

/-- The end of a repetition in braces. -/
def readBrace (extended : Bool) (low : Nat) (high : Option Nat) :
    Text → Except PatternError (Lexeme × Text)
  | '\x7d' :: rest =>
    if high.any (· < low) then .error .badCount
    else .ok (readMark low high (significant extended rest))
  | _ => .error .badCount

/-- A repetition in braces, from behind the opening one. -/
def readCounted (extended : Bool) (text : Text) : Except PatternError (Lexeme × Text) := do
  let (low, rest) ← readCount extended (significant extended text)
  match rest with
  | ',' :: rest =>
    match significant extended rest with
    | '\x7d' :: rest => readBrace extended low none ('\x7d' :: rest)
    | rest =>
      let (high, rest) ← readCount extended rest
      readBrace extended low (some high) rest
  | rest => readBrace extended low (some low) rest

/-! ## The front of a pattern -/

/-- The lexeme of an escape. -/
def ofEscape : Escape → Lexeme
  | .literal c => .literal c
  | .property which negated => .property which negated
  | .look a => .look a

/-- The lexeme that starts with `c`. -/
def readAt (extended : Bool) (c : Char) (rest : Text) : Except PatternError (Lexeme × Text) :=
  match c with
  | '(' => readOpening extended rest
  | ')' => .ok (.closeGroup, rest)
  | '|' => .ok (.bar, rest)
  | '[' => readClass extended rest
  | '?' => .ok (readMark 0 (some 1) rest)
  | '*' => .ok (readMark 0 none rest)
  | '+' => .ok (readMark 1 none rest)
  | '\x7b' => readCounted extended rest
  | '\\' => (readEscape rest).map fun (escape, rest) => (ofEscape escape, rest)
  | '.' => .ok (.dot, rest)
  | '^' => .ok (.caret, rest)
  | '$' => .ok (.dollar, rest)
  | c => .ok (.literal c, rest)

/-- The lexeme at the front of a text and what follows it; nothing at the end of the text. -/
def read? (extended : Bool) (text : Text) : Except PatternError (Option (Lexeme × Text)) :=
  match significant extended text with
  | [] => .ok none
  | c :: rest => (readAt extended c rest).map some

end Lexeme

end PredictiveParsing
