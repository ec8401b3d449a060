import PredictiveParsing.Text.Basic
import PredictiveParsing.Text.Hidden

/-!
# Quoted text

Text between double quotes, on one line: quotes and backslashes follow a backslash, the usual
controls have their letters, and a character without a visible form is given by its number.
-/

namespace PredictiveParsing.Text

/-- The characters of a number in hexadecimal, without leading zeros. -/
def hexDigits (n : Nat) : Text :=
  Nat.toDigits 16 n

/-- The form of one character between quotes. -/
def quoteChar (c : Char) : Text :=
  if c = '"' then ['\\', '"']
  else if c = '\\' then ['\\', '\\']
  else if c = '\n' then ['\\', 'n']
  else if c = '\r' then ['\\', 'r']
  else if c = '\t' then ['\\', 't']
  else if c = '\x00' then ['\\', '0']
  else if isHidden c then ['\\', 'u', '\x7b'] ++ hexDigits c.toNat ++ ['\x7d']
  else [c]

/-- A text between double quotes. -/
def quoted (text : Text) : String :=
  String.ofList ('"' :: text.flatMap quoteChar ++ ['"'])

end PredictiveParsing.Text
