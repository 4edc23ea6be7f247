import Lox.Text.Printable

/-!
# Quoted text

Text shown inside quotes. Single quotes are used unless the text holds one and no double quote;
the quote in use, the backslash and every character without a visible form are escaped.
-/
namespace Lox.Text

/-- The low digits of a number in base sixteen, most significant first. -/
def hexDigits : Nat → Nat → List Char
  | 0, _ => []
  | width + 1, n => hexDigits width (n / 16) ++ [Nat.digitChar (n % 16)]

/-- A character named by its code point, in the shortest of the three forms that holds it. -/
def codeEscape (c : Char) : List Char :=
  if c.toNat < 0x100 then '\\' :: 'x' :: hexDigits 2 c.toNat
  else if c.toNat < 0x10000 then '\\' :: 'u' :: hexDigits 4 c.toNat
  else '\\' :: 'U' :: hexDigits 8 c.toNat

/-- A character as it stands between the given quotes. -/
def escape (delimiter c : Char) : List Char :=
  if c = delimiter ∨ c = '\\' then ['\\', c]
  else if c = '\n' then ['\\', 'n']
  else if c = '\r' then ['\\', 'r']
  else if c = '\t' then ['\\', 't']
  else if isPrintable c then [c]
  else codeEscape c

/-- The quotes for a text: double ones only where they save an escape. -/
def delimiter (text : List Char) : Char :=
  if text.contains '\'' && !text.contains '"' then '"' else '\''

/-- A text inside its quotes, on one line and in visible characters. -/
def quote (text : String) : String :=
  let mark := delimiter text.toList
  String.ofList (mark :: text.toList.flatMap (escape mark) ++ [mark])

end Lox.Text
