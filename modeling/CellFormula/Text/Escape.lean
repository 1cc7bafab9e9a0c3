import CellFormula.Text.Printable
/-!
# Escaped text

An escaped text stands between double quotes. Quotes, backslashes and common control characters are
written with a backslash, and other unprintable characters by their code point.
-/

namespace CellFormula.Text

/-- How a character is written inside an escaped text. -/
def escapeChar (c : Char) : List Char :=
  match c with
  | '\x00' => ['\\', '0']
  | '\t' => ['\\', 't']
  | '\r' => ['\\', 'r']
  | '\n' => ['\\', 'n']
  | '\\' => ['\\', '\\']
  | '"' => ['\\', '"']
  | c =>
    if isPrintable c then [c]
    else '\\' :: 'u' :: '\x7b' :: (Nat.toDigits 16 c.toNat ++ ['\x7d'])

/-- The text between quotes, escaped. -/
def escape (text : String) : String :=
  String.ofList ('"' :: (text.toList.flatMap escapeChar ++ ['"']))

end CellFormula.Text
