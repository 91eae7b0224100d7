import Faults.Text.Printable

/-!
# Quoted texts

`quoted` shows a text between double quotes so that every character of it can be told apart: the
quote and the backslash are escaped, four controls have short forms, and a character without a
visible form of its own is written as its code point, `\u{…}` in the fewest lower-case
hexadecimal digits.
-/

namespace Faults.Text

/-- The value as hexadecimal digits in lower case, at least one. -/
def hex (n : Nat) : List Char := Nat.toDigits 16 n

/-- How one character is shown between the quotes. -/
def escape (c : Char) : List Char :=
  match c with
  | '"' => ['\\', '"']
  | '\\' => ['\\', '\\']
  | '\n' => ['\\', 'n']
  | '\r' => ['\\', 'r']
  | '\t' => ['\\', 't']
  | '\x00' => ['\\', '0']
  | c => if isPrintable c then [c] else ['\\', 'u', '{'] ++ hex c.toNat ++ ['}']

/-- The text between double quotes. -/
def quoted (text : String) : String :=
  String.ofList ('"' :: text.toList.flatMap escape ++ ['"'])

end Faults.Text
