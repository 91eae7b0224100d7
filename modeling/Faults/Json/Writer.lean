import Faults.Decimal.Text
import Faults.Json.Basic

/-!
# Writing JSON

The compact text of a value: no blanks, members in the order they stand, and in texts only the
quote, the backslash and the controls are escaped, by the short forms where JSON has them.
-/

namespace Faults.Json

/-- A digit of a four-digit escape. -/
def hexDigit (n : Nat) : Char := Nat.digitChar n

/-- One character of a text. -/
def escape (c : Char) : List Char :=
  match c with
  | '"' => ['\\', '"']
  | '\\' => ['\\', '\\']
  | '\x08' => ['\\', 'b']
  | '\t' => ['\\', 't']
  | '\n' => ['\\', 'n']
  | '\x0c' => ['\\', 'f']
  | '\r' => ['\\', 'r']
  | c =>
    if c.toNat < 0x20 then
      ['\\', 'u', '0', '0', hexDigit (c.toNat / 16), hexDigit (c.toNat % 16)]
    else [c]

/-- A text between quotes. -/
def quote (s : String) : List Char :=
  '"' :: s.toList.flatMap escape ++ ['"']

mutual

/-- The characters of a value. -/
def chars : Json → List Char
  | null => ['n', 'u', 'l', 'l']
  | bool true => ['t', 'r', 'u', 'e']
  | bool false => ['f', 'a', 'l', 's', 'e']
  | int n => if n < 0 then '-' :: Nat.toDigits 10 n.natAbs else Nat.toDigits 10 n.natAbs
  | real x => Decimal.text x
  | str s => quote s
  | arr items => '[' :: itemChars items
  | obj members => '{' :: memberChars members

/-- The items, the commas between them and the closing bracket. -/
def itemChars : List Json → List Char
  | [] => [']']
  | [item] => item.chars ++ [']']
  | item :: next :: rest => item.chars ++ ',' :: itemChars (next :: rest)

/-- The members, the commas between them and the closing brace. -/
def memberChars : List (String × Json) → List Char
  | [] => ['}']
  | [(key, value)] => quote key ++ ':' :: value.chars ++ ['}']
  | (key, value) :: next :: rest =>
    quote key ++ ':' :: value.chars ++ ',' :: memberChars (next :: rest)

end

/-- The text of a value. -/
def text (value : Json) : String := String.ofList value.chars

end Faults.Json
