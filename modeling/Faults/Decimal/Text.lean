import Faults.Decimal.Shortest

/-!
# How a real number is written

`Layout` holds the choices of a format and `Layout.text` writes the shortest decimal of a number by
them. `plain` is the layout of every number this library shows: positional as long as the leading
digit stands between the fifth place after the point and the sixteenth before it, else with an
exponent whose sign is always written; a whole number keeps `.0`.
-/

namespace Faults.Decimal

/-- Which numbers are written positionally, by the exponent of the leading digit. -/
structure Layout where
  least : Int
  greatest : Int
  deriving DecidableEq, Repr

/-- Positional from `0.00001` up to sixteen digits before the point. -/
def plain : Layout := ⟨-5, 15⟩

/-- The digits with the point behind the first `n` of them. -/
def pointAfter (n : Nat) (digits : List Char) : List Char :=
  digits.take n ++ '.' :: digits.drop n

/-- Digits times `10 ^ scale` with a point and no exponent. -/
def positional (digits : List Char) : Int → List Char
  | .ofNat zeros => digits ++ List.replicate zeros '0' ++ ['.', '0']
  | .negSucc k =>
    if k + 1 < digits.length then pointAfter (digits.length - (k + 1)) digits
    else '0' :: '.' :: List.replicate (k + 1 - digits.length) '0' ++ digits

example : positional ['1', '2'] 3 = ['1', '2', '0', '0', '0', '.', '0'] := by decide

example : positional ['1', '2'] (-1) = ['1', '.', '2'] := by decide

example : positional ['1', '2'] (-4) = ['0', '.', '0', '0', '1', '2'] := by decide

/-- One digit before the point and the exponent of that digit. -/
def scientific (digits : List Char) (exponent : Int) : List Char :=
  let mantissa := if digits.length ≤ 1 then digits else pointAfter 1 digits
  let sign := if exponent < 0 then '-' else '+'
  mantissa ++ 'e' :: sign :: Nat.toDigits 10 exponent.natAbs

example : scientific ['1', '2'] 20 = ['1', '.', '2', 'e', '+', '2', '0'] := by decide

example : scientific ['5'] (-7) = ['5', 'e', '-', '7'] := by decide

namespace Layout

/-- A positive decimal in this layout. -/
def magnitude (layout : Layout) (d : Numeral) : List Char :=
  let digits := Nat.toDigits 10 d.digits
  let exponent := d.scale + digits.length - 1
  if layout.least ≤ exponent ∧ exponent ≤ layout.greatest then positional digits d.scale
  else scientific digits exponent

/-- A finite number in this layout; a zero keeps its sign. -/
def text (layout : Layout) (x : Float) : List Char :=
  let magnitude :=
    if exponentField x = 0 ∧ fraction x = 0 then ['0', '.', '0']
    else layout.magnitude (spanOf x).shortest
  if isNegative x then '-' :: magnitude else magnitude

end Layout

/-- The text of a real number. -/
def text (x : Float) : List Char := plain.text x

end Faults.Decimal
