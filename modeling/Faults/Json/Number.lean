import Faults.Json.Mismatch

/-!
# Reading numbers

A number without point and exponent that lies between -2^63 and 2^64 - 1 is whole, all others are
real; `-0` is the real number `-0.0`. A real number is its leading digits, as many as stay below
2^64, times a power of ten: the digits are rounded to binary64 first and scaled by one
multiplication or division by a power of ten after that, so the result can be off by a unit in the
last place. What is too large for binary64 is malformed.
-/

namespace Faults.Json

/-- The value of a decimal digit. -/
def digitValue (c : Char) : Nat := c.toNat - '0'.toNat

/-- The longest run of decimal digits, and the rest. -/
def digitRun (cs : List Char) : List Char × List Char :=
  (cs.takeWhile Char.isDigit, cs.dropWhile Char.isDigit)

/-- The largest significand that is kept exactly. -/
def significandLimit : Nat := Nat.pow 2 64 - 1

/-- The largest exponent that is counted. -/
def exponentLimit : Nat := Nat.pow 2 31 - 1

/-- The significand after as many digits as fit, and the digits that no longer do. -/
def feed (significand : Nat) : List Char → Nat × List Char
  | [] => (significand, [])
  | c :: rest =>
    let next := significand * 10 + digitValue c
    if next ≤ significandLimit then feed next rest else (significand, c :: rest)

/-- A natural number below 2^64, rounded to binary64. -/
def rounded (n : Nat) : Float := n.toUInt64.toFloat

/-- A power of ten, rounded to binary64. -/
def tenTo (n : Nat) : Float := Float.ofScientific 1 false n

/-- The quotient by `10 ^ n`, by steps of `10 ^ 308` as long as more is left of the exponent. -/
def scaleDown (x : Float) (n : Nat) : Float :=
  if n ≤ 308 then x / tenTo n
  else if x == 0 then x
  else scaleDown (x / tenTo 308) (n - 308)
termination_by n

/-- `significand · 10 ^ exponent`, `none` when it exceeds binary64. -/
def scaled (significand : Nat) (exponent : Int) : Option Float :=
  let x := rounded significand
  match exponent with
  | .ofNat n =>
    if n ≤ 308 then
      let y := x * tenTo n
      if y.isInf then none else some y
    else if x == 0 then some x
    else none
  | .negSucc n => some (scaleDown x (n + 1))

/-- The real number of the given sign, or the refusal of one that is too large. -/
def signed (negative : Bool) (x : Option Float) : Except ReadError Json :=
  match x with
  | none => .error .malformed
  | some x => .ok (.real (if negative then -x else x))

/-- At the end of the text a missing digit is missing text, elsewhere it is malformed. -/
def digitMissing : List Char → ReadError
  | [] => .incomplete
  | _ :: _ => .malformed

/-- The number of a digit run. -/
def digitsValue (digits : List Char) : Nat :=
  digits.foldl (fun n c => n * 10 + digitValue c) 0

/-- The exponent mark behind the significand, if there is one. -/
def exponentPart (negative : Bool) (significand : Nat) (scale : Int) : Reader Json := fun cs =>
  let plain (rest : List Char) : Except ReadError (Json × List Char) :=
    (signed negative (scaled significand scale)).map (·, rest)
  let marked (rest : List Char) : Except ReadError (Json × List Char) :=
    let (down, rest) := match rest with
      | '+' :: rest => (false, rest)
      | '-' :: rest => (true, rest)
      | rest => (false, rest)
    let (digits, rest) := digitRun rest
    if digits.isEmpty then .error (digitMissing rest)
    else
      let n := digitsValue digits
      if n ≤ exponentLimit then
        (signed negative (scaled significand (if down then scale - n else scale + n))).map (·, rest)
      else if significand ≠ 0 ∧ !down then .error .malformed
      else (signed negative (some 0)).map (·, rest)
  match cs with
  | 'e' :: rest => marked rest
  | 'E' :: rest => marked rest
  | rest => plain rest

/-- The digits behind the point and what follows them. -/
def fractionPart (negative : Bool) (significand : Nat) (scale : Int) : Reader Json := fun cs =>
  let (digits, rest) := digitRun cs
  if digits.isEmpty then .error (digitMissing rest)
  else
    let (significand, unused) := feed significand digits
    exponentPart negative significand (scale - (digits.length - unused.length : Nat)) rest

/-- The whole number of the given sign, or the real one that stands for it. -/
def whole (negative : Bool) (n : Nat) : Json :=
  if !negative then .int n
  else if n = 0 ∨ Nat.pow 2 63 < n then .real (-rounded n)
  else .int (-n)

/-- A number behind its sign. -/
def number (negative : Bool) : Reader Json := fun cs =>
  let (digits, rest) := digitRun cs
  match digits with
  | [] => .error (digitMissing rest)
  | '0' :: _ :: _ => .error .malformed
  | _ =>
    let (significand, unused) := feed 0 digits
    match rest with
    | '.' :: rest => fractionPart negative significand unused.length rest
    | _ =>
      if unused.isEmpty ∧ rest.head? ≠ some 'e' ∧ rest.head? ≠ some 'E' then
        .ok (whole negative significand, rest)
      else exponentPart negative significand unused.length rest

/-! ## Passing over numbers -/

/-- Passes over the digits that have to stand here. -/
def skipDigits (cs : List Char) : Except ReadError (List Char) :=
  let (digits, rest) := digitRun cs
  if digits.isEmpty then .error .malformed else .ok rest

/-- Passes over an exponent, if there is one. -/
def skipExponent (cs : List Char) : Except ReadError (List Char) :=
  let marked (rest : List Char) : Except ReadError (List Char) :=
    match rest with
    | '+' :: rest => skipDigits rest
    | '-' :: rest => skipDigits rest
    | rest => skipDigits rest
  match cs with
  | 'e' :: rest => marked rest
  | 'E' :: rest => marked rest
  | rest => .ok rest

/-- Passes over a number behind its sign. Its size does not matter, and one that breaks off is
malformed even at the end of the text. -/
def skipNumber (cs : List Char) : Except ReadError (List Char) :=
  let (digits, rest) := digitRun cs
  match digits with
  | [] => .error .malformed
  | '0' :: _ :: _ => .error .malformed
  | _ =>
    match rest with
    | '.' :: rest => skipDigits rest >>= skipExponent
    | rest => skipExponent rest

end Faults.Json
