/-!
# The shortest decimal that reads back

A finite binary64 number stands for a span of reals, all those that round to it; the ends belong to
the span when its significand is even. Among the decimals `digits · 10 ^ scale` inside the span,
`Span.shortest` takes one of the coarsest scale, hence of the fewest digits, and of two candidates
the nearer to the number, a tie going to the even digit.

All arithmetic is exact: a magnitude is a whole number of quarters of the least subnormal, so every
comparison is one of natural numbers.
-/

namespace Faults.Decimal

/-- The number `digits · 10 ^ scale`. -/
structure Numeral where
  digits : Nat
  scale : Int
  deriving DecidableEq, Repr

/-- The reals `low / den` to `high / den` that round to `mid / den`; `closed` when the ends do. -/
structure Span where
  low : Nat
  mid : Nat
  high : Nat
  den : Nat
  closed : Bool

namespace Span

/-- The same span counted in steps of `10 ^ scale`. -/
def inSteps (span : Span) (scale : Int) : Span :=
  match scale with
  | .ofNat k => { span with den := span.den * Nat.pow 10 k }
  | .negSucc k =>
    let unit := Nat.pow 10 (k + 1)
    { span with low := span.low * unit, mid := span.mid * unit, high := span.high * unit }

/-- The whole number `n` lies in the span. -/
def admits (span : Span) (n : Nat) : Bool :=
  let x := n * span.den
  if span.closed then span.low ≤ x && x ≤ span.high else span.low < x && x < span.high

/-- The whole number of the span that is nearest to its middle, if it holds one of the two next to
the middle. -/
def whole? (span : Span) : Option Nat :=
  let n := span.mid / span.den
  match span.admits n, span.admits (n + 1) with
  | false, false => none
  | true, false => some n
  | false, true => some (n + 1)
  | true, true =>
    match compare (2 * span.mid) ((2 * n + 1) * span.den) with
    | .lt => some n
    | .gt => some (n + 1)
    | .eq => some (if n % 2 = 0 then n else n + 1)

/-- The scales from the coarsest that a binary64 number can need, 308, down to -324, whose steps are
smaller than any span. -/
def scales : List Int := (List.range 633).map fun (i : Nat) => 308 - (i : Int)

/-- The decimal of the coarsest scale inside the span. -/
def shortest (span : Span) : Numeral :=
  (scales.findSome? fun scale => (span.inSteps scale).whole?.map fun n => ⟨n, scale⟩).getD ⟨0, 0⟩

end Span

/-- The fraction bits of a binary64 number. -/
def fraction (x : Float) : Nat := x.toBits.toNat % Nat.pow 2 52

/-- The exponent field of a binary64 number. -/
def exponentField (x : Float) : Nat := x.toBits.toNat / Nat.pow 2 52 % Nat.pow 2 11

/-- The sign bit, which also a zero has. -/
def isNegative (x : Float) : Bool := x.toBits.toNat / Nat.pow 2 63 % 2 == 1

/-- The span of the magnitude of a finite number. The gap below a power of two is half the gap
above it, the least normal number excepted. -/
def spanOf (x : Float) : Span :=
  let e := exponentField x
  let significand := if e = 0 then fraction x else Nat.pow 2 52 + fraction x
  let gap := Nat.pow 2 (e - 1)
  let below := if fraction x = 0 ∧ 1 < e then gap else 2 * gap
  { low := 4 * significand * gap - below, mid := 4 * significand * gap,
    high := 4 * significand * gap + 2 * gap, den := Nat.pow 2 1076,
    closed := significand % 2 == 0 }

end Faults.Decimal
