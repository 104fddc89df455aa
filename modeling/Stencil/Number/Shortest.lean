import Stencil.Number.FloatFormat

/-!
# Shortest decimals

The decimal of a floating-point value is the one with the fewest digits among
those that round to it, and the nearest of these. It is found by comparing the
two neighbours of the value on ever finer decimal grids with the interval of
numbers that round to the value, all in exact arithmetic.
-/

namespace Stencil

/-- The number `digits · 10 ^ exponent`. -/
structure Decimal where
  digits : Nat
  exponent : Int
deriving DecidableEq, Repr

/-- Where a decimal goes that lies halfway between two candidates. -/
inductive Tie where
  | up
  | even
deriving DecidableEq, Repr

namespace Binary

variable {f : FloatFormat}

/-- A positive finite magnitude with the interval that rounds to it, in quarters
of the smallest number of the format. -/
structure Interval where
  low : Nat
  value : Nat
  high : Nat
  closed : Bool

/-- Below a power of two the next magnitude is half as far away. -/
def interval (x : Binary f) : Interval :=
  let m := f.significand x.code
  let unit := Nat.pow 2 (f.shift x.code)
  let below := if m = Nat.pow 2 f.fractionBits ∧ 0 < f.shift x.code then 1 else 2
  ⟨(4 * m - below) * unit, 4 * m * unit, (4 * m + 2) * unit, m % 2 = 0⟩

/-- The candidate of the grid of multiples of `10 ^ exponent`, if one of the two
neighbours of the value on that grid lies in its interval. -/
def gridPoint? (tie : Tie) (x : Binary f) (exponent : Int) : Option Nat :=
  let i := x.interval
  let ten := Nat.pow 10 (-exponent).toNat
  let unit := Nat.pow 10 exponent.toNat * Nat.pow 2 (f.scale + 2)
  let inside (point : Nat) : Bool :=
    if i.closed then i.low * ten ≤ point * unit ∧ point * unit ≤ i.high * ten
    else i.low * ten < point * unit ∧ point * unit < i.high * ten
  let lower := i.value * ten / unit
  match inside lower, inside (lower + 1) with
  | false, false => none
  | true, false => some lower
  | false, true => some (lower + 1)
  | true, true =>
    let twice := 2 * (i.value * ten)
    let middle := (2 * lower + 1) * unit
    if twice < middle then some lower
    else if middle < twice then some (lower + 1)
    else match tie with
      | .up => some (lower + 1)
      | .even => some (lower + lower % 2)

/-- The first grid with a candidate, from `10 ^ exponent` downwards. -/
def firstGrid (tie : Tie) (x : Binary f) : Nat → Int → Decimal
  | 0, exponent => ⟨0, exponent⟩
  | steps + 1, exponent =>
    match x.gridPoint? tie exponent with
    | some digits => ⟨digits, exponent⟩
    | none => firstGrid tie x steps (exponent - 1)

/-- The shortest decimal of a positive finite magnitude. The search starts above
the value, and at `10 ^ -scale` every value lies on the grid itself. -/
def shortest (tie : Tie) (x : Binary f) : Decimal :=
  let whole := x.ratio.1 / x.ratio.2
  let length := if whole = 0 then 0 else (Nat.toDigits 10 whole).length
  firstGrid tie x (length + f.scale + 1) length

end Binary

end Stencil
