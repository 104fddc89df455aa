import Stencil.Number.FloatFormat

/-!
# Decimal literals

A decimal literal is read as a double through a 64-bit significand: leading digits
are taken as long as they fit, and the significand is then scaled by a power of ten
in double precision. A literal beyond the largest double has no value.
-/

namespace Stencil

namespace Significand

def fits (n : Nat) : Bool := n < 18446744073709551616

/-- Take the digits of the whole part; what does not fit any more only counts. -/
def takeWhole (significand : Nat) : List Nat → Nat × Nat
  | [] => (significand, 0)
  | d :: ds =>
    if fits (significand * 10 + d) then takeWhole (significand * 10 + d) ds
    else (significand, ds.length + 1)

/-- Take digits of the fraction, counting them; the first that does not fit ends it. -/
def takeFraction (significand : Nat) : List Nat → Nat × Nat
  | [] => (significand, 0)
  | d :: ds =>
    if fits (significand * 10 + d) then
      let (taken, count) := takeFraction (significand * 10 + d) ds
      (taken, count + 1)
    else (significand, 0)

end Significand

namespace Double

/-- The greatest power of ten below infinity has exponent 308. -/
def powerOfTen (exponent : Nat) : Double := .ofRatio false (Nat.pow 10 exponent) 1

/-- The product of `x` and `10 ^ exponent`, rounded once, or several times when the
exponent is far below zero. -/
def scaleByTen (x : Double) (exponent : Int) : Option Double :=
  if x.isZero then some x
  else if 308 < exponent then none
  else if 0 ≤ exponent then
    let y := x.scaleUp (powerOfTen exponent.toNat)
    if y.isFinite then some y else none
  else if -308 ≤ exponent then some (x.scaleDown (powerOfTen (-exponent).toNat))
  else scaleByTen (x.scaleDown (powerOfTen 308)) (exponent + 308)
termination_by (-exponent).toNat
decreasing_by omega

/-- The value of a literal with the given digits and exponent. -/
def ofLiteral (negative : Bool) (whole fraction : List Nat) (exponent : Int) : Option Double :=
  let (taken, dropped) := Significand.takeWhole 0 whole
  let (significand, places) := Significand.takeFraction taken fraction
  scaleByTen (.ofRatio negative significand 1) (dropped - places + exponent)

end Double

end Stencil
