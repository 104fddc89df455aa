import Stencil.Number.Shortest

/-!
# Float text

How a floating-point value is written: its shortest decimal, positionally within
a range of magnitudes and with an exponent outside of it.
-/

namespace Stencil

/-- The decisions of a float text. A value is positional when the exponent of its
first digit is at least `least` and below `limit`. -/
structure FloatStyle where
  least : Int
  limit : Int
  tie : Tie
  /-- A positive exponent is written with its sign. -/
  plus : Bool

/-- Values in messages and in C literals. -/
def FloatStyle.literal : FloatStyle := ⟨-4, 16, .up, false⟩

/-- Values that stand where the JSON of a document should have held something else. -/
def FloatStyle.document : FloatStyle := ⟨-5, 16, .even, true⟩

namespace Decimal

/-- The digits with the point after `point` of them, at least one digit on each side. -/
def positional (digits : List Char) (point : Int) : String :=
  if point ≤ 0 then
    "0." ++ String.ofList (List.replicate (-point).toNat '0' ++ digits)
  else if digits.length ≤ point.toNat then
    String.ofList (digits ++ List.replicate (point.toNat - digits.length) '0') ++ ".0"
  else
    String.ofList (digits.take point.toNat) ++ "." ++ String.ofList (digits.drop point.toNat)

/-- One digit before the point, no point when it is the only one. -/
def scientific (plus : Bool) (digits : List Char) (exponent : Int) : String :=
  let rest := digits.drop 1
  String.ofList (digits.take 1) ++ (if rest.isEmpty then "" else "." ++ String.ofList rest)
    ++ "e" ++ (if plus && 0 ≤ exponent then "+" else "") ++ toString exponent

def render (style : FloatStyle) (d : Decimal) : String :=
  let digits := Nat.toDigits 10 d.digits
  let point : Int := digits.length + d.exponent
  if style.least ≤ point - 1 ∧ point - 1 < style.limit then positional digits point
  else scientific style.plus digits (point - 1)

end Decimal

namespace Binary

variable {f : FloatFormat}

def render (style : FloatStyle) (x : Binary f) : String :=
  let sign := if x.negative then "-" else ""
  if x.isFinite then
    sign ++ if x.isZero then "0.0" else (x.shortest style.tie).render style
  else if x.isInfinite then sign ++ "inf"
  else "NaN"

/-- The digits of a value with neither exponent nor a fraction of zero. -/
def renderPlain (x : Binary f) : String :=
  let sign := if x.negative then "-" else ""
  if x.isFinite then
    if x.isZero then sign ++ "0"
    else
      let d := x.shortest .up
      let digits := Nat.toDigits 10 d.digits
      if 0 ≤ d.exponent then sign ++ String.ofList (digits ++ List.replicate d.exponent.toNat '0')
      else sign ++ Decimal.positional digits (digits.length + d.exponent)
  else x.render .literal

end Binary

end Stencil
