/-!
# Binary floating-point formats

A finite magnitude of a format is `significand · 2 ^ shift` in units of its
smallest positive number, and magnitudes are coded by consecutive naturals in
increasing order, infinity and the not-a-number codes last. `ofRatio` rounds an
exact quotient to the nearest magnitude, a tie to the even code.
-/

namespace Stencil

/-- The widths of the two magnitude fields of a binary interchange format. -/
structure FloatFormat where
  fractionBits : Nat
  exponentBits : Nat
deriving DecidableEq, Repr

namespace FloatFormat

def single : FloatFormat := ⟨23, 8⟩

def double : FloatFormat := ⟨52, 11⟩

/-- The smallest positive number is `2 ^ -scale`. -/
def scale (f : FloatFormat) : Nat :=
  Nat.pow 2 (f.exponentBits - 1) - 2 + f.fractionBits

/-- The code of infinity; larger codes are not numbers. -/
def infinity (f : FloatFormat) : Nat :=
  (Nat.pow 2 f.exponentBits - 1) * Nat.pow 2 f.fractionBits

def significand (f : FloatFormat) (code : Nat) : Nat :=
  if code / Nat.pow 2 f.fractionBits = 0 then code
  else Nat.pow 2 f.fractionBits + code % Nat.pow 2 f.fractionBits

def shift (f : FloatFormat) (code : Nat) : Nat :=
  code / Nat.pow 2 f.fractionBits - 1

/-- The nearest natural to `num / den`, a half going to the even neighbour. -/
def roundHalfEven (num den : Nat) : Nat :=
  let quotient := num / den
  let twice := 2 * (num % den)
  if twice < den then quotient
  else if den < twice then quotient + 1
  else quotient + quotient % 2

/-- The code nearest to `num / den`, for a positive `den`. A carry out of the
significand moves on to the next code, which is the first of the next shift. -/
def codeOfRatio (f : FloatFormat) (num den : Nat) : Nat :=
  let scaled := num * Nat.pow 2 f.scale
  let whole := scaled / den
  let shift := if whole = 0 then 0 else whole.log2 - f.fractionBits
  min f.infinity (shift * Nat.pow 2 f.fractionBits + roundHalfEven scaled (den * Nat.pow 2 shift))

end FloatFormat

/-- A floating-point value: a sign and the code of its magnitude. -/
structure Binary (f : FloatFormat) where
  negative : Bool
  code : Nat
deriving DecidableEq, Repr

abbrev Single : Type := Binary .single

abbrev Double : Type := Binary .double

namespace Binary

variable {f g : FloatFormat}

def isFinite (x : Binary f) : Bool := x.code < f.infinity

def isInfinite (x : Binary f) : Bool := x.code = f.infinity

def isZero (x : Binary f) : Bool := x.code = 0

/-- The magnitude of a finite value as a quotient of naturals. -/
def ratio (x : Binary f) : Nat × Nat :=
  (f.significand x.code * Nat.pow 2 (f.shift x.code), Nat.pow 2 f.scale)

def ofRatio (negative : Bool) (num den : Nat) : Binary f :=
  ⟨negative, f.codeOfRatio num den⟩

def ofInt (i : Int) : Binary f := ofRatio (i < 0) i.natAbs 1

/-- The same number in another format, rounded once. -/
def convert (x : Binary f) : Binary g :=
  if x.isFinite then ofRatio x.negative x.ratio.1 x.ratio.2
  else if x.isInfinite then ⟨x.negative, g.infinity⟩
  else ⟨x.negative, g.infinity + Nat.pow 2 (g.fractionBits - 1)⟩

/-- The product of two finite magnitudes, with the sign of the first. -/
def scaleUp (x y : Binary f) : Binary f :=
  ofRatio x.negative (x.ratio.1 * y.ratio.1) (x.ratio.2 * y.ratio.2)

/-- The quotient of two finite magnitudes, the second not zero, with the sign of the first. -/
def scaleDown (x y : Binary f) : Binary f :=
  ofRatio x.negative (x.ratio.1 * y.ratio.2) (x.ratio.2 * y.ratio.1)

end Binary

/-- The value whose sign bit and magnitude make up the 32-bit word `bits`. -/
def Single.ofBits (bits : Nat) : Single :=
  ⟨2147483648 ≤ bits, bits % 2147483648⟩

end Stencil
