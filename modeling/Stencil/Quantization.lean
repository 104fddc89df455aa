import Stencil.Convolution

/-!
# Quantization

A quantized convolution divides its 32-bit sums by a multiple of the kernel area and
clamps the quotients to a symmetric 8-bit range.
-/

namespace Stencil

/-- The divisor per kernel position. -/
def quantizationScale : Nat := 16

/-- Quantized values lie between this and its negation. -/
def quantizationLimit : Int32 := 127

/-- The divisor of a quantized convolution, if it is a 32-bit number. -/
def Convolution.divisor (c : Convolution) : Resolved Int32 :=
  if quantizationScale * c.kernelArea ≤ 2147483647 then
    .ok (Int32.ofNat (quantizationScale * c.kernelArea))
  else .error (.invalidShape (.kernelArea c.kernelArea))

/-- The divisor that a convolution needs, which is none unless it quantizes. -/
def Convolution.divisor? (c : Convolution) (quantize : Bool) : Resolved (Option Int32) :=
  if quantize then c.divisor.map some else .ok none

def clamp (limit value : Int32) : Int32 :=
  if limit < value then limit else if value < -limit then -limit else value

/-- Rescale a sum; the quotient is rounded toward zero before it is clamped. -/
def requantize (sum divisor : Int32) : Except Fault Int32 := do
  return clamp quantizationLimit (← quotient sum divisor)

end Stencil
