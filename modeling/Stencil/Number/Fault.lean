/-!
# Faults

The steps that a machine refuses are faults, kept apart from the errors of a model.
-/

namespace Stencil

/-- A step without a result. -/
inductive Fault where
  | divideByZero
  | divideOverflow
  | subtractOverflow
  | indexOutOfRange
deriving DecidableEq, Repr

def Fault.message : Fault → String
  | .divideByZero => "attempt to divide by zero"
  | .divideOverflow => "attempt to divide with overflow"
  | .subtractOverflow => "attempt to subtract with overflow"
  | .indexOutOfRange => "index out of range"

/-- The quotient of two words, rounded toward zero. -/
def quotient (a b : Int32) : Except Fault Int32 :=
  if b = 0 then .error .divideByZero
  else if a = Int32.minValue ∧ b = -1 then .error .divideOverflow
  else .ok (a / b)

end Stencil
