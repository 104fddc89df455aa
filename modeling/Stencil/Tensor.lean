/-!
# Tensors

A tensor is a name, an element type and a static shape. Its values live elsewhere:
in the initializers of a model and in the arrays of the emitted code.
-/

namespace Stencil

inductive ElementType where
  | float32
  | int8
  | uint8
  | int32
  | int64
deriving DecidableEq, Repr

namespace ElementType

def all : List ElementType := [.float32, .int8, .uint8, .int32, .int64]

def name : ElementType → String
  | float32 => "float32"
  | int8 => "int8"
  | uint8 => "uint8"
  | int32 => "int32"
  | int64 => "int64"

def ofName? (text : String) : Option ElementType :=
  all.find? (·.name == text)

def isInt : ElementType → Bool
  | float32 => false
  | _ => true

/-- The least and the greatest integer of an integer type. -/
def range? : ElementType → Option (Int × Int)
  | float32 => none
  | int8 => some (-128, 127)
  | uint8 => some (0, 255)
  | int32 => some (-2147483648, 2147483647)
  | int64 => some (-9223372036854775808, 9223372036854775807)

theorem ofName?_name (t : ElementType) : ofName? t.name = some t := by
  cases t <;> rfl

end ElementType

structure Tensor where
  name : String
  type : ElementType
  /-- Sizes, outermost first. -/
  shape : List Nat
deriving DecidableEq, Repr

namespace Tensor

def rank (t : Tensor) : Nat := t.shape.length

/-- The number of elements; a scalar has one. -/
def size (t : Tensor) : Nat := t.shape.foldr (· * ·) 1

end Tensor

end Stencil
