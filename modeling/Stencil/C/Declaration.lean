import Stencil.Tensor

/-!
# C declarations

Tensors are declared as arrays with one dimension per size. A scalar is an array of
one element, so that it can be read at index zero.
-/

namespace Stencil.C

/-- The C type of an element, from `<stdint.h>` for integers. -/
def typeName : ElementType → String
  | .float32 => "float"
  | .int8 => "int8_t"
  | .uint8 => "uint8_t"
  | .int32 => "int32_t"
  | .int64 => "int64_t"

/-- The dimensions of the array that holds a tensor of the given shape. -/
def arrayDims (shape : List Nat) : List Nat :=
  if shape.isEmpty then [1] else shape

/-- The declared dimensions hold as many elements as the shape. -/
theorem foldr_arrayDims (shape : List Nat) :
    (arrayDims shape).foldr (· * ·) 1 = shape.foldr (· * ·) 1 := by
  cases shape <;> rfl

/-- The dimensions as they are written, such as `[1][3][5][5]`. -/
def dims (shape : List Nat) : String :=
  String.join ((arrayDims shape).map fun size => "[" ++ toString size ++ "]")

/-- A full array declaration, such as `int8_t x[1][3][5][5]`. -/
def declaration (type : ElementType) (name : String) (shape : List Nat) : String :=
  typeName type ++ " " ++ name ++ dims shape

end Stencil.C
