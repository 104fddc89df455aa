import Stencil.Attribute
import Stencil.Tensor

/-!
# Models

The description of a graph: its tensors, the values of the constant ones, and its
nodes in execution order.
-/

namespace Stencil

/-- The values of a constant tensor, in row-major order. -/
inductive TensorData where
  | ints (values : List Int)
  | floats (values : List Single)
deriving DecidableEq, Repr

def TensorData.length : TensorData → Nat
  | ints values => values.length
  | floats values => values.length

def TensorData.isEmpty (data : TensorData) : Bool := data.length == 0

structure Initializer where
  tensor : Tensor
  data : TensorData
deriving DecidableEq, Repr

structure NodeDescription where
  operatorName : String
  /-- An empty name stands for one made of the operator and the position. -/
  name : String := ""
  /-- Tensor names; an empty one marks an omitted optional input. -/
  inputs : List String
  outputs : List String
  attributes : Attributes := []
deriving DecidableEq, Repr

structure Model where
  name : String := ""
  /-- The tensors that the caller of the emitted code supplies. -/
  inputs : List Tensor
  initializers : List Initializer := []
  nodes : List NodeDescription
  /-- The names of the tensors that the emitted code hands back. -/
  outputs : List String
deriving DecidableEq, Repr

end Stencil
