import Stencil.Attribute
import Stencil.Tensor

/-!
# Nodes

A node of a graph before it is resolved: an operator applied to tensors, with
attributes, and the names of the tensors that it produces.
-/

namespace Stencil

inductive Operator where
  | conv
  | convInteger
deriving DecidableEq, Repr

namespace Operator

def name : Operator → String
  | conv => "Conv"
  | convInteger => "ConvInteger"

def ofName? (text : String) : Option Operator :=
  [conv, convInteger].find? (·.name == text)

theorem ofName?_name (o : Operator) : ofName? o.name = some o := by
  cases o <;> rfl

end Operator

structure Node where
  operator : Operator
  name : String
  /-- The inputs in order; an omitted optional input is `none`. -/
  inputs : List (Option Tensor)
  outputs : List String
  attributes : Attributes
deriving DecidableEq, Repr

/-- The input at a position, if the node has one there. -/
def Node.input? (n : Node) (index : Nat) : Option Tensor :=
  (n.inputs[index]?).join

end Stencil
