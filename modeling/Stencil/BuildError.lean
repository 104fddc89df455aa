import Stencil.ResolveError

/-!
# Why a graph cannot be built
-/

namespace Stencil

/-- What is wrong with the values of an initializer. -/
inductive InitializerFault where
  | wrongCount (count : Nat) (shape : List Nat)
  | outOfRange (value : Int) (type : ElementType)
  | floatValues (type : ElementType)
  | notFinite (value : Single)
deriving DecidableEq, Repr

def InitializerFault.message : InitializerFault → String
  | wrongCount count shape => toString count ++ " values for shape " ++ showSizes shape
  | outOfRange value type => toString value ++ " is out of range for " ++ type.name
  | floatValues type => "floating point values for " ++ type.name ++ " tensor"
  | notFinite value => value.render .literal ++ " has no C literal"

inductive BuildError where
  | resolve (node : String) (reason : ResolveError)
  | unsupportedOperator (operator node : String)
  | unknownTensor (name : String)
  | invalidOutput (name : String)
  | duplicateNode (name : String)
  | duplicateTensor (name : String)
  | nameCollision (first second identifier : String)
  | duplicateOutput (name : String)
  | invalidInitializer (name : String) (reason : InitializerFault)
deriving DecidableEq, Repr

def BuildError.message : BuildError → String
  | resolve node reason => "failed to resolve node '" ++ node ++ "': " ++ reason.message
  | unsupportedOperator operator node =>
    "unsupported operator '" ++ operator ++ "' (node '" ++ node ++ "')"
  | unknownTensor name => "unknown tensor '" ++ name ++ "'"
  | invalidOutput name => "graph output '" ++ name ++ "' must be produced by a node"
  | duplicateNode name => "node name '" ++ name ++ "' is used more than once"
  | duplicateTensor name => "tensor '" ++ name ++ "' is defined more than once"
  | nameCollision first second identifier =>
    "'" ++ first ++ "' and '" ++ second ++ "' both map to the C identifier '" ++ identifier ++ "'"
  | duplicateOutput name => "graph output '" ++ name ++ "' is listed more than once"
  | invalidInitializer name reason =>
    "invalid initializer '" ++ name ++ "': " ++ reason.message

end Stencil
