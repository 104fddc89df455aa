import Stencil.C.Expr
import Stencil.Model

/-!
# C initializers

The values of a constant array, as literals in braces that follow its dimensions.
-/

namespace Stencil.C

/-- The literals of an array of the given type. -/
def literals (type : ElementType) (data : TensorData) : List String :=
  match type, data with
  | .float32, .ints values => values.map fun v => floatLiteral (.ofInt v)
  | .float32, .floats values => values.map floatLiteral
  | _, .ints values => values.map toString
  | _, .floats values => values.map (·.renderPlain)

/-- At most `count` pieces of the given size, the last one possibly shorter. -/
def takeChunks {α : Type} (size : Nat) : Nat → List α → List (List α)
  | 0, _ => []
  | _ + 1, [] => []
  | count + 1, values => values.take size :: takeChunks size count (values.drop size)

/-- Cut a list into pieces of a positive size. -/
def chunks {α : Type} (size : Nat) (values : List α) : List (List α) :=
  takeChunks size values.length values

/-- The values in nested braces, one level per dimension. -/
def nestedInitializer : List Nat → List String → String
  | [], values => values.headD "0"
  | _ :: inner, values =>
    let stride := max 1 (inner.foldr (· * ·) 1)
    "\x7b" ++ commaSeparated ((chunks stride values).map (nestedInitializer inner)) ++ "\x7d"

end Stencil.C
