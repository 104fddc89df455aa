import Stencil.Options
import Stencil.Quantization

/-!
# Routines

A resolved node: the tensors it works on, its geometry and its arithmetic. The number
of inputs and outputs is checked before the geometry, and element types after it.
-/

namespace Stencil

/-- The value subtracted from every data element: that of a tensor, or a constant. -/
inductive ZeroPoint where
  | tensor (t : Tensor)
  | literal (value : Int32)
deriving DecidableEq, Repr

/-- The arithmetic of a convolution on its element types. -/
inductive Arithmetic where
  | float (bias : Option Tensor)
  | integer (zero : ZeroPoint) (divisor : Option Int32)
deriving DecidableEq, Repr

structure Routine where
  name : String
  data : Tensor
  weights : Tensor
  convolution : Convolution
  arithmetic : Arithmetic
  output : Tensor
deriving DecidableEq, Repr

namespace Node

/-! ## Resolution -/

def checkInputCount (n : Node) (least most : Nat) : Resolved Unit :=
  if least ≤ n.inputs.length ∧ n.inputs.length ≤ most then .ok ()
  else .error (.invalidInputCount least most n.inputs.length)

def singleOutput (n : Node) : Resolved String :=
  match n.outputs with
  | [name] => .ok name
  | names => .error (.invalidOutputCount names.length)

/-- Check the element type of an input; the label names the input and the type. -/
def checkType (accepts : ElementType → Bool) (label : String) (t : Tensor) : Resolved Unit :=
  if accepts t.type then .ok () else .error (.typeMismatch label t.type)

def checkBias (channels : Nat) : Option Tensor → Resolved Unit
  | none => .ok ()
  | some bias =>
    if bias.size = channels then .ok ()
    else .error (.invalidShape (.biasSize bias.size channels))

/-- Resolve the node as a floating-point convolution. -/
def floatRoutine (n : Node) : Resolved Routine := do
  n.checkInputCount 2 3
  let output ← n.singleOutput
  let convolution ← n.convolution
  let data ← n.mandatory .data
  let weights ← n.mandatory .weights
  checkType (· = .float32) "X: float32" data
  checkType (· = .float32) "W: float32" weights
  let bias := n.input? 2
  checkBias convolution.channelsOut bias
  return {
    name := n.name, data, weights, convolution
    arithmetic := .float bias
    output := ⟨output, .float32, convolution.outputShape⟩ }

/-- The zero point of the data; one of the weights is refused. -/
def zeroPoint (n : Node) : Resolved ZeroPoint :=
  match n.input? 3, n.input? 2 with
  | some _, _ => .error .unsupportedWeightZeroPoint
  | none, some t => .ok (.tensor t)
  | none, none => .ok (.literal 0)

/-- Resolve the node as an integer convolution, with 8-bit outputs when quantizing. -/
def integerRoutine (n : Node) (quantize : Bool) : Resolved Routine := do
  n.checkInputCount 2 4
  let output ← n.singleOutput
  let convolution ← n.convolution
  let zero ← n.zeroPoint
  let data ← n.mandatory .data
  let weights ← n.mandatory .weights
  checkType (·.isInt) "x: integer" data
  checkType (·.isInt) "w: integer" weights
  let divisor ← convolution.divisor? quantize
  let type := if quantize then .int8 else .int32
  return {
    name := n.name, data, weights, convolution
    arithmetic := .integer zero divisor
    output := ⟨output, type, convolution.outputShape⟩ }

def resolve (n : Node) (options : Options) : Resolved Routine :=
  match n.operator with
  | .conv => n.floatRoutine
  | .convInteger => n.integerRoutine options.quantize

end Node

end Stencil
