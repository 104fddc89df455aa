import Stencil.C.Expr
import Stencil.C.Identifier
import Stencil.C.Nest
import Stencil.Routine

/-!
# Bodies of routines

The C function of a routine: its parameters under their local names, and a loop nest
whose phases compute an output cell.
-/

namespace Stencil

/-- A tensor under the name that a function body uses for it. -/
structure Binding where
  localName : String
  tensor : Tensor
  writable : Bool
deriving DecidableEq, Repr

/-- The declaration of the parameter; what is not written is constant. -/
def Binding.parameter (b : Binding) : String :=
  (if b.writable then "" else "const ")
    ++ C.declaration b.tensor.type b.localName b.tensor.shape

namespace Arithmetic

def operator : Arithmetic → Operator
  | float _ => .conv
  | integer _ _ => .convInteger

/-- The optional third input. -/
def binding? : Arithmetic → Option Binding
  | float none => none
  | float (some bias) => some ⟨"bias", bias, false⟩
  | integer (.tensor t) _ => some ⟨"x_zero_point", t, false⟩
  | integer (.literal _) _ => none

/-! ## Phases of an output cell -/

open C

/-- The data element at the current kernel position. -/
def dataCell : C.Place := .element "x" ["b", "c", "ii0", "ii1"]

/-- The weight at the current kernel position. -/
def weightCell : C.Place := .element "w" ["m", "c", "k0", "k1"]

/-- The current output element. -/
def outputCell : C.Place := .element "y" ["b", "m", "o0", "o1"]

/-- The local sum of a quantized cell. -/
def sumCell : C.Place := ⟨"cell", []⟩

def zeroExpr : ZeroPoint → Expr
  | .tensor _ => .cast .int32 (.read ⟨"x_zero_point", [.number 0]⟩)
  | .literal value => .int value.toInt

/-- Where an integer convolution sums its products. -/
def target : Option Int32 → C.Place
  | some _ => sumCell
  | none => outputCell

def before : Arithmetic → List Stmt
  | float (some _) => [.assign outputCell (.read (.element "bias" ["m"]))]
  | float none => [.assign outputCell (.float (.ofInt 0))]
  | integer _ (some _) => [.declare .int32 sumCell.name (.int 0)]
  | integer _ none => [.assign outputCell (.int 0)]

def each : Arithmetic → List Stmt
  | float _ => [.addTo outputCell (.operate .mul (.read dataCell) (.read weightCell))]
  | integer zero divisor =>
    [.addTo (target divisor)
      (.operate .mul
        (.operate .sub (.cast .int32 (.read dataCell)) (zeroExpr zero))
        (.cast .int32 (.read weightCell)))]

def after : Arithmetic → List Stmt
  | integer _ (some divisor) =>
    let tmp : C.Place := ⟨"tmp", []⟩
    let limit := quantizationLimit.toInt
    [.declare .int32 tmp.name (.operate .div (.read sumCell) (.int divisor.toInt)),
     .assign tmp (.choose .greater (.read tmp) (.int limit) (.int limit) (.read tmp)),
     .assign tmp (.choose .less (.read tmp) (.int (-limit)) (.int (-limit)) (.read tmp)),
     .assign outputCell (.cast .int8 (.read tmp))]
  | _ => []

end Arithmetic

namespace C

/-- Print statements, one to a line. -/
def printStmts (stmts : List Stmt) (out : Listing) : Listing :=
  stmts.foldl (fun out s => out.line s.render) out

/-- The comment that describes a resolved convolution. -/
def headerComment (operator : Operator) (name : String) (c : Convolution) : List String :=
  ["/* " ++ operator.name,
   " * name: " ++ name,
   " * auto_pad: " ++ c.autoPad.name,
   " * kernel_shape: " ++ showSizes c.kernelShape.toList,
   " * strides: " ++ showSizes c.strides.toList,
   " * dilations: " ++ showSizes c.dilations.toList,
   " * pads: " ++ showSizes c.pads.toList,
   " * group: " ++ toString c.group,
   " */"]

def printHeaderComment (operator : Operator) (name : String) (c : Convolution) (out : Listing) :
    Listing :=
  (headerComment operator name c).foldl (fun out text => out.line text) out

end C

namespace Routine

def operator (r : Routine) : Operator := r.arithmetic.operator

/-- The tensors that the body refers to: inputs first, the output last. -/
def bindings (r : Routine) : List Binding :=
  [⟨"x", r.data, false⟩, ⟨"w", r.weights, false⟩] ++ r.arithmetic.binding?.toList
    ++ [⟨"y", r.output, true⟩]

/-- The loops of the body around its statements. -/
def nest (r : Routine) : C.Nest (List C.Stmt) :=
  .ofConvolution r.convolution r.arithmetic.before r.arithmetic.each r.arithmetic.after

/-- Print the body: a comment and the loop nest. -/
def print (r : Routine) (out : C.Listing) : C.Listing :=
  out |> C.printHeaderComment r.operator r.name r.convolution |> r.nest.print C.printStmts

/-- The name of the C function. -/
def functionName (r : Routine) : String := "node_" ++ C.identifier r.name

end Routine

end Stencil
