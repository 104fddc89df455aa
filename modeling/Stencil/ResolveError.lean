import Stencil.Node
import Stencil.Number.Fault

/-!
# Why a node cannot be resolved
-/

namespace Stencil

/-- What is wrong with an attribute. -/
inductive AttributeFault where
  | wrongKind (expected : AttributeKind) (actual : AttributeValue)
  | unknownPolicy (text : String)
  | unexpected (operator : Operator) (name : String)
  | notTwoPositive (values : List Int)
  | notTwo (values : List Int)
  | notFour (values : List Int)
  | negative (values : List Int)
  | notTheWeights (kernel weights : List Nat)
deriving DecidableEq, Repr

def AttributeFault.message : AttributeFault → String
  | wrongKind expected actual => "expected " ++ expected.name ++ ", got " ++ actual.describe
  | unknownPolicy text => "Unsupported 'auto_pad' value: " ++ text
  | unexpected operator name => "Unexpected attribute for " ++ operator.name ++ ": " ++ name
  | notTwoPositive values => "expected 2 positive values, got " ++ showInts values
  | notTwo values => "expected 2 values, got " ++ showInts values
  | notFour values => "expected 4 values, got " ++ showInts values
  | negative values => "negative pad values are not supported: " ++ showInts values
  | notTheWeights kernel weights =>
    showSizes kernel ++ " does not match the weights kernel " ++ showSizes weights

/-- What is wrong between shapes. -/
inductive ShapeFault where
  | weightsRank (shape : List Nat)
  | emptyKernel (shape : List Nat)
  | channels (weights data : Nat)
  | doesNotFit (kernel input pads : List Nat)
  | biasSize (values channels : Nat)
  | kernelArea (area : Nat)
  | valueCounts (data weights actualData actualWeights : Nat)
deriving DecidableEq, Repr

def ShapeFault.message : ShapeFault → String
  | weightsRank shape => "weights must be 4D [M, C, kH, kW], got " ++ showSizes shape
  | emptyKernel shape => "empty kernel in weights " ++ showSizes shape
  | channels weights data =>
    "weights expect " ++ toString weights ++ " input channels, data has " ++ toString data
  | doesNotFit kernel input pads =>
    "kernel " ++ showSizes kernel ++ " does not fit in input " ++ showSizes input
      ++ " padded by " ++ showSizes pads
  | biasSize values outputs =>
    "bias has " ++ toString values ++ " values for " ++ toString outputs ++ " output channels"
  | kernelArea area => "kernel area " ++ toString area ++ " is too large to requantize"
  | valueCounts data weights actualData actualWeights =>
    "expected " ++ toString data ++ " data and " ++ toString weights
      ++ " weight values, got " ++ toString actualData ++ " and " ++ toString actualWeights

/-- The inputs that a convolution cannot do without. -/
inductive MandatoryInput where
  | data
  | weights
deriving DecidableEq, Repr

namespace MandatoryInput

def index : MandatoryInput → Nat
  | data => 0
  | weights => 1

def name : MandatoryInput → String
  | data => "X"
  | weights => "W"

end MandatoryInput

inductive ResolveError where
  | unsupportedRank (rank : Nat)
  | unsupportedGrouping (group : Int)
  | unsupportedDilation (dilations : List Int)
  | unsupportedWeightZeroPoint
  | invalidInputCount (least most actual : Nat)
  | invalidOutputCount (actual : Nat)
  | missingInput (input : MandatoryInput)
  | invalidAttribute (name : String) (reason : AttributeFault)
  | typeMismatch (expected : String) (actual : ElementType)
  | invalidShape (reason : ShapeFault)
  /-- A fault that the checks before it leave unreachable. -/
  | fault (f : Fault)
deriving DecidableEq, Repr

def ResolveError.message : ResolveError → String
  | unsupportedRank rank =>
    "unsupported data tensor rank " ++ toString rank ++ ": only 2D images (rank 4) are supported"
  | unsupportedGrouping group =>
    "unsupported group " ++ toString group ++ ": only group 1 is supported"
  | unsupportedDilation dilations =>
    "unsupported dilations " ++ showInts dilations ++ ": only dilation 1 is supported"
  | unsupportedWeightZeroPoint =>
    "unsupported weight zero point: only data zero points are implemented"
  | invalidInputCount least most actual =>
    "expected " ++ toString least ++ "..=" ++ toString most ++ " inputs, got " ++ toString actual
  | invalidOutputCount actual => "expected 1 output, got " ++ toString actual
  | missingInput input =>
    "missing mandatory input " ++ toString input.index ++ " (" ++ input.name ++ ")"
  | invalidAttribute name reason => "invalid attribute '" ++ name ++ "': " ++ reason.message
  | typeMismatch expected actual =>
    "type mismatch: expected " ++ expected ++ ", got " ++ actual.name
  | invalidShape reason => "invalid shape: " ++ reason.message
  | fault f => f.message

/-- Resolving succeeds with a value or fails for a reason. -/
abbrev Resolved (α : Type) : Type := Except ResolveError α

end Stencil
