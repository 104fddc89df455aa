import Stencil.Padding

/-!
# Convolutions

The geometry of a convolution, resolved from a node in two halves: what the node
requests by its attributes and shapes, and the padding and fit of that request. The
checks have a fixed order, so the reported fault does not depend on the order of the
attributes.
-/

namespace Stencil

/-- The resolved geometry of a convolution over images. -/
structure Convolution where
  batch : Nat
  channelsIn : Nat
  channelsOut : Nat
  windows : Spatial Window
  group : Nat
  autoPad : AutoPad
deriving DecidableEq, Repr

namespace Convolution

variable (c : Convolution)

def inputSizes : Spatial Nat := c.windows.map (·.input)

def kernelShape : Spatial Nat := c.windows.map (·.kernel)

def strides : Spatial Nat := c.windows.map (·.stride)

def dilations : Spatial Nat := c.windows.map (·.dilation)

def pads : Pads := ⟨c.windows.map (·.padBegin), c.windows.map (·.padEnd)⟩

/-- The number of kernel positions per input channel. -/
def kernelArea : Nat := c.windows.height.kernel * c.windows.width.kernel

def outputSizes : Spatial Nat := c.windows.map (·.size)

def outputShape : List Nat :=
  [c.batch, c.channelsOut, c.outputSizes.height, c.outputSizes.width]

/-- The number of data values, one per image, channel and position. -/
def dataSize : Nat :=
  c.batch * c.channelsIn * c.windows.height.input * c.windows.width.input

def weightsSize : Nat :=
  c.channelsOut * c.channelsIn * c.windows.height.kernel * c.windows.width.kernel

end Convolution

/-- The attributes of a convolution as they are written on a node. -/
structure ConvAttributes where
  kernelShape : Option (List Int) := none
  strides : Option (List Int) := none
  dilations : Option (List Int) := none
  pads : Option (List Int) := none
  autoPad : AutoPad := .notSet
  group : Int := 1
deriving DecidableEq, Repr

namespace ConvAttributes

def expectInts (name : String) (value : AttributeValue) : Resolved (List Int) :=
  match value.ints? with
  | some values => .ok values
  | none => .error (.invalidAttribute name (.wrongKind .ints value))

def expectInt (name : String) (value : AttributeValue) : Resolved Int :=
  match value.int? with
  | some value => .ok value
  | none => .error (.invalidAttribute name (.wrongKind .int value))

def expectText (name : String) (value : AttributeValue) : Resolved String :=
  match value.text? with
  | some text => .ok text
  | none => .error (.invalidAttribute name (.wrongKind .text value))

/-- Take one more attribute of a node into account. -/
def read (operator : Operator) (attributes : ConvAttributes) (entry : String × AttributeValue) :
    Resolved ConvAttributes := do
  let (name, value) := entry
  match name with
  | "kernel_shape" => return { attributes with kernelShape := some (← expectInts name value) }
  | "strides" => return { attributes with strides := some (← expectInts name value) }
  | "dilations" => return { attributes with dilations := some (← expectInts name value) }
  | "pads" => return { attributes with pads := some (← expectInts name value) }
  | "group" => return { attributes with group := ← expectInt name value }
  | "auto_pad" =>
    let text ← expectText name value
    match AutoPad.ofName? text with
    | some policy => return { attributes with autoPad := policy }
    | none => .error (.invalidAttribute name (.unknownPolicy text))
  | _ => .error (.invalidAttribute name (.unexpected operator name))

def ofEntries (operator : Operator) (entries : Attributes) : Resolved ConvAttributes :=
  entries.foldlM (read operator) {}

end ConvAttributes

/-- Two positive values, one for each spatial axis. -/
def positivePair (name : String) (values : List Int) : Resolved (Spatial Nat) :=
  match values with
  | [height, width] =>
    if 0 < height ∧ 0 < width then .ok ⟨height.toNat, width.toNat⟩
    else .error (.invalidAttribute name (.notTwoPositive values))
  | _ => .error (.invalidAttribute name (.notTwoPositive values))

/-- The strides of a node, one on each axis by default. -/
def resolveStrides : Option (List Int) → Resolved (Spatial Nat)
  | none => .ok ⟨1, 1⟩
  | some values => positivePair "strides" values

/-- Dilations may be given as long as they change nothing. -/
def checkDilations : Option (List Int) → Resolved Unit
  | none => .ok ()
  | some values =>
    if values.length ≠ 2 then .error (.invalidAttribute "dilations" (.notTwo values))
    else if values.any (· ≠ 1) then .error (.unsupportedDilation values)
    else .ok ()

/-- The kernel shape is that of the weights, whether or not it is given as well. -/
def resolveKernel (weights : Spatial Nat) : Option (List Int) → Resolved (Spatial Nat)
  | none => .ok weights
  | some values => do
    let kernel ← positivePair "kernel_shape" values
    if kernel = weights then return kernel
    else .error (.invalidAttribute "kernel_shape" (.notTheWeights kernel.toList weights.toList))

/-- What a node asks for, before padding. -/
structure ConvRequest where
  batch : Nat
  channelsIn : Nat
  channelsOut : Nat
  /-- The input channels that the weights expect. -/
  weightsChannels : Nat
  axes : Spatial Axis
  pads : Option (List Int)
  autoPad : AutoPad
  group : Int
deriving DecidableEq, Repr

namespace ConvRequest

/-- The kernel fits in the padded data on both axes. -/
def fits (windows : Spatial Window) : Bool :=
  windows.height.size?.isSome && windows.width.size?.isSome

/-- Resolve the padding of a request and check what depends on it. -/
def resolve (r : ConvRequest) : Resolved Convolution := do
  let pads ← Pads.resolve r.autoPad r.pads r.axes
  let windows := pads.windows r.axes
  if r.group ≠ 1 then
    .error (.unsupportedGrouping r.group)
  else if r.weightsChannels ≠ r.channelsIn then
    .error (.invalidShape (.channels r.weightsChannels r.channelsIn))
  else if fits windows then
    return ⟨r.batch, r.channelsIn, r.channelsOut, windows, 1, r.autoPad⟩
  else
    .error (.invalidShape (.doesNotFit (r.axes.map (·.kernel)).toList
      (r.axes.map (·.input)).toList pads.toList))

end ConvRequest

namespace Node

/-- The tensor of an input that a convolution cannot do without. -/
def mandatory (n : Node) (input : MandatoryInput) : Resolved Tensor :=
  match n.input? input.index with
  | some tensor => .ok tensor
  | none => .error (.missingInput input)

/-- Read the request of a convolution node off its tensors and attributes. -/
def convRequest (n : Node) : Resolved ConvRequest := do
  let data ← n.mandatory .data
  let weights ← n.mandatory .weights
  match data.shape with
  | [batch, channelsIn, height, width] =>
    let attributes ← ConvAttributes.ofEntries n.operator n.attributes
    let strides ← resolveStrides attributes.strides
    checkDilations attributes.dilations
    match weights.shape with
    | [channelsOut, weightsChannels, kernelHeight, kernelWidth] =>
      if kernelHeight = 0 ∨ kernelWidth = 0 then
        .error (.invalidShape (.emptyKernel weights.shape))
      else
        let kernel ← resolveKernel ⟨kernelHeight, kernelWidth⟩ attributes.kernelShape
        return {
          batch, channelsIn, channelsOut, weightsChannels
          axes := ⟨⟨height, kernel.height, strides.height, 1⟩, ⟨width, kernel.width, strides.width, 1⟩⟩
          pads := attributes.pads
          autoPad := attributes.autoPad
          group := attributes.group }
    | _ => .error (.invalidShape (.weightsRank weights.shape))
  | _ => .error (.unsupportedRank data.rank)

/-- The geometry of a convolution node of either operator. -/
def convolution (n : Node) : Resolved Convolution := do
  (← n.convRequest).resolve

end Node

end Stencil
