import Stencil.Graph.Source

/-!
# The journal

What is reported while a graph is built and a file is written. The events of an
operation follow from its arguments, up to where it fails.
-/

namespace Stencil

inductive Level where
  | debug
  | info
  | warn
  | error
deriving DecidableEq, Repr

def Level.name : Level → String
  | debug => "DEBUG"
  | info => "INFO"
  | warn => "WARN"
  | error => "ERROR"

inductive Event where
  | padsIgnored (policy : AutoPad)
  | resolvedGeometry (operator : Operator) (name : String) (c : Convolution)
  | registering (t : RegisteredTensor)
  | resolvedNode (r : Routine)
  | generated (functions : Nat)
  | readingModel (path : String)
  | readingOptions (path : String)
  | usingOptions (options : Options)
  | writingGraph (path : String)
  | writingSource (path : String)
deriving DecidableEq, Repr

namespace Event

def level : Event → Level
  | padsIgnored _ => .warn
  | resolvedNode _ | readingModel _ | writingSource _ => .info
  | _ => .debug

def typeAndShape (t : Tensor) : String := t.type.name ++ " " ++ showSizes t.shape

def message : Event → String
  | padsIgnored policy =>
    "Both 'auto_pad' (" ++ policy.name ++ ") and 'pads' are set, 'pads' is ignored"
  | resolvedGeometry operator name c =>
    operator.name ++ " '" ++ name ++ "': kernel " ++ showSizes c.kernelShape.toList
      ++ ", strides " ++ showSizes c.strides.toList ++ ", pads " ++ showSizes c.pads.toList
      ++ ", output " ++ showSizes c.outputShape
  | registering t =>
    "Registering " ++ t.role.name ++ " tensor '" ++ t.tensor.name ++ "' as " ++ t.cName ++ ": "
      ++ typeAndShape t.tensor
  | resolvedNode r =>
    "Resolved " ++ r.operator.name ++ " node '" ++ r.name ++ "' -> " ++ typeAndShape r.output
  | generated functions => "Generated " ++ toString functions ++ " node functions"
  | readingModel path => "Generating C code from " ++ path
  | readingOptions path => "Loading compile options from " ++ path
  | usingOptions options => "Compile options: " ++ options.describe
  | writingGraph path => "Writing debug graph file: " ++ path
  | writingSource path => "Writing source code to " ++ path

def render (e : Event) : String := e.level.name ++ " " ++ e.message

end Event

/-- The events of padding, which come before any check of the pads. -/
def Pads.events (policy : AutoPad) (values : Option (List Int)) : List Event :=
  if Pads.ignores policy values then [.padsIgnored policy] else []

/-- The events of resolving the geometry of a node. -/
def Node.convolutionEvents (n : Node) : List Event :=
  match n.convRequest with
  | .error _ => []
  | .ok request =>
    Pads.events request.autoPad request.pads ++
      match request.resolve with
      | .error _ => []
      | .ok c => [.resolvedGeometry n.operator n.name c]

/-- The events of resolving a node; its geometry comes after its counts. -/
def Node.resolveEvents (n : Node) (operator : Operator) : List Event :=
  let most := match operator with
    | .conv => 3
    | .convInteger => 4
  match n.checkInputCount 2 most, n.singleOutput with
  | .ok _, .ok _ => n.convolutionEvents
  | _, _ => []

def Registry.registerEvents (r : Registry) (t : Tensor) (role : Role) : List Event :=
  match r.register t role with
  | .ok _ => [.registering ⟨t, role⟩]
  | .error _ => []

namespace BuildState

def resolveEvents (options : Options) (s : BuildState) (position : Nat) (n : NodeDescription) :
    List Event :=
  match s.node position n with
  | .error _ => []
  | .ok node =>
    node.resolveEvents node.operator ++
      match node.resolve options with
      | .error _ => []
      | .ok r => .resolvedNode r :: s.registry.registerEvents r.output .intermediate

/-- The events of one step of building. -/
def stepEvents (options : Options) (s : BuildState) : BuildStep → List Event
  | .register t role => s.registry.registerEvents t role
  | .resolve position n => s.resolveEvents options position n
  | .markOutput _ | .checkFunctions => []

/-- The events of a list of steps, up to the one that fails. -/
def events (options : Options) (s : BuildState) : List BuildStep → List Event
  | [] => []
  | step :: steps =>
    s.stepEvents options step ++
      match s.apply options step with
      | .ok next => next.events options steps
      | .error _ => []

end BuildState

/-- The events of building a model. -/
def Graph.buildEvents (m : Model) (options : Options) : List Event :=
  BuildState.events options {} m.steps

/-- The events of printing a graph. -/
def Graph.sourceEvents (g : Graph) : List Event := [.generated g.routines.length]

end Stencil
