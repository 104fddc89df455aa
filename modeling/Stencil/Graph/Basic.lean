import Stencil.Registry
import Stencil.Routine.Body

/-!
# Graphs

A model is built step by step: its tensors are registered, its nodes resolved in
order, its outputs marked, and the names of the node functions compared with those of
the tensors. The first step that fails ends it.
-/

namespace Stencil

inductive BuildStep where
  | register (t : Tensor) (role : Role)
  | resolve (position : Nat) (node : NodeDescription)
  | markOutput (name : String)
  | checkFunctions
deriving DecidableEq, Repr

/-- The steps that build a model. -/
def Model.steps (m : Model) : List BuildStep :=
  m.inputs.map (.register · .input)
    ++ m.initializers.map (fun i => .register i.tensor (.initializer i.data))
    ++ m.nodes.mapIdx .resolve
    ++ m.outputs.map .markOutput
    ++ [.checkFunctions]

/-- What has been built so far. -/
structure BuildState where
  registry : Registry := {}
  routines : List Routine := []
deriving DecidableEq, Repr

/-- The name of a node, made up for one without. -/
def NodeDescription.fullName (n : NodeDescription) (position : Nat) : String :=
  if n.name.isEmpty then n.operatorName ++ "_" ++ toString position else n.name

namespace BuildState

variable (s : BuildState)

/-- The tensor behind an input name, none for an omitted input. -/
def input (name : String) : Except BuildError (Option Tensor) :=
  if name.isEmpty then .ok none else (s.registry.tensor name).map some

/-- The node that a description stands for. -/
def node (position : Nat) (n : NodeDescription) : Except BuildError Node := do
  let name := n.fullName position
  match Operator.ofName? n.operatorName with
  | none => .error (.unsupportedOperator n.operatorName name)
  | some operator =>
    if s.routines.any fun r => C.identifier r.name = C.identifier name then
      .error (.duplicateNode name)
    else
      let inputs ← n.inputs.mapM s.input
      return { operator, name, inputs, outputs := n.outputs, attributes := n.attributes }

/-- Resolve a node to a routine. -/
def routine (options : Options) (position : Nat) (n : NodeDescription) :
    Except BuildError Routine := do
  let node ← s.node position n
  (node.resolve options).mapError (.resolve node.name)

/-- Add a routine and register what it produces. -/
def addRoutine (r : Routine) : Except BuildError BuildState := do
  return ⟨← s.registry.register r.output .intermediate, s.routines ++ [r]⟩

/-- A tensor must not have the C name of a node function. -/
def checkFunction (r : Routine) : Except BuildError Unit :=
  match s.registry.getByCName? r.functionName with
  | some t => .error (.nameCollision r.name t.tensor.name r.functionName)
  | none => .ok ()

def apply (options : Options) (s : BuildState) : BuildStep → Except BuildError BuildState
  | .register t role => do return { s with registry := ← s.registry.register t role }
  | .resolve position n => do s.addRoutine (← s.routine options position n)
  | .markOutput name => do return { s with registry := ← s.registry.markOutput name }
  | .checkFunctions => do
    s.routines.forM s.checkFunction
    return s

end BuildState

/-- A resolved graph, ready to be printed. -/
structure Graph where
  registry : Registry
  routines : List Routine
  /-- The names of the input parameters, in the order of the model. -/
  inputs : List String
  /-- The names of the output parameters, in the order of the model. -/
  outputs : List String
deriving DecidableEq, Repr

/-- Build the graph of a model. -/
def Graph.build (m : Model) (options : Options) : Except BuildError Graph := do
  let s ← m.steps.foldlM (BuildState.apply options) {}
  return ⟨s.registry, s.routines, m.inputs.map (·.name), m.outputs⟩

end Stencil
