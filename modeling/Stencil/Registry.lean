import Stencil.BuildError
import Stencil.C.Identifier
import Stencil.Model

/-!
# The tensor registry

Every tensor of a graph is registered once. Names are unique twice over: as the model
gives them, and as the C identifiers they become. Two indexes find a tensor by either
name; the identifier of an intermediate tensor changes when it becomes an output.
-/

namespace Stencil

/-- Where a tensor comes from and where it lives in the emitted code. -/
inductive Role where
  /-- A parameter that the emitted code only reads. -/
  | input
  /-- A constant array. -/
  | initializer (data : TensorData)
  /-- An array that one node writes and later ones read. -/
  | intermediate
  /-- A parameter that a node writes. -/
  | output
deriving DecidableEq, Repr

def Role.name : Role → String
  | input => "input"
  | initializer _ => "initializer"
  | intermediate => "intermediate"
  | output => "output"

structure RegisteredTensor where
  tensor : Tensor
  role : Role
deriving DecidableEq, Repr

/-- The C name: parameters keep their identifier, arrays of the file get a mark in
front of it. -/
def RegisteredTensor.cName (t : RegisteredTensor) : String :=
  match t.role with
  | .input | .output => C.identifier t.tensor.name
  | .initializer _ | .intermediate => "tensor_" ++ C.identifier t.tensor.name

/-- The tensors in the order of their registration, with their indexes. -/
structure Registry where
  tensors : List RegisteredTensor := []
  byName : Association Nat := []
  byCName : Association Nat := []
deriving DecidableEq, Repr

/-! ## Values of initializers -/

/-- Whether the values fit the shape and the element type of a tensor. -/
def checkInitializer (t : Tensor) (data : TensorData) : Except InitializerFault Unit :=
  if data.length ≠ t.size then .error (.wrongCount data.length t.shape)
  else match data, t.type.range? with
    | .ints values, some (least, greatest) =>
      match values.find? fun v => v < least || greatest < v with
      | some value => .error (.outOfRange value t.type)
      | none => .ok ()
    | .floats _, some _ => .error (.floatValues t.type)
    | .floats values, none =>
      match values.find? fun v => !v.isFinite with
      | some value => .error (.notFinite value)
      | none => .ok ()
    | .ints _, none => .ok ()

def Role.check (role : Role) (t : Tensor) : Except BuildError Unit :=
  match role with
  | .initializer data => (checkInitializer t data).mapError (.invalidInitializer t.name)
  | _ => .ok ()

namespace Registry

variable (r : Registry)

def empty : Registry := {}

/-! ## Looking up -/

def get? (name : String) : Option RegisteredTensor :=
  (r.byName.find? name).bind (r.tensors[·]?)

def getByCName? (cName : String) : Option RegisteredTensor :=
  (r.byCName.find? cName).bind (r.tensors[·]?)

/-- The tensor of a name that must be known. -/
def tensor (name : String) : Except BuildError Tensor :=
  match r.get? name with
  | some registered => .ok registered.tensor
  | none => .error (.unknownTensor name)

/-- Refuse a C name that belongs to a tensor of another name. -/
def checkCName (cName name : String) : Except BuildError Unit :=
  match r.getByCName? cName with
  | some existing =>
    if existing.tensor.name = name then .ok ()
    else .error (.nameCollision existing.tensor.name name cName)
  | none => .ok ()

def size : Nat := r.tensors.length

def isEmpty : Bool := r.tensors.isEmpty

def inputs : List RegisteredTensor := r.tensors.filter (·.role = .input)

def outputs : List RegisteredTensor := r.tensors.filter (·.role = .output)

def intermediates : List RegisteredTensor := r.tensors.filter (·.role = .intermediate)

def initializers : List (Tensor × TensorData) :=
  r.tensors.filterMap fun t => match t.role with
    | .initializer data => some (t.tensor, data)
    | _ => none

/-! ## Growing -/

/-- Register a tensor whose name, values and C name have been checked. -/
def add (t : RegisteredTensor) : Registry where
  tensors := r.tensors ++ [t]
  byName := r.byName.put t.tensor.name r.size
  byCName := r.byCName.put t.cName r.size

/-- Register a tensor under its name. -/
def register (t : Tensor) (role : Role) : Except BuildError Registry := do
  if (r.byName.find? t.name).isSome then
    .error (.duplicateTensor t.name)
  else
    role.check t
    let registered : RegisteredTensor := ⟨t, role⟩
    r.checkCName registered.cName t.name
    return r.add registered

/-- The position of the intermediate tensor of a name. -/
def intermediatePosition (name : String) : Except BuildError Nat :=
  match r.byName.find? name with
  | none => .error (.unknownTensor name)
  | some position =>
    match (r.tensors[position]?).map RegisteredTensor.role with
    | some .intermediate => .ok position
    | some .output => .error (.duplicateOutput name)
    | some _ => .error (.invalidOutput name)
    | none => .error (.unknownTensor name)

/-- Give the tensor at a position its place among the parameters. -/
def promote (name : String) (position : Nat) : Registry where
  tensors := r.tensors.modify position fun t => { t with role := .output }
  byName := r.byName
  byCName := (r.byCName.erase ("tensor_" ++ C.identifier name)).put (C.identifier name) position

/-- Make an intermediate tensor an output of the graph. -/
def markOutput (name : String) : Except BuildError Registry := do
  let position ← r.intermediatePosition name
  r.checkCName (C.identifier name) name
  return r.promote name position

end Registry

end Stencil
