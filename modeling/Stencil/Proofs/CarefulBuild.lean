import Stencil.Proofs.Building
import Stencil.Proofs.CarefulNode

/-!
# Building without a trap

The indexes of a registry lead to positions, and a lookup takes the tensor at one. Since both
indexes hold exactly the positions of the tensors all along a build, no lookup traps.
-/

namespace Stencil

namespace Careful

open Trap

/-! ## Registries -/

/-- The tensor that an index leads to. -/
def find (tensors : List RegisteredTensor) (entries : Association Nat) (key : String) :
    Except Trap (Option RegisteredTensor) := do
  match entries.find? key with
  | some i => return some (← elementAt tensors i)
  | none => return none

def get? (r : Registry) (name : String) : Except Trap (Option RegisteredTensor) :=
  find r.tensors r.byName name

def getByCName? (r : Registry) (cName : String) : Except Trap (Option RegisteredTensor) :=
  find r.tensors r.byCName cName

def tensor (r : Registry) (name : String) : Trapping BuildError Tensor := do
  match ← get? r name with
  | some registered => return registered.tensor
  | none => .error (.unknownTensor name)

def checkCName (r : Registry) (cName name : String) : Trapping BuildError Unit := do
  match ← getByCName? r cName with
  | some existing =>
    if existing.tensor.name = name then return ()
    else .error (.nameCollision existing.tensor.name name cName)
  | none => return ()

def register (r : Registry) (t : Tensor) (role : Role) : Trapping BuildError Registry :=
  if (r.byName.find? t.name).isSome then .error (.duplicateTensor t.name)
  else do
    role.check t
    let registered : RegisteredTensor := ⟨t, role⟩
    checkCName r registered.cName t.name
    return r.add registered

/-- The tensor at the position becomes an output, under a C name without a mark. -/
def promote (r : Registry) (name : String) (position : Nat) : Trapping BuildError Registry := do
  let old := (← elementAt r.tensors position).cName
  let new := C.identifier name
  checkCName r new name
  let tensors ← modifyAt r.tensors position fun t => { t with role := .output }
  return { tensors, byName := r.byName, byCName := (r.byCName.erase old).put new position }

def markOutput (r : Registry) (name : String) : Trapping BuildError Registry :=
  match r.byName.find? name with
  | none => .error (.unknownTensor name)
  | some position => do
    match (← elementAt r.tensors position).role with
    | .intermediate => promote r name position
    | .output => .error (.duplicateOutput name)
    | _ => .error (.invalidOutput name)

variable {r : Registry}

theorem find_eq_ok {key : RegisteredTensor → String} {tensors : List RegisteredTensor}
    {entries : Association Nat} (h : Indexes key tensors entries) (name : String) :
    find tensors entries name = .ok ((entries.find? name).bind (tensors[·]?)) := by
  unfold find
  cases hfind : entries.find? name with
  | none => rfl
  | some i =>
    obtain ⟨t, ht, -⟩ := Option.map_eq_some_iff.1 ((h name i).1 hfind)
    simp only [elementAt_eq_ok.2 ht, Except.ok_bind, Option.bind_some, ht]
    rfl

theorem get?_eq_ok (h : r.Indexed) (name : String) : get? r name = .ok (r.get? name) :=
  find_eq_ok h.byName name

theorem getByCName?_eq_ok (h : r.Indexed) (cName : String) :
    getByCName? r cName = .ok (r.getByCName? cName) :=
  find_eq_ok h.byCName cName

theorem tensor_performs (h : r.Indexed) (name : String) : Performs (tensor r name) (r.tensor name) := by
  refine Performs.step (get?_eq_ok h name) ?_
  unfold Registry.tensor
  cases r.get? name with
  | some registered => exact .ok _
  | none => exact .error _

theorem checkCName_performs (h : r.Indexed) (cName name : String) :
    Performs (checkCName r cName name) (r.checkCName cName name) := by
  refine Performs.step (getByCName?_eq_ok h cName) ?_
  unfold Registry.checkCName
  cases r.getByCName? cName with
  | none => exact .ok _
  | some existing =>
    dsimp only
    split
    next => exact .ok _
    next => exact .error _

theorem register_performs (h : r.Indexed) (t : Tensor) (role : Role) :
    Performs (register r t role) (r.register t role) := by
  unfold register Registry.register
  split
  next => exact .error _
  next =>
    refine (Performs.lift _).bind fun _ _ => ?_
    refine (checkCName_performs h _ _).bind fun _ _ => ?_
    exact .ok _

theorem markOutput_performs (h : r.Indexed) (name : String) :
    Performs (markOutput r name) (r.markOutput name) := by
  unfold markOutput Registry.markOutput Registry.intermediatePosition
  cases hfind : r.byName.find? name with
  | none => exact .error _
  | some position =>
    obtain ⟨t, ht, hname⟩ := Option.map_eq_some_iff.1 ((h.byName name position).1 hfind)
    refine Performs.step (elementAt_eq_ok.2 ht) ?_
    simp only [ht, Option.map_some]
    cases hrole : t.role with
    | input => exact .error _
    | initializer data => exact .error _
    | output => exact .error _
    | intermediate =>
      refine Performs.step (elementAt_eq_ok.2 ht) ?_
      refine (checkCName_performs h _ _).bind fun _ _ => ?_
      refine Performs.step (modifyAt_eq_ok (List.getElem?_eq_some_iff.1 ht).1 _) ?_
      have hold : t.cName = "tensor_" ++ C.identifier name := by rw [RegisteredTensor.cName, hrole, hname]
      rw [hold]
      exact .ok _

/-! ## Steps of a build -/

section

variable (s : BuildState)

def input (name : String) : Trapping BuildError (Option Tensor) :=
  if name.isEmpty then return none else some <$> tensor s.registry name

def node (position : Nat) (n : NodeDescription) : Trapping BuildError Node :=
  let name := n.fullName position
  match Operator.ofName? n.operatorName with
  | none => .error (.unsupportedOperator n.operatorName name)
  | some operator =>
    if s.routines.any fun r => C.identifier r.name = C.identifier name then
      .error (.duplicateNode name)
    else do
      let inputs ← n.inputs.mapM (input s)
      return { operator, name, inputs, outputs := n.outputs, attributes := n.attributes }

def routine (options : Options) (position : Nat) (n : NodeDescription) : Trapping BuildError Routine := do
  let node ← node s position n
  (resolve node options).mapError (.resolve node.name)

def addRoutine (r : Routine) : Trapping BuildError BuildState := do
  return ⟨← register s.registry r.output .intermediate, s.routines ++ [r]⟩

def checkFunction (r : Routine) : Trapping BuildError Unit := do
  match ← getByCName? s.registry r.functionName with
  | some t => .error (.nameCollision r.name t.tensor.name r.functionName)
  | none => return ()

end

def apply (options : Options) (s : BuildState) : BuildStep → Trapping BuildError BuildState
  | .register t role => do return { s with registry := ← register s.registry t role }
  | .resolve position n => do addRoutine s (← routine s options position n)
  | .markOutput name => do return { s with registry := ← markOutput s.registry name }
  | .checkFunctions => do
    s.routines.forM (checkFunction s)
    return s

def build (m : Model) (options : Options) : Trapping BuildError Graph := do
  let s ← m.steps.foldlM (apply options) {}
  return ⟨s.registry, s.routines, m.inputs.map (·.name), m.outputs⟩

variable {s : BuildState}

theorem input_performs (h : s.registry.Indexed) (name : String) : Performs (input s name) (s.input name) := by
  unfold input BuildState.input
  split
  next => exact .ok _
  next => exact (tensor_performs h name).map some

theorem node_performs (h : s.registry.Indexed) (position : Nat) (n : NodeDescription) :
    Performs (node s position n) (s.node position n) := by
  unfold node BuildState.node
  dsimp only
  cases Operator.ofName? n.operatorName with
  | none => exact .error _
  | some operator =>
    dsimp only
    split
    next => exact .error _
    next => exact (Performs.mapM fun name _ => input_performs h name).bind fun _ _ => .ok _

theorem routine_performs (h : s.registry.Indexed) (options : Options) (position : Nat) (n : NodeDescription) :
    Performs (routine s options position n) (s.routine options position n) :=
  (node_performs h position n).bind fun node _ => (resolve_performs node options).mapError _

theorem checkFunction_performs (h : s.registry.Indexed) (r : Routine) :
    Performs (checkFunction s r) (s.checkFunction r) := by
  refine Performs.step (getByCName?_eq_ok h _) ?_
  unfold BuildState.checkFunction
  cases s.registry.getByCName? r.functionName with
  | none => exact .ok _
  | some t => exact .error _

theorem apply_performs (h : s.registry.Indexed) (options : Options) (step : BuildStep) :
    Performs (apply options s step) (s.apply options step) := by
  cases step with
  | register t role => exact (register_performs h t role).bind fun _ _ => .ok _
  | resolve position n =>
    refine (routine_performs h options position n).bind fun r _ => ?_
    exact (register_performs h r.output .intermediate).bind fun _ _ => .ok _
  | markOutput name => exact (markOutput_performs h name).bind fun _ _ => .ok _
  | checkFunctions =>
    exact (Performs.forM fun r _ => checkFunction_performs h r).bind fun _ _ => .ok _

/-- The registry has its indexes before every step, for the empty one has, and each step keeps them. -/
theorem build_performs (m : Model) (options : Options) : Performs (build m options) (Graph.build m options) := by
  have hsteps : Performs (m.steps.foldlM (apply options) {}) (m.steps.foldlM (BuildState.apply options) {}) :=
    Performs.foldlM (fun s => s.registry.Indexed)
      (fun s hs step _ => ⟨apply_performs hs options step, fun s' => BuildState.indexed_apply hs⟩) Registry.Indexed.empty
  exact hsteps.bind fun s _ => .ok _

end Careful

end Stencil
