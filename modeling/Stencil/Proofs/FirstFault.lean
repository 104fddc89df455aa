import Stencil.Proofs.Collisions

/-!
# The first fault of a model

A build meets the nodes of a model in their order, and makes the same demands on each. The first
demand that is not met decides the error: neither the demands behind it nor the later nodes nor the
outputs have a part in it.
-/

namespace Stencil

/-! ## What a build asks of a node -/

inductive Demand where
  | operator
  /-- No earlier node has the name of its function. -/
  | functionName
  /-- The input is left out, or a tensor of that name is known. -/
  | input (name : String)
  | resolution
  /-- No known tensor has the name of its output. -/
  | outputName
  /-- No known tensor has the C name that its output gets. -/
  | outputCName
deriving DecidableEq, Repr

/-- The demands on a node, in the order in which they are made. -/
def NodeDescription.demands (n : NodeDescription) : List Demand :=
  [.operator, .functionName] ++ n.inputs.map .input ++ [.resolution] ++ [.outputName, .outputCName]

namespace BuildState

variable (s : BuildState)

/-- The tensor that an input name stands for. -/
def known? (name : String) : Option Tensor :=
  if name.isEmpty then none else (s.registry.get? name).map RegisteredTensor.tensor

/-- The node that a description stands for, if its operator exists. -/
def described? (position : Nat) (n : NodeDescription) : Option Node :=
  (Operator.ofName? n.operatorName).map fun operator =>
    { operator, name := n.fullName position, inputs := n.inputs.map s.known?
      outputs := n.outputs, attributes := n.attributes }

/-- What is wrong with a node in view of one demand alone. -/
def fault? (options : Options) (position : Nat) (n : NodeDescription) : Demand → Option BuildError
  | .operator =>
    if (Operator.ofName? n.operatorName).isSome then none
    else some (.unsupportedOperator n.operatorName (n.fullName position))
  | .functionName =>
    if C.identifier (n.fullName position) ∈ s.routines.map fun r => C.identifier r.name then
      some (.duplicateNode (n.fullName position))
    else none
  | .input name =>
    if name.isEmpty ∨ (s.registry.get? name).isSome then none else some (.unknownTensor name)
  | .resolution =>
    (s.described? position n).bind fun node =>
      match node.resolve options with
      | .ok _ => none
      | .error reason => some (.resolve (n.fullName position) reason)
  | .outputName =>
    (n.outputs.find? fun name => (s.registry.get? name).isSome).map .duplicateTensor
  | .outputCName =>
    n.outputs.findSome? fun name =>
      (s.registry.getByCName? ("tensor_" ++ C.identifier name)).map fun t =>
        .nameCollision t.tensor.name name ("tensor_" ++ C.identifier name)

/-- A computation makes demands on a node, and its error is the first fault that it finds. -/
abbrev Asks {α : Type} (options : Options) (position : Nat) (n : NodeDescription) (demands : List Demand)
    (x : Except BuildError α) (result : α → Prop) : Prop :=
  x.Judged (s.fault? options position n · = none) (s.fault? options position n · = some ·) demands result

variable {s} {options : Options} {position : Nat} {n : NodeDescription}

/-! ## One demand after another -/

theorem asks_input (name : String) :
    s.Asks options position n [.input name] (s.input name) (· = s.known? name) := by
  unfold input known? Registry.tensor
  by_cases hempty : name.isEmpty
  · rw [if_pos hempty, if_pos hempty]
    exact Except.Judged.cons (if_pos (.inl hempty)) (.ok rfl)
  · rw [if_neg hempty, if_neg hempty]
    cases hget : s.registry.get? name with
    | some t =>
      have hmet : s.fault? options position n (.input name) = none := if_pos (.inr (by simp [hget]))
      exact Except.Judged.cons hmet (.ok rfl)
    | none => exact .fault (if_neg (by simp [hempty, hget]))

theorem asks_node :
    s.Asks options position n ([Demand.operator, .functionName] ++ n.inputs.map Demand.input)
      (s.node position n) (s.described? position n = some ·) := by
  unfold node
  dsimp only
  cases hoperator : Operator.ofName? n.operatorName with
  | none => exact .fault (if_neg (by simp [hoperator]))
  | some operator =>
    have hmet : s.fault? options position n .operator = none := if_pos (by simp [hoperator])
    refine Except.Judged.cons hmet ?_
    dsimp only
    by_cases htaken : C.identifier (n.fullName position) ∈ s.routines.map fun r => C.identifier r.name
    · rw [if_pos (by simpa using htaken)]
      exact .fault (if_pos htaken)
    · have hfresh : s.fault? options position n .functionName = none := if_neg htaken
      rw [if_neg (by simpa using htaken)]
      refine Except.Judged.cons hfresh ?_
      refine (Except.Judged.mapM fun name _ => asks_input name).map fun inputs hinputs => ?_
      rw [described?, hoperator, hinputs, Option.map_some]

/-- Whether a node resolves is asked once its operator and its inputs are known. -/
theorem asks_routine :
    s.Asks options position n ([Demand.operator, .functionName] ++ n.inputs.map Demand.input ++ [Demand.resolution])
      (s.routine options position n) (n.outputs = [·.output.name]) := by
  refine asks_node.bind fun node _ hnode => ?_
  have hnames : node.name = n.fullName position ∧ node.outputs = n.outputs := by
    obtain ⟨operator, -, rfl⟩ := Option.map_eq_some_iff.1 hnode
    exact ⟨rfl, rfl⟩
  cases hresolve : node.resolve options with
  | ok r =>
    have hmet : s.fault? options position n .resolution = none := by simp [fault?, hnode, hresolve]
    refine Except.Judged.cons hmet (.ok ?_)
    rw [← hnames.2, (Node.resolve_eq_ok hresolve).outputs_eq]
  | error reason =>
    rw [hnames.1]
    exact .fault (by simp [fault?, hnode, hresolve])

/-- The name and then the C name of an output are compared with those of the known tensors. -/
theorem asks_addRoutine (h : s.registry.Indexed) {r : Routine} (houtputs : n.outputs = [r.output.name]) :
    s.Asks options position n [.outputName, .outputCName] (s.addRoutine r) fun _ => True := by
  have hknown : (s.registry.get? r.output.name).isSome ↔ (s.registry.byName.find? r.output.name).isSome := by
    rw [Option.isSome_iff_exists, Option.isSome_iff_ne_none, Ne, h.byName.find?_eq_none, not_not, List.mem_map]
    exact exists_congr fun t => h.get?_eq_some
  have hregister : s.Asks options position n [.outputName, .outputCName]
      (s.registry.register r.output .intermediate) fun _ => True := by
    unfold Registry.register
    by_cases htaken : (s.registry.byName.find? r.output.name).isSome
    · rw [if_pos htaken]
      exact .fault (by simp [fault?, houtputs, hknown.2 htaken])
    · rw [if_neg htaken]
      have hfresh := hknown.not.2 htaken
      have hmet : s.fault? options position n .outputName = none := by simp [fault?, houtputs, hfresh]
      refine Except.Judged.cons hmet ?_
      have hcName : RegisteredTensor.cName ⟨r.output, .intermediate⟩ = "tensor_" ++ C.identifier r.output.name := rfl
      simp only [Role.check, hcName, Except.ok_bind, Registry.checkCName]
      cases hget : s.registry.getByCName? ("tensor_" ++ C.identifier r.output.name) with
      | none =>
        have hmet' : s.fault? options position n .outputCName = none := by simp [fault?, houtputs, hget]
        exact Except.Judged.cons hmet' (.ok trivial)
      | some t =>
        -- Whatever has the C name has it under another name, since that of the output is new.
        have hne : t.tensor.name ≠ r.output.name := by
          rintro hsame
          have hmem := (h.byCName.find?_bind.1 hget).1
          exact hfresh (by rw [h.get?_eq_some.2 ⟨hmem, hsame⟩]; rfl)
        dsimp only
        rw [if_neg hne]
        exact .fault (by simp [fault?, houtputs, hget])
  exact hregister.map fun _ _ => trivial

theorem asks_resolve (h : s.registry.Indexed) :
    s.Asks options position n n.demands (s.apply options (.resolve position n)) fun _ => True :=
  asks_routine.bind fun _ _ houtputs => asks_addRoutine h houtputs

end BuildState

/-! ## How far a build comes -/

namespace Model

/-- Another model is given the same, and its first nodes are the same. -/
structure SharesOpening (m : Model) (k : Nat) (m' : Model) : Prop where
  inputs_eq : m'.inputs = m.inputs
  initializers_eq : m'.initializers = m.initializers
  nodes_eq : m'.nodes.take k = m.nodes.take k

variable {m m' : Model} {options : Options} {k : Nat}

theorem SharesOpening.stateBefore_eq (h : m.SharesOpening k m') (options : Options) :
    m'.stateBefore options k = m.stateBefore options k := by
  have hgiven : m'.given = m.given := by rw [given, given, h.inputs_eq, h.initializers_eq]
  rw [stateBefore, stateBefore, stepsBefore, stepsBefore, hgiven, h.nodes_eq]

theorem steps_eq_append (m : Model) (k : Nat) : ∃ rest, m.steps = m.stepsBefore k ++ rest := by
  have hnodes : m.nodes.mapIdx BuildStep.resolve =
      (m.nodes.take k).mapIdx BuildStep.resolve ++
        (m.nodes.drop k).mapIdx fun i => .resolve (i + (m.nodes.take k).length) := by
    conv_lhs => rw [← List.take_append_drop k m.nodes, List.mapIdx_append]
  rw [m.steps_eq, hnodes, stepsBefore]
  exact ⟨_, by simp only [List.append_assoc]; rfl⟩

theorem stateBefore_succ {n : NodeDescription} (hn : m.nodes[k]? = some n) :
    m.stateBefore options (k + 1) =
      (m.stateBefore options k >>= fun s => s.apply options (.resolve k n)) := by
  have hlength : (m.nodes.take k).length = k :=
    List.length_take_of_le (Nat.le_of_lt (List.getElem?_eq_some_iff.1 hn).1)
  rw [stateBefore, stepsBefore, List.take_add_one, hn, Option.toList_some, List.mapIdx_concat, hlength,
    ← List.append_assoc, List.foldlM_append]
  simp [stateBefore, stepsBefore]

end Model

namespace Graph

/-- A build that does not reach a node has ended. -/
theorem build_of_stateBefore {m : Model} {options : Options} {k : Nat} {e : BuildError}
    (h : m.stateBefore options k = .error e) : Graph.build m options = .error e := by
  obtain ⟨rest, hsteps⟩ := m.steps_eq_append k
  have hfold : m.steps.foldlM (BuildState.apply options) {} = .error e := by
    rw [hsteps, List.foldlM_append]
    exact Except.bind_eq_error.2 (.inl h)
  exact Except.bind_eq_error.2 (.inl hfold)

end Graph

/-- Two nodes of one name. The second one may have any inputs, and writes what the first one writes. -/
def namesakes (inputs : List String) (more : List NodeDescription) : Model where
  inputs := [⟨"x", .uint8, [1, 1, 1, 1]⟩]
  initializers := [⟨⟨"w", .int8, [1, 1, 1, 1]⟩, .ints [3]⟩]
  nodes :=
    { operatorName := "ConvInteger", name := "conv", inputs := ["x", "w"], outputs := ["y"] } ::
      { operatorName := "ConvInteger", name := "conv", inputs, outputs := ["y"] } :: more
  outputs := ["y", "y"]

end Stencil
