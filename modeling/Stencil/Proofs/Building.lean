import Mathlib.Data.List.Forall2
import Mathlib.Data.List.Induction
import Stencil.Graph.Basic
import Stencil.Proofs.Registry
import Stencil.Proofs.Resolution

/-!
# Building graphs

A node is resolved against the tensors known so far, and its output joins them. The
nodes of a built graph thus form a chain in which each one reads what is given or was
written before it.
-/

namespace Stencil

/-! ## Chains -/

/-- The tensor that a routine writes, before the outputs are marked. -/
def Routine.produced (r : Routine) : RegisteredTensor := ⟨r.output, .intermediate⟩

/-- What a routine owes its node, and where the tensors that it reads come from. -/
structure Routine.Reads (known : List Tensor) (n : NodeDescription) (r : Routine) : Prop where
  outputs_eq : n.outputs = [r.output.name]
  inputs_known : ∀ name ∈ n.inputs, name ≠ "" → ∃ t ∈ known, t.name = name
  bindings_known : ∀ b ∈ r.bindings, b.writable = false → b.tensor ∈ known

/-- Routines that read given tensors and the outputs of those before them. -/
inductive Chain (given : List Tensor) : List NodeDescription → List Routine → Prop where
  | nil : Chain given [] []
  | snoc {nodes : List NodeDescription} {routines : List Routine} {n : NodeDescription} {r : Routine} :
    Chain given nodes routines → r.Reads (given ++ routines.map Routine.output) n →
      Chain given (nodes ++ [n]) (routines ++ [r])

namespace Chain

variable {given : List Tensor} {nodes : List NodeDescription} {routines : List Routine}

theorem length_eq (h : Chain given nodes routines) : nodes.length = routines.length := by
  induction h with
  | nil => rfl
  | snoc _ _ ih => rw [List.length_append, List.length_append, ih, List.length_singleton,
      List.length_singleton]

theorem outputs_eq (h : Chain given nodes routines) :
    List.Forall₂ (fun n r => n.outputs = [r.output.name]) nodes routines := by
  induction h with
  | nil => exact .nil
  | snoc _ hreads ih => exact List.rel_append ih (.cons hreads.outputs_eq .nil)

/-- Every node has a routine, which reads from what stands before it. -/
theorem reads (h : Chain given nodes routines) {i : Nat} {n : NodeDescription}
    (hn : nodes[i]? = some n) :
    ∃ r, routines[i]? = some r ∧ r.Reads (given ++ (routines.take i).map Routine.output) n := by
  induction h with
  | nil => cases hn
  | @snoc nodes routines n' r hchain hreads ih =>
    have hlength := hchain.length_eq
    -- An earlier node, the last one, or none at all.
    rcases Nat.lt_trichotomy i nodes.length with hi | rfl | hi
    · rw [List.getElem?_append_left hi] at hn
      obtain ⟨r', hr', hreads'⟩ := ih hn
      rw [hlength] at hi
      rw [List.getElem?_append_left hi, List.take_append_of_le_length (Nat.le_of_lt hi)]
      exact ⟨r', hr', hreads'⟩
    · rw [List.getElem?_concat_length] at hn
      obtain rfl := Option.some.inj hn
      rw [hlength, List.getElem?_concat_length, List.take_left]
      exact ⟨r, rfl, hreads⟩
    · rw [List.getElem?_eq_none (by rw [List.length_append]; exact hi)] at hn
      cases hn

end Chain

/-! ## Nodes -/

namespace Node

/-- What a resolved routine only reads are inputs of its node. -/
theorem Resolves.bindings_input {n : Node} {r : Routine} (h : n.Resolves r) {b : Binding}
    (hb : b ∈ r.bindings) (hread : b.writable = false) : some b.tensor ∈ n.inputs := by
  have hinput : ∀ {i : Nat} {t : Tensor}, n.input? i = some t → some t ∈ n.inputs := by
    intro i t hi
    exact List.mem_of_getElem? (Option.join_eq_some_iff.1 hi)
  rcases List.mem_append.1 hb with hb | hb
  · rcases List.mem_append.1 hb with hb | hb
    · rcases List.mem_cons.1 hb with rfl | hb
      · exact hinput h.data_eq
      · obtain rfl := List.mem_singleton.1 hb
        exact hinput h.weights_eq
    · refine hinput (i := 2) ?_
      rw [← h.third_eq, Option.mem_toList.1 hb]
      rfl
  · obtain rfl := List.mem_singleton.1 hb
    cases hread

end Node

namespace BuildState

variable {s : BuildState}

/-- An input that is there is a registered tensor of that name. -/
theorem input_eq_ok (h : s.registry.Indexed) {name : String} {input : Option Tensor}
    (hi : s.input name = .ok input) :
    (∀ t, input = some t → t ∈ s.registry.tensors.map RegisteredTensor.tensor) ∧
      (name ≠ "" → ∃ t ∈ s.registry.tensors.map RegisteredTensor.tensor, t.name = name) := by
  unfold BuildState.input at hi
  split at hi
  next hempty =>
    obtain rfl := Except.ok.inj hi
    exact ⟨nofun, fun hne => absurd (by simpa using hempty) hne⟩
  next =>
    obtain ⟨t, ht, rfl⟩ := Except.map_eq_ok.1 hi
    obtain ⟨u, hu, rfl, hname⟩ := h.tensor_eq_ok.1 ht
    refine ⟨?_, fun _ => ⟨u.tensor, List.mem_map_of_mem hu, hname⟩⟩
    intro t ht
    obtain rfl := Option.some.inj ht
    exact List.mem_map_of_mem hu

/-- The inputs of a node are registered, and no earlier routine has its C name. -/
theorem node_eq_ok (h : s.registry.Indexed) {position : Nat} {n : NodeDescription} {node : Node}
    (hn : s.node position n = .ok node) :
    node.outputs = n.outputs ∧
      (∀ t, some t ∈ node.inputs → t ∈ s.registry.tensors.map RegisteredTensor.tensor) ∧
      (∀ name ∈ n.inputs, name ≠ "" →
        ∃ t ∈ s.registry.tensors.map RegisteredTensor.tensor, t.name = name) ∧
      ∀ r ∈ s.routines, C.identifier r.name ≠ C.identifier node.name := by
  unfold BuildState.node at hn
  dsimp only at hn
  split at hn
  next => cases hn
  next operator hoperator =>
    split at hn
    next => cases hn
    next hfresh =>
      obtain ⟨inputs, hinputs, hn⟩ := Except.bind_eq_ok.1 hn
      obtain rfl := Except.pure_eq_ok.1 hn
      obtain ⟨hto, hfrom⟩ := Except.mapM_eq_ok hinputs
      refine ⟨rfl, ?_, ?_, ?_⟩
      · intro t ht
        obtain ⟨name, -, hname⟩ := hfrom (some t) ht
        exact (input_eq_ok h hname).1 t rfl
      · intro name hmem
        obtain ⟨input, -, hinput⟩ := hto name hmem
        exact (input_eq_ok h hinput).2
      · intro r hr hsame
        exact hfresh (List.any_eq_true.2 ⟨r, hr, by simpa using hsame⟩)

/-- What can be wrong with a description before it is resolved: its operator, its name or an input. -/
theorem node_eq_error {position : Nat} {n : NodeDescription} {e : BuildError}
    (h : s.node position n = .error e) :
    e = .unsupportedOperator n.operatorName (n.fullName position) ∨
      e = .duplicateNode (n.fullName position) ∨ ∃ name ∈ n.inputs, e = .unknownTensor name := by
  unfold BuildState.node at h
  dsimp only at h
  split at h
  next => exact .inl (Except.error.inj h).symm
  next =>
    split at h
    next => exact .inr (.inl (Except.error.inj h).symm)
    next =>
      rcases Except.bind_eq_error.1 h with h | ⟨_, -, h⟩
      · obtain ⟨name, hname, h⟩ := Except.mapM_eq_error h
        refine .inr (.inr ⟨name, hname, ?_⟩)
        unfold BuildState.input at h
        split at h
        next => cases h
        next =>
          have h := Except.map_eq_error.1 h
          unfold Registry.tensor at h
          split at h
          next => cases h
          next => exact (Except.error.inj h).symm
      · cases h

/-- A resolved routine reads registered tensors, and its C name is new. -/
theorem routine_eq_ok (h : s.registry.Indexed) {options : Options} {position : Nat}
    {n : NodeDescription} {r : Routine} (hr : s.routine options position n = .ok r) :
    r.Reads (s.registry.tensors.map RegisteredTensor.tensor) n ∧
      ∀ r' ∈ s.routines, r'.functionName ≠ r.functionName := by
  obtain ⟨node, hnode, hresolve⟩ := Except.bind_eq_ok.1 hr
  rw [Except.mapError_eq_ok] at hresolve
  have hresolves := Node.resolve_eq_ok hresolve
  obtain ⟨houtputs, htensors, hnames, hfresh⟩ := node_eq_ok h hnode
  refine ⟨⟨?_, hnames, ?_⟩, ?_⟩
  · rw [← houtputs, hresolves.outputs_eq]
  · intro b hb hread
    exact htensors b.tensor (hresolves.bindings_input hb hread)
  · intro r' hr' hsame
    refine hfresh r' hr' ?_
    rw [← hresolves.name_eq]
    exact String.append_right_inj _ |>.1 hsame

/-! ## Steps -/

/-- What holds after the given tensors and some of the nodes. -/
structure Grown (given : List RegisteredTensor) (nodes : List NodeDescription) (s : BuildState) :
    Prop where
  indexed : s.registry.Indexed
  tensors_eq : s.registry.tensors = given ++ s.routines.map Routine.produced
  chain : Chain (given.map RegisteredTensor.tensor) nodes s.routines
  functions_nodup : (s.routines.map Routine.functionName).Nodup

variable {options : Options} {given : List RegisteredTensor} {nodes : List NodeDescription}

theorem Grown.resolve (h : Grown given nodes s) {position : Nat} {n : NodeDescription} {s' : BuildState}
    (hs : s.apply options (.resolve position n) = .ok s') : Grown given (nodes ++ [n]) s' := by
  obtain ⟨r, hr, hs⟩ := Except.bind_eq_ok.1 hs
  obtain ⟨registry, hregister, hs⟩ := Except.bind_eq_ok.1 hs
  obtain rfl := Except.pure_eq_ok.1 hs
  obtain ⟨hindexed, htensors⟩ := h.indexed.register_eq_ok hregister
  obtain ⟨hreads, hfresh⟩ := routine_eq_ok h.indexed hr
  refine ⟨hindexed, ?_, h.chain.snoc ?_, ?_⟩
  · rw [htensors, h.tensors_eq, List.map_append, List.append_assoc]
    rfl
  · rwa [h.tensors_eq, List.map_append, List.map_map] at hreads
  · rw [List.map_append, List.map_singleton, List.nodup_append_comm, List.singleton_append,
      List.nodup_cons]
    refine ⟨?_, h.functions_nodup⟩
    intro hmem
    obtain ⟨r', hr', hsame⟩ := List.mem_map.1 hmem
    exact hfresh r' hr' hsame

/-- Registering given tensors adds them in order. -/
theorem foldlM_register_eq_ok {tensors : List RegisteredTensor} (h : s.registry.Indexed)
    {s' : BuildState}
    (hs : (tensors.map fun t => BuildStep.register t.tensor t.role).foldlM (apply options) s = .ok s') :
    s'.registry.Indexed ∧ s'.registry.tensors = s.registry.tensors ++ tensors ∧
      s'.routines = s.routines := by
  induction tensors generalizing s with
  | nil =>
    obtain rfl := Except.pure_eq_ok.1 hs
    exact ⟨h, (List.append_nil _).symm, rfl⟩
  | cons t tensors ih =>
    rw [List.map_cons, List.foldlM_cons] at hs
    obtain ⟨registered, hregistered, hs⟩ := Except.bind_eq_ok.1 hs
    obtain ⟨registry, hregister, hregistered⟩ := Except.bind_eq_ok.1 hregistered
    obtain rfl := Except.pure_eq_ok.1 hregistered
    obtain ⟨hindexed, htensors⟩ := h.register_eq_ok hregister
    obtain ⟨hindexed', htensors', hroutines⟩ := ih hindexed hs
    refine ⟨hindexed', ?_, hroutines⟩
    rw [htensors', htensors, List.append_assoc]
    rfl

/-- Resolving the nodes one by one. -/
theorem foldlM_resolve_eq_ok (h : Grown given [] s) {s' : BuildState}
    (hs : (nodes.mapIdx BuildStep.resolve).foldlM (apply options) s = .ok s') :
    Grown given nodes s' := by
  -- From the end of the list, since the position of a node counts those before it.
  induction nodes using List.reverseRecOn generalizing s' with
  | nil =>
    obtain rfl := Except.pure_eq_ok.1 hs
    exact h
  | append_singleton nodes n ih =>
    rw [List.mapIdx_concat, List.foldlM_append] at hs
    obtain ⟨grown, hgrown, hs⟩ := Except.bind_eq_ok.1 hs
    rw [List.foldlM_cons] at hs
    obtain ⟨last, hlast, hs⟩ := Except.bind_eq_ok.1 hs
    obtain rfl := Except.pure_eq_ok.1 hs
    exact (ih hgrown).resolve hlast

/-- Marking the outputs changes nothing but the registry. -/
theorem foldlM_markOutput (names : List String) (s : BuildState) :
    (names.map BuildStep.markOutput).foldlM (apply options) s =
      (fun registry => { s with registry }) <$> names.foldlM Registry.markOutput s.registry := by
  induction names generalizing s with
  | nil => rfl
  | cons name names ih =>
    have hstep : s.apply options (.markOutput name) =
        (fun registry => { s with registry }) <$> s.registry.markOutput name := rfl
    rw [List.map_cons, List.foldlM_cons, List.foldlM_cons, hstep]
    cases s.registry.markOutput name with
    | error e => rfl
    | ok registry => exact ih { s with registry }

theorem checkFunctions_eq_ok (h : s.registry.Indexed) {s' : BuildState} :
    s.apply options .checkFunctions = .ok s' ↔
      s' = s ∧ ∀ r ∈ s.routines, r.functionName ∉ s.registry.tensors.map RegisteredTensor.cName := by
  have hcheck : ∀ r, s.checkFunction r = .ok () ↔
      r.functionName ∉ s.registry.tensors.map RegisteredTensor.cName := by
    intro r
    rw [← h.getByCName?_eq_none, checkFunction]
    cases s.registry.getByCName? r.functionName <;> simp
  constructor
  · intro hs
    obtain ⟨_, hchecks, hs⟩ := Except.bind_eq_ok.1 hs
    exact ⟨(Except.pure_eq_ok.1 hs).symm, fun r hr => (hcheck r).1 (Except.forM_eq_ok.1 hchecks r hr)⟩
  · rintro ⟨rfl, hfresh⟩
    have hchecks : s'.routines.forM s'.checkFunction = .ok () :=
      Except.forM_eq_ok.2 fun r hr => (hcheck r).2 (hfresh r hr)
    exact Except.bind_eq_ok.2 ⟨(), hchecks, rfl⟩

/-- A step adds at most one routine, which it has resolved, and takes none away. -/
theorem routines_apply {step : BuildStep} {s' : BuildState}
    (hs : s.apply options step = .ok s') :
    s'.routines = s.routines ∨
      ∃ (n : Node) (r : Routine), n.resolve options = .ok r ∧ s'.routines = s.routines ++ [r] := by
  cases step with
  | register t role =>
    obtain ⟨registry, -, hs⟩ := Except.bind_eq_ok.1 hs
    obtain rfl := Except.pure_eq_ok.1 hs
    exact .inl rfl
  | resolve position n =>
    obtain ⟨r, hr, hs⟩ := Except.bind_eq_ok.1 hs
    obtain ⟨node, -, hresolve⟩ := Except.bind_eq_ok.1 hr
    rw [Except.mapError_eq_ok] at hresolve
    obtain ⟨registry, -, hs⟩ := Except.bind_eq_ok.1 hs
    obtain rfl := Except.pure_eq_ok.1 hs
    exact .inr ⟨node, r, hresolve, rfl⟩
  | markOutput name =>
    obtain ⟨registry, -, hs⟩ := Except.bind_eq_ok.1 hs
    obtain rfl := Except.pure_eq_ok.1 hs
    exact .inl rfl
  | checkFunctions =>
    obtain ⟨_, -, hs⟩ := Except.bind_eq_ok.1 hs
    obtain rfl := Except.pure_eq_ok.1 hs
    exact .inl rfl

/-- All routines of a build have been resolved with its options. -/
theorem foldlM_resolved {steps : List BuildStep} {s' : BuildState} (hs : steps.foldlM (apply options) s = .ok s')
    (h : ∀ r ∈ s.routines, ∃ n : Node, n.resolve options = .ok r) :
    ∀ r ∈ s'.routines, ∃ n : Node, n.resolve options = .ok r := by
  induction steps generalizing s with
  | nil =>
    obtain rfl := Except.pure_eq_ok.1 hs
    exact h
  | cons step steps ih =>
    rw [List.foldlM_cons] at hs
    obtain ⟨next, hnext, hs⟩ := Except.bind_eq_ok.1 hs
    refine ih hs fun r hr => ?_
    rcases routines_apply hnext with hsame | ⟨n, r', hr', hadd⟩
    · exact h r (hsame ▸ hr)
    · rw [hadd, List.mem_append, List.mem_singleton] at hr
      rcases hr with hr | rfl
      · exact h r hr
      · exact ⟨n, hr'⟩

/-- Every step keeps the indexes. -/
theorem indexed_apply (h : s.registry.Indexed) {step : BuildStep} {s' : BuildState}
    (hs : s.apply options step = .ok s') : s'.registry.Indexed := by
  cases step with
  | register t role =>
    obtain ⟨registry, hregister, hs⟩ := Except.bind_eq_ok.1 hs
    obtain rfl := Except.pure_eq_ok.1 hs
    exact (h.register_eq_ok hregister).1
  | resolve position n =>
    obtain ⟨r, -, hs⟩ := Except.bind_eq_ok.1 hs
    obtain ⟨registry, hregister, hs⟩ := Except.bind_eq_ok.1 hs
    obtain rfl := Except.pure_eq_ok.1 hs
    exact (h.register_eq_ok hregister).1
  | markOutput name =>
    obtain ⟨registry, hmark, hs⟩ := Except.bind_eq_ok.1 hs
    obtain rfl := Except.pure_eq_ok.1 hs
    exact (h.markOutput_eq_ok hmark).1
  | checkFunctions =>
    obtain ⟨rfl, -⟩ := (checkFunctions_eq_ok h).1 hs
    exact h

end BuildState

/-! ## Built graphs -/

/-- The tensors of a model that are there before any node runs. -/
def Model.given (m : Model) : List RegisteredTensor :=
  m.inputs.map (⟨·, .input⟩) ++ m.initializers.map fun i => ⟨i.tensor, .initializer i.data⟩

/-- What holds of a graph that was built from a model. -/
structure Graph.Built (m : Model) (g : Graph) : Prop where
  inputs_eq : g.inputs = m.inputs.map Tensor.name
  outputs_eq : g.outputs = m.outputs
  indexed : g.registry.Indexed
  tensors_eq :
    g.registry.tensors =
      (m.given ++ g.routines.map Routine.produced).map (RegisteredTensor.marked m.outputs)
  chain : Chain (m.given.map RegisteredTensor.tensor) m.nodes g.routines
  functions_nodup : (g.routines.map Routine.functionName).Nodup
  functions_fresh : ∀ r ∈ g.routines,
    r.functionName ∉ g.registry.tensors.map RegisteredTensor.cName
  outputs_nodup : m.outputs.Nodup
  outputs_written : ∀ name ∈ m.outputs, ∃ r ∈ g.routines, r.output.name = name

theorem Model.steps_eq (m : Model) :
    m.steps = (m.given.map fun t => BuildStep.register t.tensor t.role) ++ m.nodes.mapIdx BuildStep.resolve
      ++ m.outputs.map BuildStep.markOutput ++ [BuildStep.checkFunctions] := by
  simp [steps, given, Function.comp_def]

/-- No given tensor is an intermediate one. -/
theorem Model.role_given {m : Model} {t : RegisteredTensor} (h : t ∈ m.given) :
    t.role ≠ .intermediate := by
  rcases List.mem_append.1 h with h | h
  · obtain ⟨_, -, rfl⟩ := List.mem_map.1 h
    nofun
  · obtain ⟨_, -, rfl⟩ := List.mem_map.1 h
    nofun

/-- The steps up to a node: what is given is registered, and the nodes before it are resolved. -/
def Model.stepsBefore (m : Model) (k : Nat) : List BuildStep :=
  (m.given.map fun t => .register t.tensor t.role) ++ (m.nodes.take k).mapIdx .resolve

/-- What has been built when a node is reached, or the error that kept it from being reached. -/
def Model.stateBefore (m : Model) (options : Options) (k : Nat) : Except BuildError BuildState :=
  (m.stepsBefore k).foldlM (BuildState.apply options) {}

theorem Model.grown_stateBefore {m : Model} {options : Options} {k : Nat} {s : BuildState}
    (h : m.stateBefore options k = .ok s) : s.Grown m.given (m.nodes.take k) := by
  rw [stateBefore, stepsBefore, List.foldlM_append] at h
  obtain ⟨given, hgiven, hgrown⟩ := Except.bind_eq_ok.1 h
  obtain ⟨hindexed, htensors, hroutines⟩ :=
    BuildState.foldlM_register_eq_ok (s := {}) Registry.Indexed.empty hgiven
  have hstart : BuildState.Grown m.given [] given := by
    refine ⟨hindexed, ?_, ?_, ?_⟩
    · rw [htensors, hroutines]
      exact (List.append_nil _).symm
    · rw [hroutines]
      exact .nil
    · rw [hroutines]
      exact List.nodup_nil
  exact BuildState.foldlM_resolve_eq_ok hstart hgrown

/-- Behind the nodes the outputs are marked, and then the names of the functions are checked. -/
theorem Graph.build_eq (m : Model) (options : Options) :
    Graph.build m options = do
      let grown ← m.stateBefore options m.nodes.length
      let marked ← (m.outputs.map .markOutput).foldlM (BuildState.apply options) grown
      let s ← marked.apply options .checkFunctions
      return ⟨s.registry, s.routines, m.inputs.map (·.name), m.outputs⟩ := by
  rw [Graph.build, m.steps_eq, Model.stateBefore, Model.stepsBefore, List.take_length, List.foldlM_append,
    List.foldlM_append]
  simp only [bind_assoc, List.foldlM_cons, List.foldlM_nil, bind_pure]

theorem Graph.build_eq_ok_iff {m : Model} {options : Options} {g : Graph} :
    Graph.build m options = .ok g ↔ ∃ s registry, m.stateBefore options m.nodes.length = .ok s ∧
      m.outputs.foldlM Registry.markOutput s.registry = .ok registry ∧
      (∀ r ∈ s.routines, r.functionName ∉ registry.tensors.map RegisteredTensor.cName) ∧
      g = ⟨registry, s.routines, m.inputs.map Tensor.name, m.outputs⟩ := by
  have hindexed : ∀ {s registry}, m.stateBefore options m.nodes.length = .ok s →
      m.outputs.foldlM Registry.markOutput s.registry = .ok registry → registry.Indexed :=
    fun hs hregistry => ((Model.grown_stateBefore hs).indexed.foldlM_markOutput_eq_ok hregistry).1
  rw [build_eq, Except.bind_eq_ok]
  refine exists_congr fun s => ?_
  rw [BuildState.foldlM_markOutput]
  constructor
  · rintro ⟨hs, h⟩
    obtain ⟨marked, hmarked, h⟩ := Except.bind_eq_ok.1 h
    obtain ⟨last, hcheck, h⟩ := Except.bind_eq_ok.1 h
    obtain ⟨registry, hregistry, rfl⟩ := Except.map_eq_ok.1 hmarked
    obtain ⟨rfl, hfresh⟩ := (BuildState.checkFunctions_eq_ok (hindexed hs hregistry)).1 hcheck
    exact ⟨registry, hs, hregistry, hfresh, (Except.pure_eq_ok.1 h).symm⟩
  · rintro ⟨registry, hs, hregistry, hfresh, rfl⟩
    refine ⟨hs, Except.bind_eq_ok.2 ⟨{ s with registry }, Except.map_eq_ok.2 ⟨registry, hregistry, rfl⟩, ?_⟩⟩
    exact Except.bind_eq_ok.2
      ⟨_, (BuildState.checkFunctions_eq_ok (hindexed hs hregistry)).2 ⟨rfl, hfresh⟩, rfl⟩

theorem Graph.build_eq_ok {m : Model} {options : Options} {g : Graph}
    (h : Graph.build m options = .ok g) : g.Built m := by
  obtain ⟨s, registry, hs, hregistry, hfresh, rfl⟩ := build_eq_ok_iff.1 h
  have hgrown := Model.grown_stateBefore hs
  rw [List.take_length] at hgrown
  obtain ⟨hindexed, htensors, hnodup, hall⟩ := hgrown.indexed.foldlM_markOutput_eq_ok hregistry
  refine ⟨rfl, rfl, hindexed, ?_, hgrown.chain, hgrown.functions_nodup, hfresh, hnodup, ?_⟩
  · rw [htensors, hgrown.tensors_eq]
  · intro name hname
    obtain ⟨t, ht, htname, hrole⟩ := hall name hname
    rw [hgrown.tensors_eq, List.mem_append, List.mem_map] at ht
    -- What was intermediate before it was marked is no given tensor, so a routine wrote it.
    rcases ht with ht | ⟨r, hr, rfl⟩
    · exact absurd hrole (Model.role_given ht)
    · exact ⟨r, hr, htname⟩

/-- The routines of a graph have been resolved with the options of its build. -/
theorem Graph.build_resolved {m : Model} {options : Options} {g : Graph} (h : Graph.build m options = .ok g) :
    ∀ r ∈ g.routines, ∃ n : Node, n.resolve options = .ok r := by
  obtain ⟨s, hs, h⟩ := Except.bind_eq_ok.1 h
  obtain rfl := Except.pure_eq_ok.1 h
  exact BuildState.foldlM_resolved hs fun _ hr => (nomatch hr)

end Stencil
