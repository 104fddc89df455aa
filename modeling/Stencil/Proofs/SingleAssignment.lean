import Stencil.Graph.Source
import Stencil.Proofs.Building

/-!
# Single assignment

Every tensor of a built graph is given or written by exactly one node, and written before
it is read. The calls pass to each function the tensors that it was resolved for.
-/

namespace Stencil

/-! ## Bindings -/

namespace Routine

/-- The parameters of a routine that it only reads. -/
def readOnly (r : Routine) : List Binding :=
  [⟨"x", r.data, false⟩, ⟨"w", r.weights, false⟩] ++ r.arithmetic.binding?.toList

theorem bindings_eq (r : Routine) : r.bindings = r.readOnly ++ [⟨"y", r.output, true⟩] := rfl

theorem writable_readOnly {r : Routine} {b : Binding} (h : b ∈ r.readOnly) : b.writable = false := by
  rcases List.mem_append.1 h with h | h
  · rcases List.mem_cons.1 h with rfl | h
    · rfl
    · obtain rfl := List.mem_singleton.1 h
      rfl
  · rw [Option.mem_toList] at h
    unfold Arithmetic.binding? at h
    split at h <;> cases h <;> rfl

/-- The tensor that a routine writes is its output. -/
theorem tensor_of_writable {r : Routine} {b : Binding} (h : b ∈ r.bindings) (hw : b.writable = true) :
    b.tensor = r.output := by
  rw [bindings_eq, List.mem_append, List.mem_singleton] at h
  rcases h with h | rfl
  · rw [writable_readOnly h] at hw
    cases hw
  · rfl

end Routine

namespace Graph

/-! ## Tensors of a built graph -/

namespace Built

variable {m : Model} {g : Graph}

theorem names_nodup (h : g.Built m) : (g.registry.tensors.map (·.tensor.name)).Nodup :=
  h.indexed.byName.nodup

/-- The given tensors and then what the routines write, in order. -/
theorem tensors_map_eq (h : g.Built m) :
    g.registry.tensors.map RegisteredTensor.tensor =
      m.given.map RegisteredTensor.tensor ++ g.routines.map Routine.output := by
  rw [h.tensors_eq, List.map_map, List.map_append, List.map_map]
  simp [Function.comp_def, Routine.produced]

theorem known_nodup (h : g.Built m) :
    ((m.given.map RegisteredTensor.tensor ++ g.routines.map Routine.output).map Tensor.name).Nodup := by
  rw [← h.tensors_map_eq, List.map_map]
  exact h.names_nodup

theorem mem_tensors (h : g.Built m) {t : RegisteredTensor} :
    t ∈ g.registry.tensors ↔
      ∃ u ∈ m.given ++ g.routines.map Routine.produced, u.marked m.outputs = t := by
  rw [h.tensors_eq, List.mem_map]

/-- A tensor that is given or written by a routine is found by its name. -/
theorem get?_of_known (h : g.Built m) {t : Tensor}
    (ht : t ∈ m.given.map RegisteredTensor.tensor ++ g.routines.map Routine.output) :
    ∃ u, g.registry.get? t.name = some u ∧ u.tensor = t := by
  rw [← h.tensors_map_eq] at ht
  obtain ⟨u, hu, rfl⟩ := List.mem_map.1 ht
  exact ⟨u, h.indexed.get?_eq_some.2 ⟨hu, rfl⟩, rfl⟩

theorem reads (h : g.Built m) {i : Nat} {r : Routine} (hr : g.routines[i]? = some r) :
    ∃ n, m.nodes[i]? = some n ∧
      r.Reads (m.given.map RegisteredTensor.tensor ++ (g.routines.take i).map Routine.output) n := by
  have hi : i < m.nodes.length := by
    rw [h.chain.length_eq]
    exact (List.getElem?_eq_some_iff.1 hr).1
  obtain ⟨r', hr', hreads⟩ := h.chain.reads (List.getElem?_eq_getElem hi)
  obtain rfl : r' = r := Option.some.inj (hr'.symm.trans hr)
  exact ⟨_, List.getElem?_eq_getElem hi, hreads⟩

/-- Every binding of a routine is a tensor of the graph. -/
theorem get?_of_binding (h : g.Built m) {r : Routine} (hr : r ∈ g.routines) {b : Binding}
    (hb : b ∈ r.bindings) : ∃ t, g.registry.get? b.tensor.name = some t ∧ t.tensor = b.tensor := by
  refine h.get?_of_known ?_
  cases hw : b.writable with
  | true =>
    rw [Routine.tensor_of_writable hb hw]
    exact List.mem_append_right _ (List.mem_map_of_mem hr)
  | false =>
    obtain ⟨i, hi⟩ := List.mem_iff_getElem?.1 hr
    obtain ⟨n, -, hreads⟩ := h.reads hi
    -- What is only read was known when the routine was resolved.
    rcases List.mem_append.1 (hreads.bindings_known b hb hw) with hgiven | hearlier
    · exact List.mem_append_left _ hgiven
    · exact List.mem_append_right _ (List.map_subset _ (List.take_subset i _) hearlier)

/-- A routine's own output is not among the tensors known before it. -/
theorem output_fresh (h : g.Built m) {i : Nat} {r : Routine} (hr : g.routines[i]? = some r) {t : Tensor}
    (ht : t ∈ m.given.map RegisteredTensor.tensor ++ (g.routines.take i).map Routine.output) :
    t.name ≠ r.output.name := by
  obtain ⟨hi, hget⟩ := List.getElem?_eq_some_iff.1 hr
  -- The output stands between those of earlier routines and those of later ones.
  have hroutines : g.routines.map Routine.output = (g.routines.take i).map Routine.output
      ++ r.output :: (g.routines.drop (i + 1)).map Routine.output := by
    rw [← List.map_cons, ← hget, ← List.drop_eq_getElem_cons hi, ← List.map_append,
      List.take_append_drop]
  have hnodup := h.known_nodup
  rw [hroutines, ← List.append_assoc, List.map_append, List.map_cons, List.nodup_append] at hnodup
  exact hnodup.2.2 t.name (List.mem_map_of_mem ht) r.output.name List.mem_cons_self

/-- Distinct routines write distinct tensors. -/
theorem output_inj (h : g.Built m) {i j : Nat} {r r' : Routine} (hr : g.routines[i]? = some r)
    (hr' : g.routines[j]? = some r') (hname : r.output.name = r'.output.name) : i = j := by
  have hnodup : (g.routines.map (·.output.name)).Nodup := by
    have hknown := h.known_nodup
    rw [List.map_append, List.nodup_append, List.map_map] at hknown
    rw [List.map_map] at hknown
    exact hknown.2.1
  have hi : i < (g.routines.map (·.output.name)).length := by
    rw [List.length_map]
    exact (List.getElem?_eq_some_iff.1 hr).1
  refine (List.getElem?_inj hi hnodup).1 ?_
  rw [List.getElem?_map, List.getElem?_map, hr, hr', Option.map_some, Option.map_some, hname]

/-- The outputs of the model are the tensors in the role of an output. -/
theorem role_eq_output_iff (h : g.Built m) {t : RegisteredTensor} (ht : t ∈ g.registry.tensors) :
    t.role = .output ↔ t.tensor.name ∈ m.outputs := by
  obtain ⟨u, hu, rfl⟩ := h.mem_tensors.1 ht
  unfold RegisteredTensor.marked
  by_cases hname : u.tensor.name ∈ m.outputs
  · simp [hname]
  · simp only [hname, if_false, iff_false]
    rcases List.mem_append.1 hu with hu | hu
    · rcases List.mem_append.1 hu with hu | hu <;> obtain ⟨_, -, rfl⟩ := List.mem_map.1 hu <;> nofun
    · obtain ⟨_, -, rfl⟩ := List.mem_map.1 hu
      nofun

/-- What a routine writes is an intermediate tensor or an output. -/
theorem role_of_written (h : g.Built m) {r : Routine} (hr : r ∈ g.routines) :
    ∃ t, g.registry.get? r.output.name = some t ∧ (t.role = .intermediate ∨ t.role = .output) := by
  have hmem : r.produced.marked m.outputs ∈ g.registry.tensors :=
    h.mem_tensors.2 ⟨_, List.mem_append_right _ (List.mem_map_of_mem hr), rfl⟩
  refine ⟨_, h.indexed.get?_eq_some.2 ⟨hmem, ?_⟩, ?_⟩
  · rw [RegisteredTensor.tensor_marked]
    rfl
  · unfold RegisteredTensor.marked
    split
    next => exact .inr rfl
    next => exact .inl rfl

end Built

/-! ## The property -/

/-- A graph in single-assignment form, in which everything is defined before it is used. -/
structure SingleAssignment (m : Model) (g : Graph) : Prop where
  /-- The tensors are those of the model and then one for each node, all under different names. -/
  tensors_eq : g.registry.tensors.map RegisteredTensor.tensor =
    m.inputs ++ m.initializers.map Initializer.tensor ++ g.routines.map Routine.output
  outputs_eq : List.Forall₂ (fun n r => n.outputs = [r.output.name]) m.nodes g.routines
  names_nodup : (g.registry.tensors.map (·.tensor.name)).Nodup
  /-- A node reads what the model gives and what earlier nodes write, but never its own output. -/
  defined_before : ∀ (i : Nat) (n : NodeDescription), m.nodes[i]? = some n → ∀ name ∈ n.inputs, name ≠ "" →
    name ∉ n.outputs ∧
      (name ∈ m.inputs.map Tensor.name ∨ name ∈ m.initializers.map (·.tensor.name) ∨
        ∃ j < i, ∃ earlier : NodeDescription, m.nodes[j]? = some earlier ∧ name ∈ earlier.outputs)
  /-- A call passes tensors of the element types and shapes of the parameters, one by one. -/
  arguments_match : ∀ r ∈ g.routines, List.Forall₂
    (fun b argument => ∃ t, g.registry.get? b.tensor.name = some t ∧ t.tensor = b.tensor ∧
      argument = t.cName)
    r.bindings (g.arguments r)
  /-- Only the last parameter is written, and nothing that is given is passed for it. -/
  written_last : ∀ r ∈ g.routines, ∃ readOnly written, r.bindings = readOnly ++ [written] ∧
    (∀ b ∈ readOnly, b.writable = false) ∧ written.writable = true ∧
      ∃ t, g.registry.get? written.tensor.name = some t ∧
        (t.role = .intermediate ∨ t.role = .output)
  /-- Each output of the model is written by one node, and nothing else has the role of one. -/
  outputs_nodup : m.outputs.Nodup
  output_written : ∀ name ∈ m.outputs, ∃! i : Nat, ∃ r : Routine, g.routines[i]? = some r ∧
    ∃ b ∈ r.bindings, b.writable = true ∧ b.tensor.name = name
  role_iff : ∀ t ∈ g.registry.tensors, t.role = .output ↔ t.tensor.name ∈ m.outputs

variable {m : Model} {g : Graph}

theorem Built.defined_before (h : g.Built m) {i : Nat} {n : NodeDescription}
    (hn : m.nodes[i]? = some n) {name : String} (hname : name ∈ n.inputs) (hne : name ≠ "") :
    name ∉ n.outputs ∧
      (name ∈ m.inputs.map Tensor.name ∨ name ∈ m.initializers.map (·.tensor.name) ∨
        ∃ j < i, ∃ earlier : NodeDescription, m.nodes[j]? = some earlier ∧ name ∈ earlier.outputs) := by
  obtain ⟨r, hr, hreads⟩ := h.chain.reads hn
  obtain ⟨t, ht, rfl⟩ := hreads.inputs_known name hname hne
  constructor
  · rw [hreads.outputs_eq, List.mem_singleton]
    exact h.output_fresh hr ht
  · rcases List.mem_append.1 ht with hgiven | hearlier
    · obtain ⟨u, hu, rfl⟩ := List.mem_map.1 hgiven
      rcases List.mem_append.1 hu with hu | hu
      · obtain ⟨t, hinput, rfl⟩ := List.mem_map.1 hu
        exact .inl (List.mem_map_of_mem hinput)
      · obtain ⟨initializer, hinitializer, rfl⟩ := List.mem_map.1 hu
        exact .inr (.inl (List.mem_map_of_mem hinitializer))
    · obtain ⟨r', hr', rfl⟩ := List.mem_map.1 hearlier
      obtain ⟨j, hj⟩ := List.mem_iff_getElem?.1 hr'
      have hlt : j < i := by
        have := (List.getElem?_eq_some_iff.1 hj).1
        rw [List.length_take] at this
        omega
      rw [List.getElem?_take_of_lt hlt] at hj
      obtain ⟨earlier, hearlier, hreads'⟩ := h.reads hj
      refine .inr (.inr ⟨j, hlt, earlier, hearlier, ?_⟩)
      rw [hreads'.outputs_eq]
      exact List.mem_singleton_self _

end Graph

/-- A padded convolution with a zero point and a second one over its channels. -/
def twoLayers : Model where
  inputs := [⟨"image", .uint8, [1, 1, 3, 3]⟩]
  initializers :=
    [⟨⟨"kernel", .int8, [2, 1, 2, 2]⟩, .ints [1, -2, 3, -4, 5, -6, 7, -8]⟩,
     ⟨⟨"zero", .uint8, []⟩, .ints [128]⟩,
     ⟨⟨"mix", .int8, [1, 2, 1, 1]⟩, .ints [1, -1]⟩]
  nodes :=
    [{ operatorName := "ConvInteger", name := "first", inputs := ["image", "kernel", "zero"]
       outputs := ["hidden"], attributes := [("pads", .ints [1, 0, 0, 1])] },
     { operatorName := "ConvInteger", inputs := ["hidden", "mix", ""], outputs := ["y.1"] }]
  outputs := ["y.1"]

end Stencil
