import Stencil.Proofs.SingleAssignment

/-!
# Distinct names

The functions, the arrays and the parameters of an emitted file have different C names,
and each argument of a call is the name of exactly one array or parameter.
-/

namespace Stencil

def Role.isInitializer : Role → Bool
  | .initializer _ => true
  | _ => false

/-- Where every lookup succeeds, what is known of its results holds name by name. -/
theorem map_filterMap_of_forall {α β : Type} {find : String → Option α} {f : α → β} {g : String → β}
    {names : List String} (h : ∀ n ∈ names, ∃ a, find n = some a ∧ f a = g n) :
    (names.filterMap find).map f = names.map g := by
  induction names with
  | nil => rfl
  | cons n names ih =>
    obtain ⟨a, ha, hf⟩ := h n List.mem_cons_self
    rw [List.filterMap_cons_some ha, List.map_cons, List.map_cons, hf,
      ih fun n hn => h n (List.mem_cons_of_mem _ hn)]

namespace Graph

variable (g : Graph)

/-- The C names of the arrays that the file declares, in order. -/
def arrayNames : List String :=
  g.registry.initializers.map (fun (t, _) => g.cName t.name)
    ++ g.registry.intermediates.map RegisteredTensor.cName

/-- The lines in which the file declares its arrays. -/
def arrayLines : List String :=
  g.registry.initializers.map (fun (t, data) => g.constantArray t data)
    ++ g.registry.intermediates.map workArray

/-- The tensors behind the parameters of `entry`. -/
def parameters : List RegisteredTensor :=
  (g.inputs ++ g.outputs).filterMap g.registry.get?

theorem arrayLines_declare :
    List.Forall₂ (fun line name => ∃ storage type shape rest,
        (storage = "static const " ∨ storage = "static ") ∧
          line = storage ++ C.declaration type name shape ++ rest)
      g.arrayLines g.arrayNames := by
  refine List.rel_append ?_ ?_
  · rw [List.forall₂_map_left_iff, List.forall₂_map_right_iff, List.forall₂_same]
    rintro ⟨t, data⟩ -
    have hline : g.constantArray t data = "static const " ++ C.declaration t.type (g.cName t.name) t.shape
        ++ (" = " ++ (C.nestedInitializer (C.arrayDims t.shape) (C.literals t.type data) ++ ";")) := by
      unfold constantArray
      rw [String.append_assoc, String.append_assoc]
    exact ⟨"static const ", t.type, t.shape, _, .inl rfl, hline⟩
  · rw [List.forall₂_map_left_iff, List.forall₂_map_right_iff, List.forall₂_same]
    intro t _
    exact ⟨"static ", t.tensor.type, t.tensor.shape, ";", .inr rfl, rfl⟩

variable {m : Model} {g}

namespace Built

/-! ## Parameters -/

theorem cName_eq (h : g.Built m) {t : RegisteredTensor} (ht : t ∈ g.registry.tensors) :
    g.cName t.tensor.name = t.cName := by
  rw [cName, h.indexed.get?_eq_some.2 ⟨ht, rfl⟩]

/-- No routine writes what the model gives. -/
theorem name_given (h : g.Built m) {t : RegisteredTensor} (ht : t ∈ m.given) :
    t.tensor.name ∉ m.outputs := by
  intro hmem
  -- An output is written by a routine, and its name would then be registered twice.
  obtain ⟨r, hr, hsame⟩ := h.outputs_written _ hmem
  have hnodup := h.known_nodup
  rw [List.map_append, List.nodup_append] at hnodup
  exact hnodup.2.2 t.tensor.name (List.mem_map_of_mem (List.mem_map_of_mem ht)) r.output.name
    (List.mem_map_of_mem (List.mem_map_of_mem hr)) hsame.symm

/-- An input of the model keeps its role. -/
theorem get?_input (h : g.Built m) {t : Tensor} (ht : t ∈ m.inputs) :
    g.registry.get? t.name = some ⟨t, .input⟩ := by
  have hgiven : (⟨t, .input⟩ : RegisteredTensor) ∈ m.given :=
    List.mem_append_left _ (List.mem_map_of_mem ht)
  have hmarked : RegisteredTensor.marked m.outputs ⟨t, .input⟩ = ⟨t, .input⟩ :=
    if_neg (h.name_given hgiven)
  exact h.indexed.get?_eq_some.2
    ⟨h.mem_tensors.2 ⟨_, List.mem_append_left _ hgiven, hmarked⟩, rfl⟩

/-- An output of the model is found in the role of one. -/
theorem get?_output (h : g.Built m) {name : String} (hname : name ∈ m.outputs) :
    ∃ t, g.registry.get? name = some t ∧ t.role = .output ∧ t.tensor.name = name := by
  obtain ⟨r, hr, rfl⟩ := h.outputs_written name hname
  obtain ⟨t, ht, -⟩ := h.role_of_written hr
  obtain ⟨hmem, hsame⟩ := h.indexed.get?_eq_some.1 ht
  refine ⟨t, ht, (h.role_eq_output_iff hmem).2 ?_, hsame⟩
  rwa [hsame]

theorem parameters_names (h : g.Built m) :
    g.parameters.map (·.tensor.name) = m.inputs.map Tensor.name ++ m.outputs := by
  rw [parameters, h.inputs_eq, h.outputs_eq]
  refine (map_filterMap_of_forall (g := id) fun name hname => ?_).trans (List.map_id _)
  rcases List.mem_append.1 hname with hname | hname
  · obtain ⟨t, ht, rfl⟩ := List.mem_map.1 hname
    exact ⟨_, h.get?_input ht, rfl⟩
  · obtain ⟨t, ht, -, hsame⟩ := h.get?_output hname
    exact ⟨t, ht, hsame⟩

theorem parameters_roles (h : g.Built m) :
    g.parameters.map RegisteredTensor.role =
      m.inputs.map (fun _ => Role.input) ++ m.outputs.map fun _ => Role.output := by
  rw [parameters, h.inputs_eq, h.outputs_eq, List.filterMap_append, List.map_append]
  congr 1
  · refine (map_filterMap_of_forall (g := fun _ => .input) fun name hname => ?_).trans
      (List.map_map)
    obtain ⟨t, ht, rfl⟩ := List.mem_map.1 hname
    exact ⟨_, h.get?_input ht, rfl⟩
  · refine map_filterMap_of_forall fun name hname => ?_
    obtain ⟨t, ht, hrole, -⟩ := h.get?_output hname
    exact ⟨t, ht, hrole⟩

theorem parameters_nodup (h : g.Built m) : (g.parameters.map (·.tensor.name)).Nodup := by
  have hgiven := h.known_nodup
  rw [List.map_append, List.nodup_append, Model.given, List.map_append, List.map_append,
    List.nodup_append, List.map_map, List.map_map] at hgiven
  rw [h.parameters_names, List.nodup_append]
  refine ⟨hgiven.1.1, h.outputs_nodup, ?_⟩
  rintro name hinput _ houtput rfl
  obtain ⟨t, ht, rfl⟩ := List.mem_map.1 hinput
  have ht : (⟨t, .input⟩ : RegisteredTensor) ∈ m.given :=
    List.mem_append_left _ (List.mem_map_of_mem ht)
  exact h.name_given ht houtput

/-- A tensor in the role of an input is one of the model's. -/
theorem mem_inputs (h : g.Built m) {t : RegisteredTensor} (ht : t ∈ g.registry.tensors)
    (hrole : t.role = .input) : t.tensor ∈ m.inputs := by
  obtain ⟨u, hu, rfl⟩ := h.mem_tensors.1 ht
  unfold RegisteredTensor.marked at hrole ⊢
  split at hrole
  next => cases hrole
  next hname =>
    rw [if_neg hname]
    rcases List.mem_append.1 hu with hu | hu
    · rcases List.mem_append.1 hu with hu | hu <;> obtain ⟨_, hmem, rfl⟩ := List.mem_map.1 hu
      · exact hmem
      · cases hrole
    · obtain ⟨_, -, rfl⟩ := List.mem_map.1 hu
      cases hrole

theorem mem_parameters (h : g.Built m) {t : RegisteredTensor} :
    t ∈ g.parameters ↔ t ∈ g.registry.tensors ∧ (t.role = .input ∨ t.role = .output) := by
  rw [parameters, h.inputs_eq, h.outputs_eq, List.mem_filterMap]
  constructor
  · rintro ⟨name, hname, ht⟩
    refine ⟨(h.indexed.get?_eq_some.1 ht).1, ?_⟩
    rcases List.mem_append.1 hname with hname | hname
    · obtain ⟨u, hu, rfl⟩ := List.mem_map.1 hname
      rw [h.get?_input hu] at ht
      obtain rfl := Option.some.inj ht
      exact .inl rfl
    · obtain ⟨u, hu, hrole, -⟩ := h.get?_output hname
      rw [hu] at ht
      obtain rfl := Option.some.inj ht
      exact .inr hrole
  · rintro ⟨ht, hrole⟩
    refine ⟨t.tensor.name, List.mem_append.2 ?_, h.indexed.get?_eq_some.2 ⟨ht, rfl⟩⟩
    rcases hrole with hrole | hrole
    · exact .inl (List.mem_map_of_mem (h.mem_inputs ht hrole))
    · exact .inr ((h.role_eq_output_iff ht).1 hrole)

/-! ## Arrays -/

theorem cNames_nodup (h : g.Built m) : (g.registry.tensors.map RegisteredTensor.cName).Nodup :=
  h.indexed.byCName.nodup

theorem arrayNames_eq (h : g.Built m) :
    g.arrayNames = (g.registry.tensors.filter (·.role.isInitializer)
      ++ g.registry.intermediates).map RegisteredTensor.cName := by
  rw [arrayNames, List.map_append]
  congr 1
  have hall : ∀ t ∈ g.registry.tensors, g.cName t.tensor.name = t.cName := fun t => h.cName_eq
  unfold Registry.initializers
  generalize g.registry.tensors = tensors at hall ⊢
  induction tensors with
  | nil => rfl
  | cons t tensors ih =>
    have ih := ih fun u hu => hall u (List.mem_cons_of_mem t hu)
    cases hrole : t.role with
    | initializer data =>
      simp [hrole, Role.isInitializer, ih, hall t List.mem_cons_self]
    | input => simp [hrole, Role.isInitializer, ih]
    | intermediate => simp [hrole, Role.isInitializer, ih]
    | output => simp [hrole, Role.isInitializer, ih]

/-- What a file declares, as arrays and as parameters, is declared once. -/
theorem declared_nodup (h : g.Built m) :
    (g.arrayNames ++ g.parameters.map RegisteredTensor.cName).Nodup := by
  rw [h.arrayNames_eq, ← List.map_append]
  have htensors : g.registry.tensors.Nodup := h.cNames_nodup.of_map
  have hmem : ∀ t ∈ g.registry.tensors.filter (·.role.isInitializer) ++ g.registry.intermediates
      ++ g.parameters, t ∈ g.registry.tensors := by
    intro t ht
    rcases List.mem_append.1 ht with ht | ht
    · rcases List.mem_append.1 ht with ht | ht
      · exact (List.mem_filter.1 ht).1
      · exact (List.mem_filter.1 ht).1
    · exact (h.mem_parameters.1 ht).1
  refine List.Nodup.map_on ?_ ?_
  · intro t ht u hu hsame
    exact List.inj_on_of_nodup_map h.cNames_nodup (hmem t ht) (hmem u hu) hsame
  · -- The three parts hold tensors of different roles.
    have hparameters : g.parameters.Nodup := h.parameters_nodup.of_map
    refine List.nodup_append.2 ⟨List.nodup_append.2 ⟨htensors.filter _, htensors.filter _, ?_⟩,
      hparameters, ?_⟩
    · rintro t ht _ hu rfl
      have hinitializer : t.role.isInitializer = true := (List.mem_filter.1 ht).2
      have hintermediate : t.role = .intermediate := by simpa using (List.mem_filter.1 hu).2
      rw [hintermediate] at hinitializer
      cases hinitializer
    · rintro t ht _ hu rfl
      have hparameter := (h.mem_parameters.1 hu).2
      rcases List.mem_append.1 ht with ht | ht
      · have hinitializer : t.role.isInitializer = true := (List.mem_filter.1 ht).2
        rcases hparameter with hrole | hrole <;> rw [hrole] at hinitializer <;> cases hinitializer
      · have hintermediate : t.role = .intermediate := by simpa using (List.mem_filter.1 ht).2
        rcases hparameter with hrole | hrole <;> rw [hrole] at hintermediate <;> cases hintermediate

/-- Every tensor is declared, as an array of the file or as a parameter. -/
theorem declared (h : g.Built m) {t : RegisteredTensor} (ht : t ∈ g.registry.tensors) :
    ((t.role = .input ∨ t.role = .output) ∧ t ∈ g.parameters) ∨
      (((∃ data, t.role = .initializer data) ∨ t.role = .intermediate) ∧ t.cName ∈ g.arrayNames) := by
  rw [h.arrayNames_eq]
  cases hrole : t.role with
  | input => exact .inl ⟨.inl rfl, h.mem_parameters.2 ⟨ht, .inl hrole⟩⟩
  | output => exact .inl ⟨.inr rfl, h.mem_parameters.2 ⟨ht, .inr hrole⟩⟩
  | initializer data =>
    refine .inr ⟨.inl ⟨data, rfl⟩, List.mem_map_of_mem (List.mem_append_left _ ?_)⟩
    exact List.mem_filter.2 ⟨ht, by rw [hrole]; rfl⟩
  | intermediate =>
    refine .inr ⟨.inr rfl, List.mem_map_of_mem (List.mem_append_right _ ?_)⟩
    exact List.mem_filter.2 ⟨ht, by rw [hrole]; rfl⟩

end Built

/-! ## The property -/

/-- A graph in whose file no name is declared twice or captured. -/
structure DistinctNames (m : Model) (g : Graph) : Prop where
  functions_nodup : (g.routines.map Routine.functionName).Nodup
  cNames_nodup : (g.registry.tensors.map RegisteredTensor.cName).Nodup
  cName_ne_function : ∀ t ∈ g.registry.tensors, ∀ r ∈ g.routines, t.cName ≠ r.functionName
  /-- Line by line, the file declares its arrays under these names. -/
  arrays_declared : List.Forall₂ (fun line name => ∃ storage type shape rest,
      (storage = "static const " ∨ storage = "static ") ∧
        line = storage ++ C.declaration type name shape ++ rest)
    g.arrayLines g.arrayNames
  /-- The parameters of `entry` are the inputs and then the outputs of the model, each once. -/
  entryParameters_eq : g.entryParameters = g.parameters.map entryParameter
  parameters_names : g.parameters.map (·.tensor.name) = m.inputs.map Tensor.name ++ m.outputs
  parameters_roles : g.parameters.map RegisteredTensor.role =
    m.inputs.map (fun _ => Role.input) ++ m.outputs.map fun _ => Role.output
  parameters_nodup : (g.parameters.map (·.tensor.name)).Nodup
  mem_parameters : ∀ t, t ∈ g.parameters ↔
    t ∈ g.registry.tensors ∧ (t.role = .input ∨ t.role = .output)
  /-- An argument is the name of a registered tensor, which is declared exactly once: as a
  parameter, or else as an array of the file. -/
  arguments_declared : ∀ r ∈ g.routines, List.Forall₂
    (fun b argument => ∃ t, g.registry.get? b.tensor.name = some t ∧ argument = t.cName ∧
      (((t.role = .input ∨ t.role = .output) ∧ t ∈ g.parameters) ∨
        (((∃ data, t.role = .initializer data) ∨ t.role = .intermediate) ∧
          g.arrayNames.count argument = 1)) ∧
      (g.arrayNames ++ g.parameters.map RegisteredTensor.cName).count argument = 1)
    r.bindings (g.arguments r)

end Graph

end Stencil
