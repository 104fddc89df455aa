import Stencil.Proofs.Building
import Stencil.Proofs.RegistryCalls

/-!
# Name collisions

A build that ends with a name collision names two different things of the model. Each of
them has the C name of the error in the finished file, or else it is an output whose array
had that name before it was marked. Such an array is never declared, so that a build may be
refused although its names are distinct.
-/

namespace Stencil

/-! ## Names in the finished file -/

/-- What has a C name in the file of a model. -/
inductive Holder where
  /-- An input or an initializer. -/
  | given (t : RegisteredTensor)
  /-- The tensor that a node writes under a name. -/
  | written (name : String)
  /-- The function of a node. -/
  | function (node : String)
deriving DecidableEq, Repr

namespace Holder

def name : Holder → String
  | given t => t.tensor.name
  | written name => name
  | function node => node

/-- The C name in the finished file, given the outputs of the model. -/
def cName (outputs : List String) : Holder → String
  | given t => t.cName
  | written name =>
    if name ∈ outputs then C.identifier name else "tensor_" ++ C.identifier name
  | function node => "node_" ++ C.identifier node

/-- Whether the C name is that of the finished file, or that of the array that stands for an
output until it is marked. -/
def Claims (outputs : List String) (cName : String) (h : Holder) : Prop :=
  h.cName outputs = cName ∨
    ∃ name ∈ outputs, h = written name ∧ cName = "tensor_" ++ C.identifier name

end Holder

/-- Everything that has a C name: what is given, what the nodes write, and their functions. -/
def Model.holders (m : Model) : List Holder :=
  m.given.map .given ++ m.nodes.flatMap (fun n => n.outputs.map .written)
    ++ m.nodes.mapIdx fun position n => .function (n.fullName position)

/-- Two different things of these names claim the same C name. -/
def Model.Collides (m : Model) (first second cName : String) : Prop :=
  ∃ a ∈ m.holders, ∃ b ∈ m.holders, a ≠ b ∧ a.name = first ∧ b.name = second ∧
    a.Claims m.outputs cName ∧ b.Claims m.outputs cName

/-! ## Errors of a registry -/

namespace Registry

variable {r : Registry} {first second cName : String}

theorem Indexed.checkCName_eq_error (h : r.Indexed) {name : String} {e : BuildError}
    (he : r.checkCName cName name = .error e) :
    ∃ t ∈ r.tensors, t.cName = cName ∧ t.tensor.name ≠ name ∧
      e = .nameCollision t.tensor.name name cName := by
  unfold checkCName at he
  split at he
  next existing hexisting =>
    obtain ⟨hmem, hcName⟩ := h.byCName.find?_bind.1 hexisting
    split at he
    next => cases he
    next hne => exact ⟨existing, hmem, hcName, hne, (Except.error.inj he).symm⟩
  next => cases he

/-- A collision at registration: a tensor of another name has the new C name. -/
theorem Indexed.register_eq_nameCollision (h : r.Indexed) {t : Tensor} {role : Role}
    (he : r.register t role = .error (.nameCollision first second cName)) :
    t.name = second ∧ RegisteredTensor.cName ⟨t, role⟩ = cName ∧
      ∃ u ∈ r.tensors, u.cName = cName ∧ u.tensor.name = first ∧ first ≠ second := by
  unfold register at he
  split at he
  next => cases he
  next =>
    rcases Except.bind_eq_error.1 he with he | ⟨_, -, he⟩
    · -- Values that do not fit are another error.
      cases role with
      | initializer data =>
        obtain ⟨_, -, he⟩ := Except.mapError_eq_error.1 he
        cases he
      | _ => cases he
    · rcases Except.bind_eq_error.1 he with he | ⟨_, -, he⟩
      · obtain ⟨u, hu, hcName, hne, heq⟩ := h.checkCName_eq_error he
        injection heq with hfirst hsecond hc
        subst hfirst hsecond hc
        exact ⟨rfl, rfl, u, hu, hcName, rfl, hne⟩
      · cases he

/-- A collision at an output: a tensor of another name has its C name as a parameter. -/
theorem Indexed.markOutput_eq_nameCollision (h : r.Indexed) {name : String}
    (he : r.markOutput name = .error (.nameCollision first second cName)) :
    name = second ∧ C.identifier name = cName ∧
      (∃ t, ⟨t, .intermediate⟩ ∈ r.tensors ∧ t.name = name) ∧
      ∃ u ∈ r.tensors, u.cName = cName ∧ u.tensor.name = first ∧ first ≠ second := by
  rcases Except.bind_eq_error.1 he with he | ⟨position, hposition, he⟩
  · rcases intermediatePosition_eq_error he with h | h | h <;> cases h
  · rcases Except.bind_eq_error.1 he with he | ⟨_, -, he⟩
    · obtain ⟨hfind, hrole⟩ := intermediatePosition_eq_ok.1 hposition
      obtain ⟨⟨t, _⟩, ht, rfl⟩ := Option.map_eq_some_iff.1 hrole
      have hname : t.name = name := by
        have hkey := (h.byName name position).1 hfind
        rw [ht] at hkey
        exact Option.some.inj hkey
      obtain ⟨u, hu, hcName, hne, heq⟩ := h.checkCName_eq_error he
      injection heq with hfirst hsecond hc
      subst hfirst hsecond hc
      exact ⟨rfl, rfl, ⟨t, List.mem_of_getElem? ht, hname⟩, u, hu, hcName, rfl, hne⟩
    · cases he

end Registry

/-! ## Steps of a model -/

namespace Model

variable {m : Model}

theorem mem_steps_register {t : Tensor} {role : Role} :
    .register t role ∈ m.steps ↔ ⟨t, role⟩ ∈ m.given := by
  simp only [steps_eq, List.mem_append, List.mem_map, List.mem_mapIdx, List.mem_singleton, reduceCtorEq,
    BuildStep.register.injEq, and_false, exists_false, or_false]
  constructor
  · rintro ⟨_, ht, rfl, rfl⟩
    exact ht
  · exact fun ht => ⟨_, ht, rfl, rfl⟩

theorem mem_steps_resolve {position : Nat} {n : NodeDescription} :
    .resolve position n ∈ m.steps ↔ m.nodes[position]? = some n := by
  simp [steps_eq, List.getElem?_eq_some_iff]

theorem mem_steps_markOutput {name : String} : .markOutput name ∈ m.steps ↔ name ∈ m.outputs := by
  simp [steps_eq]

end Model

/-! ## What is registered while a model is built -/

/-- What a registered tensor is in the model: given, or written by a node, and then an output
only once it has been marked. -/
inductive Model.Stores (m : Model) : RegisteredTensor → Holder → Prop where
  | given {t : RegisteredTensor} : t ∈ m.given → Stores m t (.given t)
  | array {t : Tensor} : Holder.written t.name ∈ m.holders →
      Stores m ⟨t, .intermediate⟩ (.written t.name)
  | output {t : Tensor} : Holder.written t.name ∈ m.holders → t.name ∈ m.outputs →
      Stores m ⟨t, .output⟩ (.written t.name)

namespace Model.Stores

variable {m : Model} {t : RegisteredTensor} {h : Holder}

theorem mem_holders (hs : m.Stores t h) : h ∈ m.holders := by
  cases hs with
  | given ht => exact List.mem_append_left _ (List.mem_append_left _ (List.mem_map_of_mem ht))
  | array hmem | output hmem _ => exact hmem

theorem name_eq (hs : m.Stores t h) : h.name = t.tensor.name := by
  cases hs <;> rfl

theorem ne_function (hs : m.Stores t h) (node : String) : h ≠ .function node := by
  cases hs <;> nofun

/-- The C name in the registry is that of the finished file, unless it is that of an output that
has not been marked. -/
theorem claims (hs : m.Stores t h) : h.Claims m.outputs t.cName := by
  cases hs with
  | given _ => exact .inl rfl
  | @array t _ =>
    by_cases hname : t.name ∈ m.outputs
    · exact .inr ⟨t.name, hname, rfl, rfl⟩
    · exact .inl (if_neg hname)
  | output _ hname => exact .inl (if_pos hname)

end Model.Stores

/-- What is known of a build at any of its steps. -/
structure BuildState.Accounted (m : Model) (s : BuildState) : Prop where
  indexed : s.registry.Indexed
  tensors : ∀ t ∈ s.registry.tensors, ∃ h, m.Stores t h
  routines : ∀ r ∈ s.routines, Holder.function r.name ∈ m.holders

namespace BuildState

variable {m : Model} {s s' : BuildState} {options : Options}

/-- A routine has the full name of its node and writes what the node says. -/
theorem routine_eq_ok_names {position : Nat} {n : NodeDescription} {r : Routine}
    (hr : s.routine options position n = .ok r) :
    r.name = n.fullName position ∧ n.outputs = [r.output.name] := by
  obtain ⟨node, hnode, hresolve⟩ := Except.bind_eq_ok.1 hr
  rw [Except.mapError_eq_ok] at hresolve
  have hresolves := Node.resolve_eq_ok hresolve
  rw [hresolves.name_eq, ← hresolves.outputs_eq]
  unfold BuildState.node at hnode
  dsimp only at hnode
  split at hnode
  next => cases hnode
  next =>
    split at hnode
    next => cases hnode
    next =>
      obtain ⟨inputs, -, hnode⟩ := Except.bind_eq_ok.1 hnode
      obtain rfl := Except.pure_eq_ok.1 hnode
      exact ⟨rfl, rfl⟩

theorem routine_ne_nameCollision {position : Nat} {n : NodeDescription}
    {first second cName : String} :
    s.routine options position n ≠ .error (.nameCollision first second cName) := by
  intro he
  rcases Except.bind_eq_error.1 he with he | ⟨node, -, he⟩
  · rcases node_eq_error he with h | h | ⟨_, -, h⟩ <;> cases h
  · obtain ⟨_, -, he⟩ := Except.mapError_eq_error.1 he
    cases he

/-- A routine of a model belongs to one of its nodes. -/
theorem holders_of_routine {position : Nat} {n : NodeDescription} (hn : m.nodes[position]? = some n)
    {r : Routine} (hr : s.routine options position n = .ok r) :
    .written r.output.name ∈ m.holders ∧ .function r.name ∈ m.holders := by
  obtain ⟨hname, houtputs⟩ := routine_eq_ok_names hr
  obtain ⟨hposition, hget⟩ := List.getElem?_eq_some_iff.1 hn
  constructor
  · refine List.mem_append_left _ (List.mem_append_right _ ?_)
    refine List.mem_flatMap.2 ⟨n, List.mem_of_getElem? hn, ?_⟩
    rw [houtputs]
    exact List.mem_singleton_self _
  · refine List.mem_append_right _ (List.mem_mapIdx.2 ⟨position, hposition, ?_⟩)
    rw [hget, hname]

/-- A step of building a model, whatever came before. -/
theorem Accounted.apply (h : Accounted m s) {step : BuildStep} (hstep : step ∈ m.steps)
    (hs : s.apply options step = .ok s') : Accounted m s' := by
  have hindexed := indexed_apply h.indexed hs
  cases step with
  | register t role =>
    obtain ⟨registry, hregister, hs⟩ := Except.bind_eq_ok.1 hs
    obtain rfl := Except.pure_eq_ok.1 hs
    obtain ⟨-, htensors⟩ := h.indexed.register_eq_ok hregister
    refine ⟨hindexed, fun u hu => ?_, h.routines⟩
    rw [htensors, List.mem_append, List.mem_singleton] at hu
    rcases hu with hu | rfl
    · exact h.tensors u hu
    · exact ⟨_, .given (Model.mem_steps_register.1 hstep)⟩
  | resolve position n =>
    obtain ⟨r, hr, hs⟩ := Except.bind_eq_ok.1 hs
    obtain ⟨registry, hregister, hs⟩ := Except.bind_eq_ok.1 hs
    obtain rfl := Except.pure_eq_ok.1 hs
    obtain ⟨-, htensors⟩ := h.indexed.register_eq_ok hregister
    obtain ⟨hwritten, hfunction⟩ := holders_of_routine (Model.mem_steps_resolve.1 hstep) hr
    refine ⟨hindexed, fun u hu => ?_, fun r' hr' => ?_⟩
    · rw [htensors, List.mem_append, List.mem_singleton] at hu
      rcases hu with hu | rfl
      · exact h.tensors u hu
      · exact ⟨_, .array hwritten⟩
    · rcases List.mem_append.1 hr' with hr' | hr'
      · exact h.routines r' hr'
      · rwa [List.mem_singleton.1 hr']
  | markOutput name =>
    obtain ⟨registry, hmark, hs⟩ := Except.bind_eq_ok.1 hs
    obtain rfl := Except.pure_eq_ok.1 hs
    refine ⟨hindexed, fun u hu => ?_, h.routines⟩
    have hperform : s.registry.perform (.markOutput name) = .ok registry := hmark
    obtain ⟨-, position, t, ht, hname, htensors⟩ := h.indexed.perform_eq_ok hperform
    rw [htensors] at hu
    rcases List.mem_or_eq_of_mem_set hu with hu | rfl
    · exact h.tensors u hu
    · -- What was intermediate is written by a node, under the name that is marked.
      have hnamed : t.name ∈ m.outputs := hname ▸ Model.mem_steps_markOutput.1 hstep
      obtain ⟨_, hstores⟩ := h.tensors _ (List.mem_of_getElem? ht)
      cases hstores with
      | given hgiven => exact absurd rfl (Model.role_given hgiven)
      | array hmem => exact ⟨_, .output hmem hnamed⟩
  | checkFunctions =>
    obtain ⟨rfl, -⟩ := (checkFunctions_eq_ok h.indexed).1 hs
    exact h

/-- A new tensor that collides with a registered one. -/
theorem Accounted.collides (h : Accounted m s) {first cName : String} {b : Holder}
    (hb : b ∈ m.holders) (hclaims : b.Claims m.outputs cName)
    (ha : ∃ t ∈ s.registry.tensors, t.cName = cName ∧ t.tensor.name = first ∧ first ≠ b.name) :
    m.Collides first b.name cName := by
  obtain ⟨t, ht, rfl, rfl, hne⟩ := ha
  obtain ⟨a, ha⟩ := h.tensors t ht
  refine ⟨a, ha.mem_holders, b, hb, ?_, ha.name_eq, rfl, ha.claims, hclaims⟩
  rintro rfl
  exact hne ha.name_eq.symm

theorem Accounted.apply_eq_nameCollision (h : Accounted m s) {step : BuildStep} (hstep : step ∈ m.steps)
    {first second cName : String}
    (he : s.apply options step = .error (.nameCollision first second cName)) :
    m.Collides first second cName := by
  cases step with
  | register t role =>
    rcases Except.bind_eq_error.1 he with he | ⟨_, -, he⟩
    · obtain ⟨rfl, rfl, ha⟩ := h.indexed.register_eq_nameCollision he
      have hstores : m.Stores ⟨t, role⟩ _ := .given (Model.mem_steps_register.1 hstep)
      exact h.collides hstores.mem_holders hstores.claims ha
    · cases he
  | resolve position n =>
    rcases Except.bind_eq_error.1 he with he | ⟨r, hr, he⟩
    · exact absurd he routine_ne_nameCollision
    · rcases Except.bind_eq_error.1 he with he | ⟨_, -, he⟩
      · obtain ⟨hwritten, -⟩ := holders_of_routine (Model.mem_steps_resolve.1 hstep) hr
        obtain ⟨rfl, rfl, ha⟩ := h.indexed.register_eq_nameCollision he
        have hstores : m.Stores r.produced _ := .array hwritten
        exact h.collides hstores.mem_holders hstores.claims ha
      · cases he
  | markOutput name =>
    rcases Except.bind_eq_error.1 he with he | ⟨_, -, he⟩
    · obtain ⟨rfl, rfl, ⟨t, ht, rfl⟩, ha⟩ := h.indexed.markOutput_eq_nameCollision he
      obtain ⟨_, hstores⟩ := h.tensors _ ht
      cases hstores with
      | given hgiven => exact absurd rfl (Model.role_given hgiven)
      | array hmem =>
        have hstores : m.Stores ⟨t, .output⟩ _ := .output hmem (Model.mem_steps_markOutput.1 hstep)
        exact h.collides hstores.mem_holders hstores.claims ha
    · cases he
  | checkFunctions =>
    rcases Except.bind_eq_error.1 he with he | ⟨_, -, he⟩
    · obtain ⟨r, hr, he⟩ := Except.forM_eq_error he
      unfold checkFunction at he
      split at he
      next t ht =>
        injection he with he
        injection he with hfirst hsecond hc
        subst hfirst hsecond hc
        obtain ⟨hmem, hcName⟩ := h.indexed.byCName.find?_bind.1 ht
        obtain ⟨b, hb⟩ := h.tensors t hmem
        refine ⟨.function r.name, h.routines r hr, b, hb.mem_holders, (hb.ne_function _).symm, rfl,
          hb.name_eq, .inl rfl, hcName ▸ hb.claims⟩
      next => cases he
    · cases he

end BuildState

/-- A build that ends with a name collision names two different things of the model, and each of
them has the C name in the finished file, unless it is an output and the C name that of the array
that stood for it. -/
theorem Graph.build_nameCollision {m : Model} {options : Options} {first second cName : String}
    (h : Graph.build m options = .error (.nameCollision first second cName)) :
    m.Collides first second cName := by
  have hfold : m.steps.foldlM (BuildState.apply options) {} = .error (.nameCollision first second cName) := by
    rcases Except.bind_eq_error.1 h with h | ⟨_, -, h⟩
    · exact h
    · cases h
  have hstart : BuildState.Accounted m {} := ⟨.empty, fun _ ht => (nomatch ht), fun _ hr => (nomatch hr)⟩
  obtain ⟨s, hs, step, hstep, he⟩ :=
    Except.foldlM_eq_error (BuildState.Accounted m) (fun s hs step hstep s' => hs.apply hstep) hstart hfold
  exact hs.apply_eq_nameCollision hstep he

/-- One node that writes `y`, an output, from an input of the given name. -/
def renamedInput (name : String) : Model where
  inputs := [⟨name, .uint8, [1, 1, 1, 1]⟩]
  initializers := [⟨⟨"w", .int8, [1, 1, 1, 1]⟩, .ints [3]⟩]
  nodes := [{ operatorName := "ConvInteger", name := "conv", inputs := [name, "w"], outputs := ["y"] }]
  outputs := ["y"]

/-- An input that takes the name of the constant array is one of two things with that name. -/
theorem collides_arrayInput :
    Graph.build (renamedInput "tensor_w") ⟨false⟩ = .error (.nameCollision "tensor_w" "w" "tensor_w") ∧
      (renamedInput "tensor_w").Collides "tensor_w" "w" "tensor_w" := by
  have hbuild : Graph.build (renamedInput "tensor_w") ⟨false⟩ =
      .error (.nameCollision "tensor_w" "w" "tensor_w") := rfl
  exact ⟨hbuild, Graph.build_nameCollision hbuild⟩

/-- The file would have two parameters `tensor_y` and `y`, and no array of the first name. -/
theorem build_unmarkedOutput :
    Graph.build (renamedInput "tensor_y") ⟨false⟩ = .error (.nameCollision "tensor_y" "y" "tensor_y") ∧
      ∀ h ∈ (renamedInput "tensor_y").holders, h.name = "y" →
        h.cName (renamedInput "tensor_y").outputs = "y" := by
  refine ⟨rfl, ?_⟩
  decide +kernel

end Stencil
