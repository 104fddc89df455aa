import Stencil.Proofs.RegistryCalls
import Stencil.Proofs.Building

/-!
# The order of outputs

A tensor that becomes an output gives up the name of its array and takes one without the mark. What
becomes of a graph depends on which outputs there are and not on their order, with one exception: an
output cannot take the name of an array whose own turn is still to come.
-/

namespace Stencil

/-- No name is that of the array that stands for a later output until it is marked. -/
def InTurn (names : List String) : Prop :=
  names.Pairwise fun name later => C.identifier name ≠ "tensor_" ++ C.identifier later

instance (names : List String) : Decidable (InTurn names) :=
  inferInstanceAs (Decidable (List.Pairwise _ names))

namespace Registry

variable {r r' : Registry} {names : List String}

/-- The tensors of the given names can become outputs, as far as their order is of no account. -/
structure CanMark (r : Registry) (names : List String) : Prop where
  nodup : names.Nodup
  intermediate : ∀ name ∈ names, ∃ t, ⟨t, .intermediate⟩ ∈ r.tensors ∧ t.name = name
  /-- What has the C name of an output is an output itself. -/
  released : ∀ name ∈ names, ∀ t ∈ r.tensors, t.cName = C.identifier name → t.tensor.name ∈ names

theorem CanMark.perm {names' : List String} (h : r.CanMark names) (hperm : names'.Perm names) :
    r.CanMark names' where
  nodup := hperm.nodup_iff.2 h.nodup
  intermediate name hname := h.intermediate name (hperm.mem_iff.1 hname)
  released name hname t ht hcName := hperm.mem_iff.2 (h.released name (hperm.mem_iff.1 hname) t ht hcName)

theorem Indexed.eq_of_cName_eq (h : r.Indexed) {t u : RegisteredTensor} (ht : t ∈ r.tensors)
    (hu : u ∈ r.tensors) (hcName : t.cName = u.cName) : t = u :=
  List.inj_on_of_nodup_map h.byCName.nodup ht hu hcName

/-- A tensor that is marked leaves its place to an output, and all others stay. -/
theorem Indexed.mem_markOutput (h : r.Indexed) {name : String} (hr : r.markOutput name = .ok r')
    {t : RegisteredTensor} :
    t ∈ r'.tensors ↔ (t ∈ r.tensors ∧ t.tensor.name ≠ name) ∨
      ∃ u, ⟨u, .intermediate⟩ ∈ r.tensors ∧ u.name = name ∧ t = ⟨u, .output⟩ := by
  obtain ⟨-, htensors, ⟨old, _⟩, hold, rfl, rfl⟩ := h.markOutput_eq_ok hr
  rw [htensors, List.mem_map]
  constructor
  · rintro ⟨u, hu, rfl⟩
    by_cases hname : u.tensor.name = old.name
    · obtain rfl := h.eq_of_name_eq hu hold hname
      exact .inr ⟨old, hold, rfl, marked_singleton rfl⟩
    · have hsame : u.marked [old.name] = u := if_neg (by simpa using hname)
      rw [hsame]
      exact .inl ⟨hu, hname⟩
  · rintro (⟨ht, hname⟩ | ⟨u, hu, hname, rfl⟩)
    · exact ⟨t, ht, if_neg (by simpa using hname)⟩
    · exact ⟨_, hu, marked_singleton hname⟩

/-- What is asked of the names behind the first one is the same after the first has been marked. -/
theorem Indexed.canMark_cons_iff (h : r.Indexed) {name : String} (hr : r.markOutput name = .ok r') :
    r.CanMark (name :: names) ∧ InTurn (name :: names) ↔ r'.CanMark names ∧ InTurn names := by
  have hperform : r.perform (.markOutput name) = .ok r' := hr
  obtain ⟨⟨⟨first, hfirst, hname⟩, hfresh⟩, -⟩ := h.perform_eq_ok hperform
  constructor
  · rintro ⟨hmark, hturn⟩
    obtain ⟨hnotMem, hnodup⟩ := List.nodup_cons.1 hmark.nodup
    refine ⟨⟨hnodup, fun other hother => ?_, fun other hother t ht hcName => ?_⟩, hturn.of_cons⟩
    · obtain ⟨t, ht, rfl⟩ := hmark.intermediate other (List.mem_cons_of_mem name hother)
      exact ⟨t, (h.mem_markOutput hr).2 (.inl ⟨ht, fun hsame => hnotMem (hsame ▸ hother)⟩), rfl⟩
    · rcases (h.mem_markOutput hr).1 ht with ⟨ht, hne⟩ | ⟨u, hu, rfl, rfl⟩
      · have hmem := hmark.released other (List.mem_cons_of_mem name hother) t ht hcName
        exact (List.mem_cons.1 hmem).resolve_left hne
      · -- Two intermediate tensors would share the name of their arrays.
        obtain ⟨w, hw, rfl⟩ := hmark.intermediate other (List.mem_cons_of_mem _ hother)
        have harrays : RegisteredTensor.cName ⟨u, .intermediate⟩ = RegisteredTensor.cName ⟨w, .intermediate⟩ :=
          congrArg ("tensor_" ++ ·) hcName
        obtain rfl : u = w := congrArg RegisteredTensor.tensor (h.eq_of_cName_eq hu hw harrays)
        exact hother
  · rintro ⟨hmark, hturn⟩
    have hintermediate : ∀ other ∈ names, ∃ t, ⟨t, .intermediate⟩ ∈ r.tensors ∧ t.name = other ∧ other ≠ name := by
      intro other hother
      obtain ⟨t, ht, rfl⟩ := hmark.intermediate other hother
      rcases (h.mem_markOutput hr).1 ht with ⟨ht, hne⟩ | ⟨_, -, -, heq⟩
      · exact ⟨t, ht, rfl, hne⟩
      · cases heq
    refine ⟨⟨List.nodup_cons.2 ⟨fun hmem => ?_, hmark.nodup⟩, ?_, ?_⟩, List.pairwise_cons.2 ⟨?_, hturn⟩⟩
    · obtain ⟨_, -, -, hne⟩ := hintermediate name hmem
      exact hne rfl
    · rintro other hother
      rcases List.mem_cons.1 hother with rfl | hother
      · exact ⟨first, hfirst, hname⟩
      · obtain ⟨t, ht, hsame, -⟩ := hintermediate other hother
        exact ⟨t, ht, hsame⟩
    · intro other hother t ht hcName
      rcases List.mem_cons.1 hother with rfl | hother
      · exact absurd (List.mem_map.2 ⟨t, ht, hcName⟩) hfresh
      · by_cases hsame : t.tensor.name = name
        · exact hsame ▸ List.mem_cons_self
        · refine List.mem_cons_of_mem name (hmark.released other hother t ?_ hcName)
          exact (h.mem_markOutput hr).2 (.inl ⟨ht, hsame⟩)
    · rintro later hlater hsame
      obtain ⟨t, ht, rfl, -⟩ := hintermediate later hlater
      exact hfresh (List.mem_map.2 ⟨_, ht, hsame.symm⟩)

/-- The first name can be marked if all of them can, in this order. -/
theorem Indexed.accepts_of_canMark (h : r.Indexed) {name : String} (hmark : r.CanMark (name :: names))
    (hturn : InTurn (name :: names)) : r.Accepts (.markOutput name) := by
  refine ⟨hmark.intermediate name List.mem_cons_self, fun htaken => ?_⟩
  obtain ⟨t, ht, hcName⟩ := List.mem_map.1 htaken
  -- The name would be that of an array: its own, or that of a later output.
  obtain ⟨u, hu, hname⟩ := hmark.intermediate _ (hmark.released name List.mem_cons_self t ht hcName)
  obtain rfl : ⟨u, .intermediate⟩ = t := h.eq_of_name_eq hu ht hname
  rcases List.mem_cons.1 (hmark.released name List.mem_cons_self _ ht hcName) with hsame | hlater
  · exact tensor_append_ne (C.identifier name) (hsame ▸ hcName)
  · exact (List.pairwise_cons.1 hturn).1 _ hlater hcName.symm

/-- Which names can be marked one after another, and what their order has to do with it. -/
theorem Indexed.exists_foldlM_markOutput_iff (h : r.Indexed) :
    (∃ r', names.foldlM Registry.markOutput r = .ok r') ↔ r.CanMark names ∧ InTurn names := by
  induction names generalizing r with
  | nil => exact iff_of_true ⟨r, rfl⟩ ⟨⟨List.nodup_nil, nofun, nofun⟩, List.Pairwise.nil⟩
  | cons name names ih =>
    rw [List.foldlM_cons, Except.exists_bind_eq_ok]
    constructor
    · rintro ⟨marked, hmarked, hrest⟩
      rw [h.canMark_cons_iff hmarked]
      exact (ih (h.markOutput_eq_ok hmarked).1).1 hrest
    · rintro ⟨hmark, hturn⟩
      obtain ⟨marked, hmarked⟩ : ∃ marked, r.markOutput name = .ok marked :=
        h.perform_of_accepts (h.accepts_of_canMark hmark hturn)
      refine ⟨marked, hmarked, (ih (h.markOutput_eq_ok hmarked).1).2 ?_⟩
      exact (h.canMark_cons_iff hmarked).1 ⟨hmark, hturn⟩

/-- Registries with the same tensors find the same ones. -/
theorem Indexed.lookups_eq (h : r.Indexed) (h' : r'.Indexed) (htensors : r'.tensors = r.tensors) :
    r'.get? = r.get? ∧ r'.getByCName? = r.getByCName? := by
  constructor <;> funext name <;> refine Option.ext fun t => ?_
  · rw [h.get?_eq_some, h'.get?_eq_some, htensors]
  · refine h'.byCName.find?_bind.trans (Iff.trans ?_ h.byCName.find?_bind.symm)
    rw [htensors]

end Registry

theorem RegisteredTensor.marked_of_perm {names names' : List String} (hperm : names'.Perm names) :
    RegisteredTensor.marked names' = RegisteredTensor.marked names := by
  funext t
  simp only [marked, hperm.mem_iff]

/-! ## The end of a build -/

namespace BuildState

variable {s : BuildState}

/-- What is left of a build succeeds, as far as the order of the outputs is of no account. -/
structure CanFinish (s : BuildState) (outputs : List String) : Prop where
  canMark : s.registry.CanMark outputs
  functions_fresh : ∀ r ∈ s.routines,
    r.functionName ∉ (s.registry.tensors.map (·.marked outputs)).map RegisteredTensor.cName

theorem CanFinish.perm {outputs outputs' : List String} (h : s.CanFinish outputs)
    (hperm : outputs'.Perm outputs) : s.CanFinish outputs' where
  canMark := h.canMark.perm hperm
  functions_fresh := by
    rw [RegisteredTensor.marked_of_perm hperm]
    exact h.functions_fresh

end BuildState

namespace Graph

variable {m : Model} {options : Options} {outputs : List String}

/-- When a build succeeds, with what the order of the outputs has to do with it set apart. -/
theorem exists_build_iff :
    (∃ g, Graph.build m options = .ok g) ↔
      (∃ s, m.stateBefore options m.nodes.length = .ok s ∧ s.CanFinish m.outputs) ∧ InTurn m.outputs := by
  constructor
  · rintro ⟨g, hg⟩
    obtain ⟨s, registry, hs, hregistry, hfresh, -⟩ := build_eq_ok_iff.1 hg
    have hindexed := (Model.grown_stateBefore hs).indexed
    obtain ⟨hmark, hturn⟩ := hindexed.exists_foldlM_markOutput_iff.1 ⟨registry, hregistry⟩
    rw [(hindexed.foldlM_markOutput_eq_ok hregistry).2.1] at hfresh
    exact ⟨⟨s, hs, hmark, hfresh⟩, hturn⟩
  · rintro ⟨⟨s, hs, hmark, hfresh⟩, hturn⟩
    have hindexed := (Model.grown_stateBefore hs).indexed
    obtain ⟨registry, hregistry⟩ := hindexed.exists_foldlM_markOutput_iff.2 ⟨hmark, hturn⟩
    rw [← (hindexed.foldlM_markOutput_eq_ok hregistry).2.1] at hfresh
    exact ⟨_, build_eq_ok_iff.2 ⟨s, registry, hs, hregistry, hfresh, rfl⟩⟩

theorem exists_build_of_perm (hperm : outputs.Perm m.outputs) (h : ∃ g, Graph.build m options = .ok g)
    (hturn : InTurn outputs) : ∃ g, Graph.build { m with outputs } options = .ok g := by
  obtain ⟨⟨s, hs, hfinish⟩, -⟩ := exists_build_iff.1 h
  exact exists_build_iff.2 ⟨⟨s, hs, hfinish.perm hperm⟩, hturn⟩

/-- An order of the outputs is accepted if and only if some order is and no output has the name of an
array whose turn is still to come. Of the graph that is built, the order decides nothing else: its
tensors with their roles and C names and its routines are the same, and found alike. -/
theorem build_of_perm (m : Model) (options : Options) {outputs : List String}
    (hperm : outputs.Perm m.outputs) :
    ((∃ g, Graph.build { m with outputs } options = .ok g) ↔
        InTurn outputs ∧ ∃ order : List String, order.Perm m.outputs ∧
          ∃ g, Graph.build { m with outputs := order } options = .ok g) ∧
      ∀ g g', Graph.build m options = .ok g → Graph.build { m with outputs } options = .ok g' →
        g'.registry.tensors = g.registry.tensors ∧ g'.routines = g.routines ∧
          g'.registry.get? = g.registry.get? ∧ g'.registry.getByCName? = g.registry.getByCName? := by
  refine ⟨⟨fun h => ?_, ?_⟩, fun g g' hg hg' => ?_⟩
  · exact ⟨(exists_build_iff.1 h).2, outputs, hperm, h⟩
  · rintro ⟨hturn, order, horder, h⟩
    exact exists_build_of_perm (m := { m with outputs := order }) (hperm.trans horder.symm) h hturn
  · obtain ⟨s, registry, hs, hregistry, -, rfl⟩ := build_eq_ok_iff.1 hg
    obtain ⟨s', registry', hs', hregistry', -, rfl⟩ := build_eq_ok_iff.1 hg'
    obtain rfl : s = s' := Except.ok.inj (hs.symm.trans hs')
    have hindexed := (Model.grown_stateBefore hs).indexed
    obtain ⟨hindexed₁, htensors, -⟩ := hindexed.foldlM_markOutput_eq_ok hregistry
    obtain ⟨hindexed₂, htensors', -⟩ := hindexed.foldlM_markOutput_eq_ok hregistry'
    have hsame : registry'.tensors = registry.tensors := by
      rw [htensors, htensors', RegisteredTensor.marked_of_perm hperm]
    exact ⟨hsame, rfl, hindexed₁.lookups_eq hindexed₂ hsame⟩

end Graph

/-- Nodes that all read the same tensors, and write one of their own name each. -/
def parallel (names outputs : List String) : Model where
  inputs := [⟨"x", .uint8, [1, 1, 1, 1]⟩]
  initializers := [⟨⟨"w", .int8, [1, 1, 1, 1]⟩, .ints [3]⟩]
  nodes := names.map fun name =>
    { operatorName := "ConvInteger", name, inputs := ["x", "w"], outputs := [name] }
  outputs := outputs

/-- As long as `y` comes before `tensor_y`, the third output may stand anywhere. -/
theorem build_of_perm_parallel :
    ∃ g g', Graph.build (parallel ["y", "tensor_y", "z"] ["y", "tensor_y", "z"]) ⟨false⟩ = .ok g ∧
      Graph.build (parallel ["y", "tensor_y", "z"] ["z", "y", "tensor_y"]) ⟨false⟩ = .ok g' ∧
      g'.registry.tensors = g.registry.tensors ∧
      ¬ ∃ g, Graph.build (parallel ["y", "tensor_y", "z"] ["tensor_y", "z", "y"]) ⟨false⟩ = .ok g := by
  obtain ⟨g, hg⟩ : ∃ g, Graph.build (parallel ["y", "tensor_y", "z"] ["y", "tensor_y", "z"]) ⟨false⟩ = .ok g :=
    ⟨_, rfl⟩
  have hperm : ["z", "y", "tensor_y"].Perm ["y", "tensor_y", "z"] := by decide
  have hlate : ["tensor_y", "z", "y"].Perm ["y", "tensor_y", "z"] := by decide
  have hsame := Graph.build_of_perm (parallel ["y", "tensor_y", "z"] ["y", "tensor_y", "z"]) ⟨false⟩ hperm
  have hfails := Graph.build_of_perm (parallel ["y", "tensor_y", "z"] ["y", "tensor_y", "z"]) ⟨false⟩ hlate
  obtain ⟨g', hg'⟩ := hsame.1.2 ⟨by decide, _, List.Perm.refl _, g, hg⟩
  exact ⟨g, g', hg, hg', (hsame.2 g g' hg hg').1, fun h => absurd (hfails.1.1 h).1 (by decide)⟩

/-- The array of `y` has the name of the output `tensor_y` until `y` is marked. -/
theorem build_lateRelease :
    ["tensor_y", "y"].Perm ["y", "tensor_y"] ∧
      (∃ g, Graph.build (parallel ["y", "tensor_y"] ["y", "tensor_y"]) ⟨false⟩ = .ok g) ∧
      Graph.build (parallel ["y", "tensor_y"] ["tensor_y", "y"]) ⟨false⟩ =
        .error (.nameCollision "y" "tensor_y" "tensor_y") :=
  ⟨by decide, ⟨_, rfl⟩, rfl⟩

end Stencil
