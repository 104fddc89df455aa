import Stencil.Proofs.Coarse
import Stencil.Proofs.SingleAssignment

/-!
# Building with quantization

Quantization changes element types and nothing else. A model is built with it exactly when it
is built without it and all divisors fit, and the two graphs differ in the sums of integer
convolutions only: those are 8-bit integers in the one and 32-bit integers in the other.
-/

namespace Stencil

/-! ## The difference -/

/-- A tensor of the quantized graph and of the plain one: the sum of an integer convolution, or
else the same. -/
structure Tensor.Requantizes (sums : List String) (t u : Tensor) : Prop where
  name_eq : t.name = u.name
  shape_eq : t.shape = u.shape
  types_of_sum : u.name ∈ sums → t.type = .int8 ∧ u.type = .int32
  type_eq : u.name ∉ sums → t.type = u.type

structure RegisteredTensor.Requantizes (sums : List String) (t u : RegisteredTensor) : Prop where
  tensor : t.tensor.Requantizes sums u.tensor
  role_eq : t.role = u.role
  cName_eq : t.cName = u.cName

structure Binding.Requantizes (sums : List String) (b c : Binding) : Prop where
  localName_eq : b.localName = c.localName
  writable_eq : b.writable = c.writable
  tensor : b.tensor.Requantizes sums c.tensor

/-- Only the sums of an integer convolution are divided, by sixteen for each kernel position. -/
inductive Arithmetic.Requantizes (area : Nat) : Arithmetic → Arithmetic → Prop where
  | float (bias bias' : Option Tensor) : Requantizes area (.float bias) (.float bias')
  | integer {zero zero' : ZeroPoint} {divisor : Int32} :
    (∀ value, zero = .literal value ↔ zero' = .literal value) → divisor.toInt = 16 * area →
      Requantizes area (.integer zero (some divisor)) (.integer zero' none)

structure Routine.Requantizes (sums : List String) (r s : Routine) : Prop where
  name_eq : r.name = s.name
  operator_eq : r.operator = s.operator
  convolution_eq : r.convolution = s.convolution
  bindings : List.Forall₂ (Binding.Requantizes sums) r.bindings s.bindings
  arithmetic : r.arithmetic.Requantizes s.convolution.kernelArea s.arithmetic

namespace Graph

/-- The names of what the integer convolutions write. -/
def sums (g : Graph) : List String :=
  (g.routines.filter (·.operator = .convInteger)).map (·.output.name)

/-- A quantized graph and the plain one of the same model. -/
structure Requantizes (g p : Graph) : Prop where
  inputs_eq : g.inputs = p.inputs
  outputs_eq : g.outputs = p.outputs
  byName_eq : g.registry.byName = p.registry.byName
  byCName_eq : g.registry.byCName = p.registry.byCName
  tensors : List.Forall₂ (RegisteredTensor.Requantizes p.sums) g.registry.tensors p.registry.tensors
  routines : List.Forall₂ (Routine.Requantizes p.sums) g.routines p.routines

theorem mem_sums {g : Graph} {name : String} :
    name ∈ g.sums ↔ ∃ r ∈ g.routines, r.operator = .convInteger ∧ r.output.name = name := by
  simp [sums, and_assoc]

end Graph

/-! ## What the options decide -/

/-- The arithmetic of a routine and its output type under a flag. -/
inductive Arithmetic.Typed (quantize : Bool) (c : Convolution) : Arithmetic → ElementType → Prop where
  | float (bias : Option Tensor) : Typed quantize c (.float bias) .float32
  | integer (zero : ZeroPoint) {divisor : Option Int32} : c.divisor? quantize = .ok divisor →
      Typed quantize c (.integer zero divisor) (if quantize then .int8 else .int32)

theorem ZeroPoint.literal_iff_of_coarse {zero zero' : ZeroPoint} (h : zero.coarse = zero'.coarse)
    (value : Int32) : zero = .literal value ↔ zero' = .literal value := by
  cases zero <;> cases zero'
  · exact iff_of_false nofun nofun
  · cases h
  · cases h
  next v w =>
    obtain rfl : v = w := ZeroPoint.literal.inj h
    exact Iff.rfl

namespace Arithmetic

variable {c : Convolution} {a b : Arithmetic} {t u : ElementType}

theorem operator_eq_of_coarse (h : a.coarse = b.coarse) : a.operator = b.operator := by
  cases a <;> cases b <;> first | rfl | cases h

/-- A divisor that has been computed fits. -/
theorem Typed.fits (h : a.Typed true c t) (ha : a.operator = .convInteger) :
    16 * c.kernelArea ≤ 2 ^ 31 - 1 := by
  cases h with
  | float bias => cases ha
  | integer zero hdivisor => exact (Convolution.divisor?_eq_ok_iff.1 hdivisor).1 rfl

/-- The same arithmetic under both flags. -/
theorem Typed.requantizes (ha : a.Typed true c t) (hb : b.Typed false c u) (h : a.coarse = b.coarse) :
    a.Requantizes c.kernelArea b ∧ (b.operator = .convInteger → t = .int8 ∧ u = .int32) ∧
      (b.operator ≠ .convInteger → t = u) := by
  cases ha with
  | float bias =>
    cases hb with
    | float bias' => exact ⟨.float _ _, nofun, fun _ => rfl⟩
    | integer zero _ => cases h
  | integer zero hdivisor =>
    cases hb with
    | float bias' => cases h
    | integer zero' hdivisor' =>
      obtain ⟨hle, rfl⟩ := Convolution.divisor?_eq_ok_iff.1 hdivisor
      obtain ⟨-, rfl⟩ := Convolution.divisor?_eq_ok_iff.1 hdivisor'
      have hzero : zero.coarse = zero'.coarse := (Arithmetic.integer.inj h).1
      exact ⟨.integer (ZeroPoint.literal_iff_of_coarse hzero) (Convolution.toInt_divisor (hle rfl)),
        fun _ => ⟨rfl, rfl⟩, fun hne => absurd rfl hne⟩

end Arithmetic

namespace Node

variable {n : Node} {r : Routine}

theorem floatRoutine_type (h : n.floatRoutine = .ok r) : r.output.type = .float32 := by
  simp only [floatRoutine, Except.bind_eq_ok] at h
  obtain ⟨_, -, _, -, _, -, _, -, _, -, _, -, _, -, _, -, h⟩ := h
  exact Except.pure_eq_ok.1 h ▸ rfl

theorem integerRoutine_type {quantize : Bool} (h : n.integerRoutine quantize = .ok r) :
    r.output.type = if quantize then .int8 else .int32 := by
  simp only [integerRoutine, Except.bind_eq_ok] at h
  obtain ⟨_, -, _, -, _, -, _, -, _, -, _, -, _, -, _, -, _, -, h⟩ := h
  exact Except.pure_eq_ok.1 h ▸ rfl

theorem resolve_typed {options : Options} (h : n.resolve options = .ok r) :
    r.arithmetic.Typed options.quantize r.convolution r.output.type := by
  unfold resolve at h
  split at h
  next =>
    obtain ⟨-, -, -, -, harithmetic⟩ := floatRoutine_eq_ok h
    rw [harithmetic, floatRoutine_type h]
    exact .float _
  next =>
    obtain ⟨-, -, -, -, divisor, hdivisor, harithmetic⟩ := integerRoutine_eq_ok h
    rw [harithmetic, integerRoutine_type h]
    exact .integer _ hdivisor

end Node

/-! ## Routines of the same node -/

theorem Binding.coarse_eq_coarse {b c : Binding} :
    b.coarse = c.coarse ↔ b.localName = c.localName ∧ b.tensor.coarse = c.tensor.coarse ∧
      b.writable = c.writable := by
  simp [coarse]

namespace Routine

variable {r s : Routine}

theorem bindings_coarse (r : Routine) : r.coarse.bindings = r.bindings.map Binding.coarse := by
  obtain ⟨name, data, weights, c, arithmetic, output⟩ := r
  cases arithmetic with
  | float bias => cases bias <;> rfl
  | integer zero divisor => cases zero <;> rfl

theorem bindings_of_coarse (h : r.coarse = s.coarse) :
    List.Forall₂ (fun b c => b.coarse = c.coarse) r.bindings s.bindings := by
  have hmap : r.bindings.map Binding.coarse = s.bindings.map Binding.coarse := by
    rw [← bindings_coarse, h, bindings_coarse]
  rwa [← List.forall₂_eq_eq_eq, List.forall₂_map_left_iff, List.forall₂_map_right_iff] at hmap

theorem convolution_eq_of_coarse (h : r.coarse = s.coarse) : r.convolution = s.convolution :=
  show r.coarse.convolution = s.coarse.convolution by rw [h]

theorem arithmetic_eq_of_coarse (h : r.coarse = s.coarse) : r.arithmetic.coarse = s.arithmetic.coarse :=
  show r.coarse.arithmetic = s.coarse.arithmetic by rw [h]

end Routine

namespace Graph

/-! ## Tensors of the same position -/

/-- A quantized graph and a plain one whose routines are alike. -/
structure Twins (m : Model) (g p : Graph) : Prop where
  left : g.Built m
  right : p.Built m
  left_typed : ∀ r ∈ g.routines, r.arithmetic.Typed true r.convolution r.output.type
  right_typed : ∀ r ∈ p.routines, r.arithmetic.Typed false r.convolution r.output.type
  routines : List.Forall₂ (fun r s => r.coarse = s.coarse) g.routines p.routines

namespace Twins

variable {m : Model} {g p : Graph}

theorem of_mem_zip (h : Twins m g p) {r s : Routine} (hrs : (r, s) ∈ g.routines.zip p.routines) :
    r ∈ g.routines ∧ s ∈ p.routines ∧ r.coarse = s.coarse :=
  ⟨(List.of_mem_zip hrs).1, (List.of_mem_zip hrs).2, List.forall₂_zip h.routines hrs⟩

theorem forall₂_routines (h : Twins m g p) {R : Routine → Routine → Prop}
    (hR : ∀ r s, (r, s) ∈ g.routines.zip p.routines → R r s) : List.Forall₂ R g.routines p.routines :=
  List.forall₂_iff_zip.2 ⟨h.routines.length_eq, fun {r s} hrs => hR r s hrs⟩

/-- The arithmetic and the output types of two routines of the same position. -/
theorem typed_requantizes (h : Twins m g p) {r s : Routine} (hrs : (r, s) ∈ g.routines.zip p.routines) :
    r.arithmetic.Requantizes s.convolution.kernelArea s.arithmetic ∧
      (s.operator = .convInteger → r.output.type = .int8 ∧ s.output.type = .int32) ∧
      (s.operator ≠ .convInteger → r.output.type = s.output.type) := by
  obtain ⟨hr, hs, hcoarse⟩ := h.of_mem_zip hrs
  have htyped := h.left_typed r hr
  rw [Routine.convolution_eq_of_coarse hcoarse] at htyped
  exact htyped.requantizes (h.right_typed s hs) (Routine.arithmetic_eq_of_coarse hcoarse)

/-- What is given is no sum, since names are distinct. -/
theorem given_notMem_sums (h : Twins m g p) {t : RegisteredTensor} (ht : t ∈ m.given) :
    t.tensor.name ∉ p.sums := by
  intro hmem
  obtain ⟨s, hs, -, hname⟩ := mem_sums.1 hmem
  have hnodup := h.right.known_nodup
  rw [List.map_append, List.nodup_append] at hnodup
  exact hnodup.2.2 t.tensor.name (List.mem_map_of_mem (List.mem_map_of_mem ht)) s.output.name
    (List.mem_map_of_mem (List.mem_map_of_mem hs)) hname.symm

theorem output_mem_sums (h : Twins m g p) {s : Routine} (hs : s ∈ p.routines) :
    s.output.name ∈ p.sums ↔ s.operator = .convInteger := by
  rw [mem_sums]
  constructor
  · rintro ⟨s', hs', hoperator, hname⟩
    obtain ⟨i, hi⟩ := List.mem_iff_getElem?.1 hs
    obtain ⟨j, hj⟩ := List.mem_iff_getElem?.1 hs'
    obtain rfl := h.right.output_inj hi hj hname.symm
    obtain rfl := Option.some.inj (hi.symm.trans hj)
    exact hoperator
  · exact fun hoperator => ⟨s, hs, hoperator, rfl⟩

theorem output_requantizes (h : Twins m g p) {r s : Routine}
    (hrs : (r, s) ∈ g.routines.zip p.routines) : r.output.Requantizes p.sums s.output := by
  obtain ⟨-, hs, hcoarse⟩ := h.of_mem_zip hrs
  have houtput : r.output.coarse = s.output.coarse := show r.coarse.output = s.coarse.output by rw [hcoarse]
  obtain ⟨hname, -, hshape⟩ := Tensor.coarse_eq_coarse.1 houtput
  obtain ⟨-, hsum, hother⟩ := h.typed_requantizes hrs
  exact ⟨hname, hshape, fun hmem => hsum ((h.output_mem_sums hs).1 hmem),
    fun hmem => hother fun hoperator => hmem ((h.output_mem_sums hs).2 hoperator)⟩

theorem marked_requantizes {sums outputs : List String} {t u : RegisteredTensor}
    (htensor : t.tensor.Requantizes sums u.tensor) (hrole : t.role = u.role) :
    (t.marked outputs).Requantizes sums (u.marked outputs) := by
  have hmarked : (t.marked outputs).role = (u.marked outputs).role := by
    unfold RegisteredTensor.marked
    rw [htensor.name_eq]
    split
    next => rfl
    next => exact hrole
  refine ⟨?_, hmarked, ?_⟩
  · rwa [RegisteredTensor.tensor_marked, RegisteredTensor.tensor_marked]
  · unfold RegisteredTensor.cName
    rw [hmarked, RegisteredTensor.tensor_marked, RegisteredTensor.tensor_marked, htensor.name_eq]

/-- The registries hold the same tensors, position by position, up to the types of sums. -/
theorem tensors_requantize (h : Twins m g p) :
    List.Forall₂ (RegisteredTensor.Requantizes p.sums) g.registry.tensors p.registry.tensors := by
  rw [h.left.tensors_eq, h.right.tensors_eq, List.forall₂_map_left_iff, List.forall₂_map_right_iff]
  refine List.rel_append (List.forall₂_same.2 fun t ht => ?_) ?_
  · refine marked_requantizes ⟨rfl, rfl, fun hmem => ?_, fun _ => rfl⟩ rfl
    exact absurd hmem (h.given_notMem_sums ht)
  · rw [List.forall₂_map_left_iff, List.forall₂_map_right_iff]
    exact h.forall₂_routines fun r s hrs => marked_requantizes (h.output_requantizes hrs) rfl

/-- Registered tensors of the same name stand at the same position. -/
theorem requantizes_of_name_eq (h : Twins m g p) {t u : RegisteredTensor} (ht : t ∈ g.registry.tensors)
    (hu : u ∈ p.registry.tensors) (hname : t.tensor.name = u.tensor.name) : t.Requantizes p.sums u := by
  have hall := h.tensors_requantize
  obtain ⟨i, hi, rfl⟩ := List.mem_iff_getElem.1 ht
  have hi' : i < p.registry.tensors.length := hall.length_eq ▸ hi
  have hrelated := hall.get hi hi'
  have hsame : p.registry.tensors[i] = u :=
    h.right.indexed.eq_of_name_eq (List.getElem_mem hi') hu (hrelated.tensor.name_eq.symm.trans hname)
  exact hsame ▸ hrelated

/-! ## Routines of the same position -/

theorem routine_requantizes (h : Twins m g p) {r s : Routine}
    (hrs : (r, s) ∈ g.routines.zip p.routines) : r.Requantizes p.sums s := by
  obtain ⟨hr, hs, hcoarse⟩ := h.of_mem_zip hrs
  obtain ⟨harithmetic, -, -⟩ := h.typed_requantizes hrs
  have hbindings := Routine.bindings_of_coarse hcoarse
  refine ⟨?_, ?_, Routine.convolution_eq_of_coarse hcoarse, ?_, harithmetic⟩
  · exact show r.coarse.name = s.coarse.name by rw [hcoarse]
  · exact Arithmetic.operator_eq_of_coarse (Routine.arithmetic_eq_of_coarse hcoarse)
  · refine List.forall₂_iff_zip.2 ⟨hbindings.length_eq, fun {b c} hbc => ?_⟩
    obtain ⟨hb, hc⟩ := List.of_mem_zip hbc
    obtain ⟨hlocal, htensor, hwritable⟩ := Binding.coarse_eq_coarse.1 (List.forall₂_zip hbindings hbc)
    refine ⟨hlocal, hwritable, ?_⟩
    -- Both tensors are registered, and under the same name.
    obtain ⟨t, ht, hbt⟩ := h.left.get?_of_binding hr hb
    obtain ⟨u, hu, hcu⟩ := h.right.get?_of_binding hs hc
    rw [← hbt, ← hcu] at htensor ⊢
    exact (h.requantizes_of_name_eq (h.left.indexed.get?_eq_some.1 ht).1
      (h.right.indexed.get?_eq_some.1 hu).1 (Tensor.coarse_eq_coarse.1 htensor).1).tensor

end Twins

/-! ## Both builds -/

variable {m : Model} {g p : Graph}

theorem build_typed {options : Options} (h : Graph.build m options = .ok g) :
    ∀ r ∈ g.routines, r.arithmetic.Typed options.quantize r.convolution r.output.type := by
  intro r hr
  obtain ⟨n, hn⟩ := build_resolved h r hr
  exact Node.resolve_typed hn

theorem requantizes_of_build (hg : Graph.build m ⟨true⟩ = .ok g) (hp : Graph.build m ⟨false⟩ = .ok p)
    (hregistry : g.registry.coarse = p.registry.coarse)
    (hroutines : List.Forall₂ (fun r s => r.coarse = s.coarse) g.routines p.routines) :
    g.Requantizes p := by
  have hleft := Graph.build_eq_ok hg
  have hright := Graph.build_eq_ok hp
  have htwins : Twins m g p := ⟨hleft, hright, build_typed hg, build_typed hp, hroutines⟩
  refine ⟨?_, ?_, ?_, ?_, htwins.tensors_requantize, ?_⟩
  · rw [hleft.inputs_eq, hright.inputs_eq]
  · rw [hleft.outputs_eq, hright.outputs_eq]
  · exact Registry.byName_eq_of_coarse hregistry
  · exact Registry.byCName_eq_of_coarse hregistry
  · exact htwins.forall₂_routines fun r s hrs => htwins.routine_requantizes hrs

end Graph

/-- An integer convolution over the sums of another one, beside one of floating-point numbers. -/
def mixedLayers : Model where
  inputs := [⟨"image", .uint8, [1, 1, 2, 2]⟩, ⟨"mask", .float32, [1, 1, 2, 2]⟩]
  initializers :=
    [⟨⟨"kernel", .int8, [1, 1, 1, 2]⟩, .ints [1, -1]⟩, ⟨⟨"mix", .float32, [1, 1, 1, 1]⟩, .ints [2]⟩]
  nodes :=
    [{ operatorName := "ConvInteger", inputs := ["image", "kernel"], outputs := ["hidden"] },
     { operatorName := "Conv", inputs := ["mask", "mix"], outputs := ["weighted"] },
     { operatorName := "ConvInteger", inputs := ["hidden", "kernel"], outputs := ["y"]
       attributes := [("auto_pad", .text "SAME_UPPER")] }]
  outputs := ["y", "weighted"]

end Stencil
