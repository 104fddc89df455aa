import Stencil.Proofs.Geometry
import Stencil.Routine.Body

/-!
# Resolved routines

What a routine takes over from the node it was resolved from: its name, its tensors and
its geometry. The tensors that it reads are inputs of the node, and the one that it
writes has the name of the node's only output.
-/

namespace Stencil

namespace Node

variable {n : Node}

theorem singleOutput_eq_ok {name : String} : n.singleOutput = .ok name ↔ n.outputs = [name] := by
  unfold singleOutput
  split <;> simp_all

theorem checkType_eq_ok {accepts : ElementType → Bool} {label : String} {t : Tensor} {u : Unit} :
    checkType accepts label t = .ok u ↔ accepts t.type := by
  unfold checkType
  split <;> simp_all

theorem checkBias_eq_ok {channels : Nat} {bias : Option Tensor} {u : Unit} :
    checkBias channels bias = .ok u ↔ ∀ t, bias = some t → t.size = channels := by
  cases bias with
  | none => simp [checkBias]
  | some t =>
    unfold checkBias
    split <;> simp_all

/-- The zero point is the third input or else zero, and there is no fourth input. -/
theorem zeroPoint_eq_ok {zero : ZeroPoint} :
    n.zeroPoint = .ok zero ↔
      n.input? 3 = none ∧ zero = ((n.input? 2).map ZeroPoint.tensor).getD (.literal 0) := by
  cases h₃ : n.input? 3 with
  | some t => simp [zeroPoint, h₃]
  | none => cases h₂ : n.input? 2 <;> simp [zeroPoint, h₂, h₃, eq_comm]

/-- What every resolved routine has in common with its node. -/
structure Resolves (n : Node) (r : Routine) : Prop where
  name_eq : r.name = n.name
  data_eq : n.input? 0 = some r.data
  weights_eq : n.input? 1 = some r.weights
  third_eq : r.arithmetic.binding?.map Binding.tensor = n.input? 2
  outputs_eq : n.outputs = [r.output.name]
  convolution_eq : n.convolution = .ok r.convolution
  shape_eq : r.output.shape = r.convolution.outputShape

/-- The tensors of a routine have as many elements as its geometry asks for. -/
theorem Resolves.size_eq {r : Routine} (h : n.Resolves r) :
    r.data.size = r.convolution.dataSize ∧ r.weights.size = r.convolution.weightsSize := by
  obtain ⟨-, data, weights, hdata, hweights, hdataShape, hweightsShape⟩ := convolution_eq_ok h.convolution_eq
  obtain rfl : data = r.data := Option.some.inj (hdata.symm.trans h.data_eq)
  obtain rfl : weights = r.weights := Option.some.inj (hweights.symm.trans h.weights_eq)
  constructor
  · rw [Tensor.size, hdataShape]
    simp [Convolution.dataShape, Convolution.dataSize, Convolution.inputSizes, Spatial.map, Nat.mul_assoc]
  · rw [Tensor.size, hweightsShape]
    simp [Convolution.weightsShape, Convolution.weightsSize, Convolution.kernelShape, Spatial.map, Nat.mul_assoc]

theorem floatRoutine_eq_ok {r : Routine} (h : n.floatRoutine = .ok r) :
    n.Resolves r ∧ r.data.type = .float32 ∧ r.weights.type = .float32 ∧
      (∀ bias, n.input? 2 = some bias → bias.size = r.convolution.channelsOut) ∧
      r.arithmetic = .float (n.input? 2) := by
  obtain ⟨_, -, h⟩ := Except.bind_eq_ok.1 h
  obtain ⟨output, houtput, h⟩ := Except.bind_eq_ok.1 h
  obtain ⟨c, hc, h⟩ := Except.bind_eq_ok.1 h
  obtain ⟨data, hdata, h⟩ := Except.bind_eq_ok.1 h
  obtain ⟨weights, hweights, h⟩ := Except.bind_eq_ok.1 h
  obtain ⟨_, hdtype, h⟩ := Except.bind_eq_ok.1 h
  obtain ⟨_, hwtype, h⟩ := Except.bind_eq_ok.1 h
  obtain ⟨_, hbias, h⟩ := Except.bind_eq_ok.1 h
  obtain rfl := Except.pure_eq_ok.1 h
  refine ⟨⟨rfl, mandatory_eq_ok.1 hdata, mandatory_eq_ok.1 hweights, ?_, singleOutput_eq_ok.1 houtput,
    hc, rfl⟩, of_decide_eq_true (checkType_eq_ok.1 hdtype), of_decide_eq_true (checkType_eq_ok.1 hwtype),
    checkBias_eq_ok.1 hbias, rfl⟩
  cases h₂ : n.input? 2 <;> rfl

theorem integerRoutine_eq_ok {quantize : Bool} {r : Routine} (h : n.integerRoutine quantize = .ok r) :
    n.Resolves r ∧ n.input? 3 = none ∧ r.data.type.isInt ∧ r.weights.type.isInt ∧
      ∃ divisor, r.convolution.divisor? quantize = .ok divisor ∧
        r.arithmetic =
          .integer (((n.input? 2).map ZeroPoint.tensor).getD (.literal 0)) divisor := by
  obtain ⟨_, -, h⟩ := Except.bind_eq_ok.1 h
  obtain ⟨output, houtput, h⟩ := Except.bind_eq_ok.1 h
  obtain ⟨c, hc, h⟩ := Except.bind_eq_ok.1 h
  obtain ⟨zero, hzero, h⟩ := Except.bind_eq_ok.1 h
  obtain ⟨data, hdata, h⟩ := Except.bind_eq_ok.1 h
  obtain ⟨weights, hweights, h⟩ := Except.bind_eq_ok.1 h
  obtain ⟨_, hdtype, h⟩ := Except.bind_eq_ok.1 h
  obtain ⟨_, hwtype, h⟩ := Except.bind_eq_ok.1 h
  obtain ⟨divisor, hdivisor, h⟩ := Except.bind_eq_ok.1 h
  obtain rfl := Except.pure_eq_ok.1 h
  obtain ⟨hfourth, rfl⟩ := zeroPoint_eq_ok.1 hzero
  refine ⟨⟨rfl, mandatory_eq_ok.1 hdata, mandatory_eq_ok.1 hweights, ?_, singleOutput_eq_ok.1 houtput,
    hc, rfl⟩, hfourth, checkType_eq_ok.1 hdtype, checkType_eq_ok.1 hwtype, divisor, hdivisor, rfl⟩
  cases h₂ : n.input? 2 <;> rfl

/-- Resolving a node of either operator. -/
theorem resolve_eq_ok {options : Options} {r : Routine} (h : n.resolve options = .ok r) :
    n.Resolves r := by
  unfold resolve at h
  split at h
  next => exact (floatRoutine_eq_ok h).1
  next => exact (integerRoutine_eq_ok h).1

end Node

end Stencil
