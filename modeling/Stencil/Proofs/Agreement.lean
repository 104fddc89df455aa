import Stencil.Proofs.Kernel
import Stencil.Proofs.Layout

/-!
# Agreement with the evaluator

The emitted body of an integer convolution leaves in its output array what the evaluator
returns for the same data, weights and zero point.
-/

namespace Stencil

namespace Routine

/-- The state in which the body starts: one array for each parameter, and nothing else. -/
def start (r : Routine) (data weights : List Int32) (zero : Int32) (outputs : List Int32) :
    C.State where
  words _ := none
  arrays name :=
    let values := [data, weights] ++ (r.arithmetic.binding?.map fun _ => [zero]).toList ++ [outputs]
    ((r.bindings.zip values).find? (·.1.localName = name)).map fun (b, values) =>
      ⟨C.arrayDims b.tensor.shape, values⟩
  counters _ := none

/-- The arrays of the parameters are those of the convolution. -/
theorem holds_start {n : Node} {quantize : Bool} {r : Routine} (h : n.integerRoutine quantize = .ok r)
    (hshape : ∀ t, n.input? 2 = some t → t.shape = [] ∨ t.shape = [1]) {data weights : List Int32}
    {zero : Int32} (hzero : n.input? 2 = none → zero = 0) {outputs : List Int32}
    (hdata : data.length = r.data.size) (hweights : weights.length = r.weights.size)
    (houtputs : outputs.length = r.output.size) :
    ∃ point divisor, r.arithmetic = .integer point divisor ∧
      r.convolution.divisor? quantize = .ok divisor ∧
      Holds r.convolution point data weights zero (r.start data weights zero outputs).toMemory
        outputs := by
  obtain ⟨hresolves, -, -, -, divisor, hdivisor, harithmetic⟩ := Node.integerRoutine_eq_ok h
  obtain ⟨-, dataTensor, weightsTensor, hdataInput, hweightsInput, hdataShape, hweightsShape⟩ :=
    Node.convolution_eq_ok hresolves.convolution_eq
  obtain rfl : dataTensor = r.data := Option.some.inj (hdataInput.symm.trans hresolves.data_eq)
  obtain rfl : weightsTensor = r.weights :=
    Option.some.inj (hweightsInput.symm.trans hresolves.weights_eq)
  have hdataDims : C.arrayDims r.data.shape = r.convolution.dataShape := by rw [hdataShape]; rfl
  have hweightsDims : C.arrayDims r.weights.shape = r.convolution.weightsShape := by
    rw [hweightsShape]; rfl
  have houtputDims : C.arrayDims r.output.shape = r.convolution.outputShape := by
    rw [hresolves.shape_eq]; rfl
  have hdata : data.length = r.convolution.dataSize := hdata.trans hresolves.size_eq.1
  have hweights : weights.length = r.convolution.weightsSize := hweights.trans hresolves.size_eq.2
  have houtputs : outputs.length = r.convolution.cells.length := by
    rw [houtputs, Tensor.size, hresolves.shape_eq, Convolution.length_cells]
    simp [Convolution.outputShape, Nat.mul_assoc]
  refine ⟨_, divisor, harithmetic, hdivisor, ?_⟩
  cases hpoint : n.input? 2 with
  | none =>
    rw [hpoint] at harithmetic
    refine ⟨?_, ?_, (hzero hpoint).symm, ?_, hdata, hweights, houtputs⟩ <;>
      simp [start, bindings, harithmetic, Arithmetic.binding?, hdataDims, hweightsDims, houtputDims]
  | some t =>
    rw [hpoint] at harithmetic
    have hzeroDims : C.arrayDims t.shape = [1] := by
      rcases hshape t hpoint with hshape | hshape <;> rw [hshape] <;> rfl
    refine ⟨?_, ?_, ?_, ?_, hdata, hweights, houtputs⟩ <;>
      simp [start, bindings, harithmetic, Arithmetic.binding?, hdataDims, hweightsDims, houtputDims,
        hzeroDims]

/-- Running the body leaves what the evaluator returns, whatever the outputs held before. -/
theorem exec?_nest_start {n : Node} {quantize : Bool} {r : Routine}
    (h : n.integerRoutine quantize = .ok r)
    (hshape : ∀ t, n.input? 2 = some t → t.shape = [] ∨ t.shape = [1]) {data weights : List Int32}
    {zero : Int32} (hzero : n.input? 2 = none → zero = 0) {outputs : List Int32}
    (hdata : data.length = r.data.size) (hweights : weights.length = r.weights.size)
    (houtputs : outputs.length = r.output.size) :
    ∃ values t, r.convolution.evaluate quantize data weights zero = .ok values ∧
      r.nest.exec? C.execAll? (r.start data weights zero outputs) = some t ∧
      t.arrays "y" = some ⟨r.output.shape, values⟩ := by
  obtain ⟨hresolves, -⟩ := Node.integerRoutine_eq_ok h
  obtain ⟨hreg, -⟩ := Node.convolution_eq_ok hresolves.convolution_eq
  obtain ⟨point, divisor, harithmetic, hdivisor, hholds⟩ :=
    holds_start h hshape hzero hdata hweights houtputs
  obtain ⟨t, ht, -, hfinal⟩ := (computes_execAll? (hreg.divisor_pos hdivisor)).exec?_nest hreg hholds
  rw [← harithmetic] at ht
  refine ⟨_, t, Convolution.evaluate_eq_ok hreg hdivisor hholds.data_length hholds.weights_length zero,
    ht, ?_⟩
  rw [hfinal.outputs_eq, hresolves.shape_eq]

/-- Every variable of an integer routine can be read back. -/
theorem isReadable_nest {r : Routine} {zero : ZeroPoint} {divisor : Option Int32}
    (h : r.arithmetic = .integer zero divisor) : r.nest.isReadable := by
  have hbefore : ∀ s ∈ r.arithmetic.before, s.isReadable := by
    rw [h, ← List.all_eq_true]
    cases divisor <;> rfl
  have hne : r.arithmetic.before ≠ [] := by
    rw [h]
    cases divisor <;> exact List.cons_ne_nil _ _
  have htarget : (Arithmetic.target divisor).isReadable := by
    have hsum : Arithmetic.sumCell.isReadable := by decide
    have houtput : Arithmetic.outputCell.isReadable := by decide
    cases divisor with
    | none => exact houtput
    | some d => exact hsum
  have hzero : (Arithmetic.zeroExpr zero).isReadable := by
    cases zero <;> rfl
  have hcells : Arithmetic.dataCell.isReadable ∧ Arithmetic.weightCell.isReadable := ⟨rfl, rfl⟩
  have heach : ∀ s ∈ r.arithmetic.each, s.isReadable := by
    simp [h, Arithmetic.each, C.Stmt.isReadable, C.Expr.isReadable, htarget, hzero, hcells]
  have hafter : ∀ s ∈ r.arithmetic.after, s.isReadable := by
    rw [h, ← List.all_eq_true]
    cases divisor <;> rfl
  exact C.Nest.isReadable_ofConvolution r.convolution hbefore hne heach hafter

end Routine

/-- Two channels with a zero point, a stride on one axis and padding on one side of each. -/
def offsetNode : Node where
  operator := .convInteger
  name := "offset"
  inputs := [some ⟨"x", .uint8, [1, 2, 3, 2]⟩, some ⟨"w", .int8, [1, 2, 2, 2]⟩, some ⟨"z", .uint8, []⟩]
  outputs := ["y"]
  attributes := [("pads", .ints [1, 0, 0, 1]), ("strides", .ints [2, 1])]

def offsetRoutine : Routine where
  name := "offset"
  data := ⟨"x", .uint8, [1, 2, 3, 2]⟩
  weights := ⟨"w", .int8, [1, 2, 2, 2]⟩
  convolution := ⟨1, 2, 1, ⟨⟨⟨3, 2, 2, 1⟩, 1, 0⟩, ⟨⟨2, 2, 1, 1⟩, 0, 1⟩⟩, 1, .notSet⟩
  arithmetic := .integer (.tensor ⟨"z", .uint8, []⟩) (some 64)
  output := ⟨"y", .int8, [1, 1, 2, 2]⟩

end Stencil
