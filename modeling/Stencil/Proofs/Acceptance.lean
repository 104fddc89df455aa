import Stencil.Proofs.ConvolutionSum
import Stencil.Proofs.Requirements
import Stencil.Proofs.Resolution

/-!
# Acceptance of nodes

The conditions under which a node is resolved, in the order in which they are checked. They
differ between the operators. A node that satisfies all of them is resolved to a routine with
the output that its operator declares; of any other node the first condition that it misses
is reported.
-/

namespace Stencil

/-- What resolving a node asks of it. -/
inductive Condition where
  /-- The number of inputs is in a range. Omitted inputs in between count. -/
  | inputCount (least most : Nat)
  | singleOutput
  /-- The inputs and the attributes are those of a convolution. -/
  | geometry
  | noWeightZeroPoint
  /-- The element type of an input is accepted. The label names the input and the type. -/
  | elementType (input : MandatoryInput) (label : String) (accepts : ElementType → Bool)
  /-- The bias has one value for each output channel. -/
  | biasSize
  /-- The divisor of quantized outputs is a 32-bit number. -/
  | divisor

namespace Operator

def conditions (quantize : Bool) : Operator → List Condition
  | conv =>
    [.inputCount 2 3, .singleOutput, .geometry, .elementType .data "X: float32" (· = .float32),
     .elementType .weights "W: float32" (· = .float32), .biasSize]
  | convInteger =>
    [.inputCount 2 4, .singleOutput, .geometry, .noWeightZeroPoint,
     .elementType .data "x: integer" (·.isInt), .elementType .weights "w: integer" (·.isInt)]
      ++ if quantize then [.divisor] else []

/-- The element type of what an operator produces. -/
def outputType (quantize : Bool) : Operator → ElementType
  | conv => .float32
  | convInteger => if quantize then .int8 else .int32

end Operator

namespace Node

variable (n : Node)

def Satisfies : Condition → Prop
  | .inputCount least most => least ≤ n.inputs.length ∧ n.inputs.length ≤ most
  | .singleOutput => n.outputs.length = 1
  | .geometry => ∃ c, n.convolution = .ok c
  | .noWeightZeroPoint => n.input? 3 = none
  | .elementType input _ accepts => ∀ t, n.input? input.index = some t → accepts t.type
  | .biasSize => ∀ bias, n.input? 2 = some bias → bias.size = n.size .weights 0
  | .divisor => 16 * (n.size .weights 2 * n.size .weights 3) ≤ 2 ^ 31 - 1

/-- The errors that blame a condition. -/
def Blames : Condition → ResolveError → Prop
  | .inputCount least most, e => e = .invalidInputCount least most n.inputs.length
  | .singleOutput, e => e = .invalidOutputCount n.outputs.length
  | .geometry, e => n.convolution = .error e
  | .noWeightZeroPoint, e => e = .unsupportedWeightZeroPoint
  | .elementType input label _, e => ∃ t, n.input? input.index = some t ∧ e = .typeMismatch label t.type
  | .biasSize, e => ∃ bias, n.input? 2 = some bias ∧
      e = .invalidShape (.biasSize bias.size (n.size .weights 0))
  | .divisor, e => e = .invalidShape (.kernelArea (n.size .weights 2 * n.size .weights 3))

variable {n} {c : Convolution}

/-! ## Sizes of an accepted convolution -/

/-- The sizes of the inputs are those of the geometry. -/
theorem size_of_convolution (h : n.convolution = .ok c) :
    n.size .data 0 = c.batch ∧ n.size .weights 0 = c.channelsOut ∧
      n.size .weights 2 * n.size .weights 3 = c.kernelArea := by
  obtain ⟨-, data, weights, hdata, hweights, hdataShape, hweightsShape⟩ := convolution_eq_ok h
  have hdataSize : ∀ d, n.size .data d = c.dataShape.getD d 0 := by
    intro d
    apply size_eq _ hdataShape
    exact hdata
  have hsize : ∀ d, n.size .weights d = c.weightsShape.getD d 0 := by
    intro d
    apply size_eq _ hweightsShape
    exact hweights
  refine ⟨hdataSize 0, hsize 0, ?_⟩
  rw [hsize 2, hsize 3]
  rfl

/-! ## Checks -/

theorem judged_inputCount (least most : Nat) :
    (n.checkInputCount least most).Judged n.Satisfies n.Blames [.inputCount least most] fun _ => True := by
  unfold checkInputCount
  split
  next h => exact Except.Judged.cons h (.ok trivial)
  next h => exact .error h rfl

theorem judged_singleOutput :
    n.singleOutput.Judged n.Satisfies n.Blames [.singleOutput] fun name => n.outputs = [name] := by
  unfold singleOutput
  split
  next name h =>
    have hlength : n.outputs.length = 1 := by rw [h, List.length_singleton]
    exact Except.Judged.cons hlength (.ok h)
  next h =>
    refine .error (fun hlength => ?_) rfl
    obtain ⟨name, hname⟩ := List.length_eq_one_iff.1 hlength
    exact h name hname

theorem judged_convolution :
    n.convolution.Judged n.Satisfies n.Blames [.geometry] fun c => n.convolution = .ok c := by
  cases h : n.convolution with
  | ok c => exact Except.Judged.cons ⟨c, h⟩ (.ok rfl)
  | error e =>
    refine .error ?_ h
    rintro ⟨c, hc⟩
    rw [h] at hc
    cases hc

theorem judged_zeroPoint :
    n.zeroPoint.Judged n.Satisfies n.Blames [.noWeightZeroPoint] fun _ => True := by
  unfold zeroPoint
  split
  next t ht =>
    refine .error (fun hnone : n.input? 3 = none => ?_) rfl
    rw [ht] at hnone
    cases hnone
  next hnone _ => exact Except.Judged.cons hnone (.ok trivial)
  next hnone _ => exact Except.Judged.cons hnone (.ok trivial)

/-- The inputs of an accepted convolution are there. -/
theorem judged_mandatory (h : n.convolution = .ok c) (input : MandatoryInput) :
    (n.mandatory input).Judged n.Satisfies n.Blames [] fun t => n.input? input.index = some t := by
  obtain ⟨-, data, weights, hdata, hweights, -⟩ := convolution_eq_ok h
  have hinput : ∃ t, n.input? input.index = some t := by
    cases input with
    | data => exact ⟨data, hdata⟩
    | weights => exact ⟨weights, hweights⟩
  obtain ⟨t, ht⟩ := hinput
  rw [mandatory_eq_ok.2 ht]
  exact .ok ht

theorem judged_checkType {input : MandatoryInput} {t : Tensor} (ht : n.input? input.index = some t)
    (label : String) (accepts : ElementType → Bool) :
    (checkType accepts label t).Judged n.Satisfies n.Blames [.elementType input label accepts] fun _ => True := by
  have hsatisfies : n.Satisfies (.elementType input label accepts) ↔ accepts t.type := by
    simp [Satisfies, ht]
  unfold checkType
  split
  next h => exact Except.Judged.cons (hsatisfies.2 h) (.ok trivial)
  next h => exact .error (hsatisfies.not.2 h) ⟨t, ht, rfl⟩

theorem judged_checkBias (h : n.convolution = .ok c) :
    (checkBias c.channelsOut (n.input? 2)).Judged n.Satisfies n.Blames [.biasSize] fun _ => True := by
  have hchannels := (size_of_convolution h).2.1
  rw [← hchannels]
  cases hbias : n.input? 2 with
  | none =>
    have hsatisfies : n.Satisfies .biasSize := by simp [Satisfies, hbias]
    exact Except.Judged.cons hsatisfies (.ok trivial)
  | some bias =>
    have hsatisfies : n.Satisfies .biasSize ↔ bias.size = n.size .weights 0 := by
      simp [Satisfies, hbias]
    rw [checkBias]
    split
    next hsize => exact Except.Judged.cons (hsatisfies.2 hsize) (.ok trivial)
    next hsize => exact .error (hsatisfies.not.2 hsize) ⟨bias, hbias, rfl⟩

theorem judged_divisor (h : n.convolution = .ok c) (quantize : Bool) :
    (c.divisor? quantize).Judged n.Satisfies n.Blames (if quantize then [.divisor] else []) fun _ => True := by
  have harea := (size_of_convolution h).2.2
  cases quantize with
  | false => exact .ok trivial
  | true =>
    have hsatisfies : n.Satisfies .divisor ↔ 16 * c.kernelArea ≤ 2 ^ 31 - 1 := by
      rw [Satisfies, harea]
    by_cases hle : 16 * c.kernelArea ≤ 2 ^ 31 - 1
    · rw [Convolution.divisor?_eq_ok_iff.2 ⟨fun _ => hle, rfl⟩]
      exact Except.Judged.cons (hsatisfies.2 hle) (.ok trivial)
    · have herror : c.divisor? true = .error (.invalidShape (.kernelArea c.kernelArea)) := by
        rw [Convolution.divisor?, if_pos rfl, Convolution.divisor_eq, if_neg hle]
        rfl
      rw [herror]
      refine .error (hsatisfies.not.2 hle) ?_
      rw [Blames, harea]

/-! ## Nodes -/

/-- The output that a node declares. -/
def Declares (n : Node) (quantize : Bool) (output : Tensor) : Prop :=
  ∃ name c, n.outputs = [name] ∧ n.convolution = .ok c ∧
    output = ⟨name, n.operator.outputType quantize,
      [n.size .data 0, n.size .weights 0, c.outputSizes.height, c.outputSizes.width]⟩

theorem declares_of_convolution {name : String} {quantize : Bool} (houtputs : n.outputs = [name])
    (h : n.convolution = .ok c) :
    n.Declares quantize ⟨name, n.operator.outputType quantize, c.outputShape⟩ := by
  obtain ⟨hbatch, hchannels, -⟩ := size_of_convolution h
  refine ⟨name, c, houtputs, h, ?_⟩
  rw [hbatch, hchannels]
  rfl

theorem judged_floatRoutine (quantize : Bool) (hn : n.operator = .conv) :
    n.floatRoutine.Judged n.Satisfies n.Blames (Operator.conv.conditions quantize)
      fun r => n.Declares quantize r.output := by
  refine (judged_inputCount 2 3).bind fun _ _ _ => ?_
  refine judged_singleOutput.bind fun output _ houtput => ?_
  refine judged_convolution.bind fun c _ hc => ?_
  refine (judged_mandatory hc .data).bind fun data _ hdata => ?_
  refine (judged_mandatory hc .weights).bind fun weights _ hweights => ?_
  refine (judged_checkType hdata "X: float32" _).bind fun _ _ _ => ?_
  refine (judged_checkType hweights "W: float32" _).bind fun _ _ _ => ?_
  refine (judged_checkBias hc).bind fun _ _ _ => ?_
  have hdeclares : n.Declares quantize _ := declares_of_convolution houtput hc
  rw [hn] at hdeclares
  exact .ok hdeclares

theorem judged_integerRoutine (quantize : Bool) (hn : n.operator = .convInteger) :
    (n.integerRoutine quantize).Judged n.Satisfies n.Blames (Operator.convInteger.conditions quantize)
      fun r => n.Declares quantize r.output := by
  refine (judged_inputCount 2 4).bind fun _ _ _ => ?_
  refine judged_singleOutput.bind fun output _ houtput => ?_
  refine judged_convolution.bind fun c _ hc => ?_
  refine judged_zeroPoint.bind fun _ _ _ => ?_
  refine (judged_mandatory hc .data).bind fun data _ hdata => ?_
  refine (judged_mandatory hc .weights).bind fun weights _ hweights => ?_
  refine (judged_checkType hdata "x: integer" _).bind fun _ _ _ => ?_
  refine (judged_checkType hweights "w: integer" _).bind fun _ _ _ => ?_
  have hdeclares : n.Declares quantize _ := declares_of_convolution houtput hc
  rw [hn] at hdeclares
  -- The list of conditions ends with that of the divisor, if there is one.
  exact (judged_divisor hc quantize).map fun _ _ => hdeclares

theorem judged_resolve (n : Node) (options : Options) :
    (n.resolve options).Judged n.Satisfies n.Blames (n.operator.conditions options.quantize)
      fun r => n.Declares options.quantize r.output := by
  unfold resolve
  cases hn : n.operator with
  | conv => exact judged_floatRoutine options.quantize hn
  | convInteger => exact judged_integerRoutine options.quantize hn

end Node

/-- With data of the wrong type and a zero point for the weights, but none for the data. -/
def shiftedWeightsNode : Node where
  operator := .convInteger
  name := "shifted"
  inputs := [some ⟨"x", .float32, [1, 1, 5, 5]⟩, some ⟨"w", .int8, [1, 1, 3, 3]⟩, none, some ⟨"z", .int8, [1]⟩]
  outputs := ["y"]
  attributes := []

end Stencil
