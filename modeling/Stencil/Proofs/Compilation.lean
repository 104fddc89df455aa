import Stencil.Proofs.CarefulSource
import Stencil.Proofs.ConvolutionSum
import Stencil.Proofs.Faultless
import Stencil.Run

/-!
# No trap

From the texts of a model and of its options to a source file, and from a resolved
convolution to the values of its outputs: every computation ends with a result or with an
error, and none of the steps on the way traps.
-/

namespace Stencil

/-- Compile a model with options, both given as texts, to the text of a source file. -/
def compile (model options : String) (comment : Option String) : Except RunError String := do
  let options ← (Options.ofText options).mapError .decode
  let model ← (Model.ofText model).mapError .decode
  let graph ← (Graph.build model options).mapError .build
  return graph.source comment

namespace Careful

open Trap

/-! ## Compiling -/

def compile (model options : String) (comment : Option String) : Trapping RunError String := do
  let options ← (Options.ofText options).mapError RunError.decode
  let model ← (Model.ofText model).mapError RunError.decode
  let graph ← (build model options).mapError RunError.build
  source graph comment

theorem compile_performs (model options : String) (comment : Option String) :
    Performs (compile model options comment) (Stencil.compile model options comment) := by
  refine (Performs.lift _).bind fun options _ => ?_
  refine (Performs.lift _).bind fun model _ => ?_
  refine ((build_performs model options).mapError _).bind fun g hg => ?_
  have hbuild := Except.mapError_eq_ok.1 hg
  -- A graph is printed without a trap for its indexes and the geometry of its routines.
  have hregular : ∀ r ∈ g.routines, r.convolution.Regular := by
    intro r hr
    obtain ⟨n, hn⟩ := Graph.build_resolved hbuild r hr
    exact (Node.convolution_eq_ok (Node.resolve_eq_ok hn).convolution_eq).1
  rw [source_eq_ok (Graph.build_eq_ok hbuild).indexed hregular comment]
  exact .ok _

/-! ## Evaluating -/

/-- The cells of an output with the given height and width. -/
def cellsWithin (c : Convolution) (sizes : Spatial Nat) : List (Nat × Nat × Nat × Nat) :=
  (List.range c.batch).flatMap fun image =>
    (List.range c.channelsOut).flatMap fun output =>
      (List.range sizes.height).flatMap fun row =>
        (List.range sizes.width).map fun column => (image, output, row, column)

/-- The geometry, read off its shapes, strides and pads one by one. -/
def entries (c : Convolution) : Except Trap Convolution := do
  return { c with
    batch := ← elementAt c.dataShape 0
    channelsIn := ← elementAt c.dataShape 1
    windows := ⟨← windowOf c 0, ← windowOf c 1⟩ }

/-- The values of all outputs; a fault on the way is a trap. -/
def evaluate (c : Convolution) (quantize : Bool) (data weights : List Int32) (zero : Int32) :
    Trapping ResolveError (List Int32) := do
  let read ← entries c
  let sizes ← outputSizes c
  let divisor ← c.divisor? quantize
  if data.length ≠ c.dataSize ∨ weights.length ≠ c.weightsSize then
    .error (.invalidShape (.valueCounts c.dataSize c.weightsSize data.length weights.length))
  else
    let values ← ((cellsWithin read sizes).mapM fun (image, output, row, column) =>
      Convolution.evaluateCell divisor data.toArray weights.toArray zero (read.taps image output row column)
      ).mapError fault
    return values.filterMap id

theorem entries_eq_ok (c : Convolution) : entries c = .ok c := rfl

theorem evaluate_performs {c : Convolution} (h : c.Regular) (quantize : Bool) (data weights : List Int32)
    (zero : Int32) :
    Performs (evaluate c quantize data weights zero) (c.evaluate quantize data weights zero) := by
  refine Performs.step (entries_eq_ok c) (Performs.step (outputSizes_eq_ok h) ?_)
  refine (Performs.lift _).bind fun divisor hdivisor => ?_
  split
  next => exact .error _
  next hlength =>
    rw [not_or, not_not, not_not] at hlength
    have hcells := Convolution.mapM_evaluateCell_eq_ok h hdivisor hlength.1 hlength.2 zero
    rw [hcells]
    exact Performs.step (congrArg (Except.mapError fault) hcells) (.ok _)

end Careful

/-! ## Faults -/

/-- No model is refused by a fault, from whatever text it is. -/
theorem faultless_compile (model options : String) (comment : Option String) :
    (compile model options comment).Avoids fun i => RunError.build (.nodeFault i) := by
  refine Except.Avoids.bind (.mapError fun _ _ h => nomatch h) fun options _ => ?_
  refine Except.Avoids.bind (.mapError fun _ _ h => nomatch h) fun model _ => ?_
  refine Except.Avoids.bind (.mapError fun i e h he => ?_) fun _ _ => .ok _
  exact Graph.faultless_build model options i (he.trans (congrArg _ (RunError.build.inj h)))

/-- Compiling any model, with any options and any comment on top, ends without a trap, and so does
the evaluation of any resolved convolution. No fault passes for an error on the way, and no sum is
divided by zero or by minus one. -/
theorem never_traps :
    (∀ (model options : String) (comment : Option String),
      Performs (Careful.compile model options comment) (compile model options comment) ∧
        ∀ node fault, compile model options comment ≠ .error (.build (.resolve node (.fault fault)))) ∧
      ∀ (n : Node) (c : Convolution), n.convolution = .ok c →
        ∀ (quantize : Bool) (data weights : List Int32) (zero : Int32),
          Performs (Careful.evaluate c quantize data weights zero) (c.evaluate quantize data weights zero) ∧
            (∀ fault, c.evaluate quantize data weights zero ≠ .error (.fault fault)) ∧
            ∀ divisor, c.divisor? quantize = .ok (some divisor) → divisor ≠ 0 ∧ divisor ≠ -1 := by
  constructor
  · intro model options comment
    exact ⟨Careful.compile_performs model options comment,
      fun node fault => faultless_compile model options comment (node, fault)⟩
  · intro n c hc quantize data weights zero
    have hregular : c.Regular := (Node.convolution_eq_ok hc).1
    refine ⟨Careful.evaluate_performs hregular quantize data weights zero,
      Convolution.evaluate_ne_fault hregular quantize data weights zero, ?_⟩
    intro divisor hdivisor
    exact ne_of_toInt_pos (hregular.divisor_pos hdivisor divisor rfl)

/-- A quantized convolution whose windows reach into the padding. -/
theorem never_traps_tallNode :
    tallNode.convolution = .ok tallConvolution ∧ tallConvolution.divisor? true = .ok (some 96) ∧
      Performs (Careful.evaluate tallConvolution true (List.replicate 24 250) (List.replicate 24 (-7)) 3)
        (tallConvolution.evaluate true (List.replicate 24 250) (List.replicate 24 (-7)) 3) ∧
      (96 : Int32) ≠ 0 ∧ (96 : Int32) ≠ -1 := by
  have hnode : tallNode.convolution = .ok tallConvolution := rfl
  have hdivisor : tallConvolution.divisor? true = .ok (some 96) := rfl
  obtain ⟨hperforms, -, hdivides⟩ := never_traps.2 tallNode tallConvolution hnode true
    (List.replicate 24 250) (List.replicate 24 (-7)) 3
  exact ⟨hnode, hdivisor, hperforms, hdivides 96 hdivisor⟩

end Stencil
