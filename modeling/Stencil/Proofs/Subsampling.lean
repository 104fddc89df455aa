import Stencil.Proofs.Attributes
import Stencil.Proofs.Padding

/-!
# Strides as subsampling

A convolution with strides leaves out outputs of the one that moves its kernel by single steps over
the same padded data. Those that it has are the outputs of the other one at the multiples of the strides.
-/

namespace Stencil

/-! ## Single steps -/

def Window.dense (w : Window) : Window := { w with stride := 1 }

/-- The convolution with the padding of another one, and a window at every position that has room for it. -/
def Convolution.dense (c : Convolution) : Convolution :=
  { c with windows := c.windows.map Window.dense, autoPad := .notSet }

/-- Pads as they are written on a node. -/
def Pads.values (p : Pads) : List Int := p.toList.map Int.ofNat

/-- The node with given pads in place of a policy, and without strides. -/
def Node.dense (n : Node) (p : Pads) : Node where
  operator := n.operator
  name := n.name
  inputs := n.inputs
  outputs := n.outputs
  attributes := ((n.attributes.set "auto_pad" (.text AutoPad.notSet.name)).set "pads" (.ints p.values)).set
    "strides" (.ints [1, 1])

theorem Pads.ofValues_values (p : Pads) : ofValues p.values = .ok p := rfl

namespace Window

variable {w : Window}

theorem Regular.dense (h : w.Regular) : w.dense.Regular := ⟨h.kernel_pos, Nat.one_pos, h.dilation_eq, h.reach_le⟩

/-- A window at an output begins where the one of single steps does that is as many strides further on. -/
theorem Regular.mul_stride_lt (h : w.Regular) {output : Nat} (houtput : output < w.size) :
    output * w.stride < w.dense.size := by
  have hend := h.filled.end_le houtput
  have hnext : w.input + w.padBegin + w.padEnd < w.dense.size * 1 + w.kernel := h.dense.filled.lt_next
  omega

end Window

/-! ## The dense node -/

namespace Node

variable {n : Node} {c : Convolution}

theorem ofEntries_dense {a : ConvAttributes} (h : ConvAttributes.ofEntries n.operator n.attributes = .ok a) (p : Pads) :
    ConvAttributes.ofEntries (n.dense p).operator (n.dense p).attributes =
      .ok { a with strides := some [1, 1], pads := some p.values, autoPad := .notSet } := by
  have hread := ConvAttributes.ofEntries_set
    (ConvAttributes.ofEntries_set (ConvAttributes.ofEntries_set h (.autoPad .notSet)) (.pads p.values))
    (.strides [1, 1])
  rw [dense]
  refine hread.trans (congrArg Except.ok ?_)
  simp [ConvAttributes.overlay, Association.find?_cons, AttributeValue.ints?, AttributeValue.text?,
    AutoPad.ofName?_name]

/-- The dense node is a convolution with single steps over the same padded data. -/
theorem convolution_dense (h : n.convolution = .ok c) : (n.dense c.pads).convolution = .ok c.dense := by
  have hreg := (convolution_eq_ok h).1
  obtain ⟨data, weights, a, r, hr, pads, -, hgroup, hchannels, -, rfl⟩ := convolution_eq_ok_iff.1 h
  let request : ConvRequest := { r with
    axes := r.axes.map ({ · with stride := 1 })
    pads := some pads.values
    autoPad := .notSet }
  have hfits : ConvRequest.fits (pads.windows request.axes) :=
    ConvRequest.fits_iff.2 ⟨hreg.height.dense.reach_le, hreg.width.dense.reach_le⟩
  refine convolution_eq_ok_iff.2 ⟨data, weights,
    { a with strides := some [1, 1], pads := some pads.values, autoPad := .notSet }, request, ?_,
    pads, pads.ofValues_values, hgroup, hchannels, hfits, rfl⟩
  exact { hr with
    attributes_eq := ofEntries_dense hr.attributes_eq pads
    strides_eq := rfl
    pads_eq := rfl
    autoPad_eq := rfl }

end Node

/-! ## The same sums -/

namespace Convolution

variable {c : Convolution}

theorem Regular.dense (h : c.Regular) : c.dense.Regular := ⟨h.height.dense, h.width.dense, h.group_eq⟩

theorem exactProduct_dense (c : Convolution) (data weights : List Int32) (zero : Int32) (b m o₀ o₁ channel k₀ k₁ : Nat) :
    c.dense.exactProduct data weights zero b m (o₀ * c.strides.height) (o₁ * c.strides.width) channel k₀ k₁ =
      c.exactProduct data weights zero b m o₀ o₁ channel k₀ k₁ := by
  have hstep : ∀ o stride : Nat, ((o * stride : Nat) * (1 : Nat) : Int) = o * stride := by
    intro o stride
    push_cast
    exact mul_one _
  unfold exactProduct
  rw [show c.dense.strides.height = 1 from rfl, show c.dense.strides.width = 1 from rfl, hstep, hstep]
  rfl

theorem exactSum_dense (c : Convolution) (data weights : List Int32) (zero : Int32) (b m o₀ o₁ : Nat) :
    c.dense.exactSum data weights zero b m (o₀ * c.strides.height) (o₁ * c.strides.width) =
      c.exactSum data weights zero b m o₀ o₁ := by
  refine Finset.sum_congr rfl fun channel _ => Finset.sum_congr rfl fun k₀ _ => Finset.sum_congr rfl fun k₁ _ => ?_
  exact exactProduct_dense c data weights zero b m o₀ o₁ channel k₀ k₁

/-- An output has the value of the one with single steps at a multiple of the strides. -/
theorem element?_values_dense (h : c.Regular) (divisor : Option Int32) (data weights : List Int32) (zero : Int32)
    {b m o₀ o₁ : Nat} (hb : b < c.batch) (hm : m < c.channelsOut) (ho₀ : o₀ < c.outputSizes.height)
    (ho₁ : o₁ < c.outputSizes.width) :
    C.element? c.dense.outputShape (c.dense.values divisor data weights zero)
        [b, m, o₀ * c.strides.height, o₁ * c.strides.width] =
      C.element? c.outputShape (c.values divisor data weights zero) [b, m, o₀, o₁] := by
  have hrow : o₀ * c.strides.height < c.dense.outputSizes.height := h.height.mul_stride_lt ho₀
  have hcolumn : o₁ * c.strides.width < c.dense.outputSizes.width := h.width.mul_stride_lt ho₁
  rw [element?_values h.dense divisor data weights zero hb hm hrow hcolumn,
    element?_values h divisor data weights zero hb hm ho₀ ho₁, exactSum_dense]

end Convolution

/-- A node with its pads given and its strides taken away is accepted, and has the outputs of the node
itself at the multiples of its strides. -/
theorem Node.evaluate_dense {n : Node} {c : Convolution} (h : n.convolution = .ok c) :
    (n.dense c.pads).convolution = .ok c.dense ∧
      ∀ quantize data weights zero, data.length = c.dataSize → weights.length = c.weightsSize →
        (quantize = true → 16 * c.kernelArea ≤ 2 ^ 31 - 1) →
        ∃ values all, c.evaluate quantize data weights zero = .ok values ∧
          c.dense.evaluate quantize data weights zero = .ok all ∧
          ∀ b < c.batch, ∀ m < c.channelsOut, ∀ o₀ < c.outputSizes.height, ∀ o₁ < c.outputSizes.width,
            o₀ * c.strides.height < c.dense.outputSizes.height ∧ o₁ * c.strides.width < c.dense.outputSizes.width ∧
            ∃ value, C.element? c.outputShape values [b, m, o₀, o₁] = some value ∧
              C.element? c.dense.outputShape all [b, m, o₀ * c.strides.height, o₁ * c.strides.width] = some value := by
  have hc : c.Regular := (convolution_eq_ok h).1
  refine ⟨convolution_dense h, fun quantize data weights zero hdata hweights harea => ?_⟩
  let divisor := if quantize then some (Int32.ofNat (16 * c.kernelArea)) else none
  have hd : c.divisor? quantize = .ok divisor := Convolution.divisor?_eq_ok_iff.2 ⟨harea, rfl⟩
  refine ⟨_, _, Convolution.evaluate_eq_ok hc hd hdata hweights zero,
    Convolution.evaluate_eq_ok hc.dense hd hdata hweights zero, ?_⟩
  intro b hb m hm o₀ ho₀ o₁ ho₁
  have hvalue := Convolution.element?_values hc divisor data weights zero hb hm ho₀ ho₁
  exact ⟨hc.height.mul_stride_lt ho₀, hc.width.mul_stride_lt ho₁, _, hvalue,
    (Convolution.element?_values_dense hc divisor data weights zero hb hm ho₀ ho₁).trans hvalue⟩

/-- The second row of the outputs is the third one of the dense node. -/
theorem evaluate_dense_tallNode :
    (tallNode.dense ⟨⟨1, 0⟩, ⟨0, 2⟩⟩).convolution = .ok tallConvolution.dense ∧
      ∃ values all, tallConvolution.evaluate false (List.replicate 24 9) (List.replicate 24 40) 5 = .ok values ∧
        tallConvolution.dense.evaluate false (List.replicate 24 9) (List.replicate 24 40) 5 = .ok all ∧
        ∃ value, C.element? [1, 2, 2, 4] values [0, 1, 1, 3] = some value ∧
          C.element? [1, 2, 3, 4] all [0, 1, 2, 3] = some value := by
  have hnode : tallNode.convolution = .ok tallConvolution := rfl
  obtain ⟨hdense, hevaluate⟩ := Node.evaluate_dense hnode
  obtain ⟨values, all, hvalues, hall, hsame⟩ :=
    hevaluate false (List.replicate 24 9) (List.replicate 24 40) 5 rfl rfl nofun
  exact ⟨hdense, values, all, hvalues, hall, (hsame 0 (by decide) 1 (by decide) 1 (by decide) 3 (by decide)).2.2⟩

end Stencil
