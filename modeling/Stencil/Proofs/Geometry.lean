import Mathlib.Algebra.Order.Floor.Div
import Stencil.Convolution
import Stencil.Proofs.Outcome

/-!
# Resolved geometry

What every accepted convolution satisfies. Kernels and strides are positive, nothing is
dilated, and the kernel fits in the padded data on both axes; the shapes of the two
inputs are those that the geometry was read from.
-/

namespace Stencil

/-- A window over which a kernel can slide. -/
structure Window.Regular (w : Window) : Prop where
  kernel_pos : 0 < w.kernel
  stride_pos : 0 < w.stride
  dilation_eq : w.dilation = 1
  reach_le : w.reach ≤ w.padded

structure Convolution.Regular (c : Convolution) : Prop where
  height : c.windows.height.Regular
  width : c.windows.width.Regular
  group_eq : c.group = 1

namespace Convolution

variable (c : Convolution)

def dataShape : List Nat :=
  [c.batch, c.channelsIn, c.inputSizes.height, c.inputSizes.width]

def weightsShape : List Nat :=
  [c.channelsOut, c.channelsIn, c.kernelShape.height, c.kernelShape.width]

end Convolution

/-! ## Axes -/

namespace Axis

variable {a : Axis}

/-- Without dilation a kernel spans as many elements as it has. -/
theorem reach_eq (hkernel : 0 < a.kernel) (hdilation : a.dilation = 1) : a.reach = a.kernel := by
  simp only [reach, hdilation]
  omega

theorem sameOutputs_eq (a : Axis) : a.sameOutputs = a.input ⌈/⌉ a.stride :=
  (Nat.ceilDiv_eq_add_pred_div _ _).symm

/-- The two `SAME` policies give the halves of the padding in either order. -/
theorem samePads_eq_ok (hkernel : 0 < a.kernel) (hstride : 0 < a.stride) :
    ∃ small large, small + large = a.samePadding ∧ small ≤ large ∧ large ≤ small + 1 ∧
      a.samePads false = .ok (small, large) ∧ a.samePads true = .ok (large, small) := by
  refine ⟨a.samePadding / 2, a.samePadding - a.samePadding / 2, by omega, by omega, by omega, ?_, ?_⟩
  · simp only [samePads, if_neg hstride.ne', if_neg hkernel.ne']
    rfl
  · simp only [samePads, if_neg hstride.ne', if_neg hkernel.ne']
    rfl

end Axis

/-! ## Windows -/

namespace Window

variable {w : Window}

theorem Regular.reach_eq (h : w.Regular) : w.reach = w.kernel :=
  Axis.reach_eq h.kernel_pos h.dilation_eq

theorem Regular.size?_eq (h : w.Regular) : w.size? = some w.size := by
  rw [size, size?, if_pos h.reach_le, Option.getD_some]

theorem Regular.size_eq (h : w.Regular) :
    w.size = (w.padded - w.kernel) / w.stride + 1 := by
  have hle := h.reach_le
  rw [size, size?, if_pos hle, h.reach_eq, Option.getD_some]

theorem Regular.size_pos (h : w.Regular) : 0 < w.size := by
  rw [h.size_eq]
  exact Nat.succ_pos _

theorem Regular.position_eq (h : w.Regular) (output tap : Nat) :
    w.position output tap = (output * w.stride : Nat) - (w.padBegin : Int) + tap := by
  simp [position, start, h.dilation_eq]

theorem index?_eq_some {output tap i : Nat} :
    w.index? output tap = some i ↔ w.position output tap = i ∧ i < w.input := by
  simp only [index?]
  split
  next h => simp only [Option.some.injEq]; omega
  next h => simp only [reduceCtorEq, false_iff]; omega

theorem index?_eq_none {output tap : Nat} :
    w.index? output tap = none ↔
      w.position output tap < 0 ∨ (w.input : Int) ≤ w.position output tap := by
  simp only [index?]
  split
  next h => simp only [reduceCtorEq, false_iff]; omega
  next h => simp only [true_iff]; omega

end Window

/-! ## Checks -/

theorem positivePair_eq_ok {name : String} {values : List Int} {s : Spatial Nat}
    (h : positivePair name values = .ok s) : 0 < s.height ∧ 0 < s.width := by
  unfold positivePair at h
  split at h
  next height width =>
    split at h
    next hpos =>
      obtain ⟨rfl⟩ := h
      simp only [Int.lt_toNat]
      exact hpos
    next => cases h
  next => cases h

theorem resolveStrides_eq_ok {values : Option (List Int)} {s : Spatial Nat}
    (h : resolveStrides values = .ok s) : 0 < s.height ∧ 0 < s.width := by
  cases values with
  | none =>
    obtain ⟨rfl⟩ := h
    exact ⟨Nat.one_pos, Nat.one_pos⟩
  | some values => exact positivePair_eq_ok h

/-- Whether or not a kernel shape is given, the kernel is that of the weights. -/
theorem resolveKernel_eq_ok {weights s : Spatial Nat} {values : Option (List Int)}
    (h : resolveKernel weights values = .ok s) : s = weights := by
  cases values with
  | none =>
    obtain ⟨rfl⟩ := h
    rfl
  | some values =>
    obtain ⟨kernel, -, h⟩ := Except.bind_eq_ok.1 h
    split at h
    next heq => rw [← heq, Except.pure_eq_ok.1 h]
    next => cases h

namespace Node

variable {n : Node}

theorem mandatory_eq_ok {input : MandatoryInput} {t : Tensor} :
    n.mandatory input = .ok t ↔ n.input? input.index = some t := by
  unfold mandatory
  split <;> simp_all

/-- What a request is read from: the tensors behind the first two inputs, and the attributes. -/
structure Requests (n : Node) (data weights : Tensor) (a : ConvAttributes) (r : ConvRequest) : Prop where
  data_eq : n.input? 0 = some data
  weights_eq : n.input? 1 = some weights
  data_shape : data.shape = [r.batch, r.channelsIn, r.axes.height.input, r.axes.width.input]
  weights_shape :
    weights.shape = [r.channelsOut, r.weightsChannels, r.axes.height.kernel, r.axes.width.kernel]
  kernel_pos : 0 < r.axes.height.kernel ∧ 0 < r.axes.width.kernel
  attributes_eq : ConvAttributes.ofEntries n.operator n.attributes = .ok a
  strides_eq : resolveStrides a.strides = .ok ⟨r.axes.height.stride, r.axes.width.stride⟩
  dilations_eq : checkDilations a.dilations = .ok ()
  dilation_eq : r.axes.height.dilation = 1 ∧ r.axes.width.dilation = 1
  kernelShape_eq : resolveKernel ⟨r.axes.height.kernel, r.axes.width.kernel⟩ a.kernelShape =
    .ok ⟨r.axes.height.kernel, r.axes.width.kernel⟩
  pads_eq : r.pads = a.pads
  autoPad_eq : r.autoPad = a.autoPad
  group_eq : r.group = a.group

theorem convRequest_eq_ok {r : ConvRequest} :
    n.convRequest = .ok r ↔ ∃ data weights a, n.Requests data weights a r := by
  constructor
  · intro h
    obtain ⟨data, hdata, h⟩ := Except.bind_eq_ok.1 h
    obtain ⟨weights, hweights, h⟩ := Except.bind_eq_ok.1 h
    rw [mandatory_eq_ok] at hdata hweights
    split at h
    next batch channelsIn height width hshape =>
      obtain ⟨attributes, hattributes, h⟩ := Except.bind_eq_ok.1 h
      obtain ⟨strides, hstrides, h⟩ := Except.bind_eq_ok.1 h
      obtain ⟨_, hdilations, h⟩ := Except.bind_eq_ok.1 h
      split at h
      next channelsOut weightsChannels kernelHeight kernelWidth hkernel =>
        split at h
        next => cases h
        next hpos =>
          obtain ⟨kernel, hk, h⟩ := Except.bind_eq_ok.1 h
          obtain rfl := resolveKernel_eq_ok hk
          obtain rfl := Except.pure_eq_ok.1 h
          have hpos : 0 < kernelHeight ∧ 0 < kernelWidth := by omega
          exact ⟨data, weights, attributes, hdata, hweights, hshape, hkernel, hpos, hattributes, hstrides,
            hdilations, ⟨rfl, rfl⟩, hk, rfl, rfl, rfl⟩
      next => cases h
    next => cases h
  · rintro ⟨data, weights, a, h⟩
    obtain ⟨batch, channelsIn, channelsOut, weightsChannels, ⟨⟨height, kernelHeight, strideHeight, _⟩,
      ⟨width, kernelWidth, strideWidth, _⟩⟩, pads, autoPad, group⟩ := r
    obtain ⟨hdata, hweights, hshape, hkernel, hpos, hattributes, hstrides, hdilations, ⟨rfl, rfl⟩, hk, rfl, rfl,
      rfl⟩ := h
    dsimp only at hshape hkernel hpos hstrides hk
    have hnonempty : ¬ (kernelHeight = 0 ∨ kernelWidth = 0) := by omega
    have hdata : n.mandatory .data = .ok data := mandatory_eq_ok.2 hdata
    have hweights : n.mandatory .weights = .ok weights := mandatory_eq_ok.2 hweights
    simp only [convRequest, hdata, hweights, Except.ok_bind, hshape, hkernel, hattributes, hstrides, hdilations,
      if_neg hnonempty, hk]
    rfl

end Node

namespace ConvRequest

theorem fits_iff {windows : Spatial Window} :
    fits windows = true ↔
      windows.height.reach ≤ windows.height.padded ∧ windows.width.reach ≤ windows.width.padded := by
  simp [fits, Window.size?_isSome]

/-- Resolving the padding of a request leaves everything else as requested. -/
theorem resolve_eq_ok {r : ConvRequest} {c : Convolution} :
    r.resolve = .ok c ↔ ∃ pads, Pads.resolve r.autoPad r.pads r.axes = .ok pads ∧ r.group = 1 ∧
      r.weightsChannels = r.channelsIn ∧ fits (pads.windows r.axes) ∧
      c = ⟨r.batch, r.channelsIn, r.channelsOut, pads.windows r.axes, 1, r.autoPad⟩ := by
  constructor
  · intro h
    obtain ⟨pads, hpads, h⟩ := Except.bind_eq_ok.1 h
    dsimp only at h
    split at h
    next => cases h
    next hgroup =>
      split at h
      next => cases h
      next hchannels =>
        split at h
        next hfits =>
          exact ⟨pads, hpads, not_not.1 hgroup, not_not.1 hchannels, hfits,
            (Except.pure_eq_ok.1 h).symm⟩
        next => cases h
  · rintro ⟨pads, hpads, hgroup, hchannels, hfits, rfl⟩
    rw [resolve, hpads, Except.ok_bind]
    dsimp only
    rw [if_neg (not_not_intro hgroup), if_neg (not_not_intro hchannels), if_pos hfits]
    rfl

end ConvRequest

/-- A convolution is accepted as a request, with its padding and what depends on that. -/
theorem Node.convolution_eq_ok_iff {n : Node} {c : Convolution} :
    n.convolution = .ok c ↔ ∃ data weights a r, n.Requests data weights a r ∧
      ∃ pads, Pads.resolve r.autoPad r.pads r.axes = .ok pads ∧ r.group = 1 ∧
        r.weightsChannels = r.channelsIn ∧ ConvRequest.fits (pads.windows r.axes) ∧
        c = ⟨r.batch, r.channelsIn, r.channelsOut, pads.windows r.axes, 1, r.autoPad⟩ := by
  rw [convolution, Except.bind_eq_ok]
  simp only [convRequest_eq_ok, ConvRequest.resolve_eq_ok]
  constructor
  · rintro ⟨r, ⟨data, weights, a, hrequests⟩, hpads⟩
    exact ⟨data, weights, a, r, hrequests, hpads⟩
  · rintro ⟨data, weights, a, r, hrequests, hpads⟩
    exact ⟨r, ⟨data, weights, a, hrequests⟩, hpads⟩

/-- An accepted convolution is regular, and its sizes are those of the two inputs. -/
theorem Node.convolution_eq_ok {n : Node} {c : Convolution} (h : n.convolution = .ok c) :
    c.Regular ∧ ∃ data weights, n.input? 0 = some data ∧ n.input? 1 = some weights ∧
      data.shape = c.dataShape ∧ weights.shape = c.weightsShape := by
  obtain ⟨data, weights, a, r, hrequests, pads, -, -, hchannels, hfits, rfl⟩ := convolution_eq_ok_iff.1 h
  obtain ⟨hkh, hkw⟩ := hrequests.kernel_pos
  obtain ⟨hsh, hsw⟩ := resolveStrides_eq_ok hrequests.strides_eq
  obtain ⟨hdh, hdw⟩ := hrequests.dilation_eq
  obtain ⟨hfh, hfw⟩ := ConvRequest.fits_iff.1 hfits
  refine ⟨⟨⟨hkh, hsh, hdh, hfh⟩, ⟨hkw, hsw, hdw, hfw⟩, rfl⟩, data, weights, hrequests.data_eq,
    hrequests.weights_eq, hrequests.data_shape, ?_⟩
  rw [hrequests.weights_shape, hchannels]
  rfl

end Stencil
