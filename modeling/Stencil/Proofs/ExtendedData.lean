import Stencil.Proofs.Attributes
import Stencil.Proofs.ConvolutionSum
import Stencil.Proofs.Coverage

/-!
# Padding written out

The padding of a convolution can be written into its data. Where each new element is the zero point,
the convolution of the extended data without padding has the same outputs as the one that skips its
padding, and the same errors.
-/

namespace Stencil

/-! ## Extended data -/

/-- The axis of the data with its pads as elements. -/
def Window.extended (w : Window) : Window := { w with input := w.padded, padBegin := 0, padEnd := 0 }

/-- The shape of images with padding on both sides of each axis. -/
def Tensor.extended (t : Tensor) (p : Pads) : Tensor where
  name := t.name
  type := t.type
  shape := match t.shape with
    | [batch, channels, height, width] =>
      [batch, channels, height + p.begins.height + p.ends.height, width + p.begins.width + p.ends.width]
    | shape => shape

/-- The node on data that have the pads as elements, without attributes for padding. -/
def Node.extended (n : Node) (p : Pads) : Node where
  operator := n.operator
  name := n.name
  inputs := n.inputs.modify 0 (·.map (·.extended p))
  outputs := n.outputs
  attributes := (n.attributes.erase "auto_pad").erase "pads"

namespace Convolution

variable (c : Convolution)

def extended : Convolution := { c with windows := c.windows.map Window.extended, autoPad := .notSet }

/-- The element of the extended data at an index: one of the data, or the zero point in the padding. -/
def extendedElement (data : List Int32) (zero : Int32) : Nat × Nat × Nat × Nat → Int32
  | (image, channel, row, column) =>
    let top := c.windows.height.padBegin
    let left := c.windows.width.padBegin
    if top ≤ row ∧ row < top + c.windows.height.input ∧ left ≤ column ∧ column < left + c.windows.width.input then
      data.getD (c.dataIndex image channel (row - top) (column - left)) 0
    else zero

/-- The data with the padding around each image filled with the zero point. -/
def extendedData (data : List Int32) (zero : Int32) : List Int32 :=
  (indices c.batch c.channelsIn c.windows.height.padded c.windows.width.padded).map (c.extendedElement data zero)

variable {c} {data : List Int32} {zero : Int32}

theorem length_extendedData : (c.extendedData data zero).length = c.extended.dataSize := by
  rw [extendedData, List.length_map, length_indices]
  rfl

/-- The extended data hold each element at its index. -/
theorem getElem?_extendedData {b channel i j : Nat} (hb : b < c.batch) (hc : channel < c.channelsIn)
    (hi : i < c.windows.height.padded) (hj : j < c.windows.width.padded) :
    (c.extendedData data zero)[c.extended.dataIndex b channel i j]? =
      some (c.extendedElement data zero (b, channel, i, j)) := by
  have hindex : (indices c.batch c.channelsIn c.windows.height.padded c.windows.width.padded)[
      c.extended.dataIndex b channel i j]? = some (b, channel, i, j) :=
    getElem?_indices (mem_indices.2 ⟨hb, hc, hi, hj⟩)
  rw [extendedData, List.getElem?_map, hindex, Option.map_some]

example : extendedData ⟨1, 1, 1, ⟨⟨⟨1, 1, 1, 1⟩, 1, 0⟩, ⟨⟨2, 1, 1, 1⟩, 0, 1⟩⟩, 1, .notSet⟩ [7, 8] 3 = [3, 3, 3, 7, 8, 3] := by
  decide

/-- Under a kernel position the extended data have the element that it covers, or else the zero point. -/
theorem extendedElement_eq (h : c.Regular) (b channel o₀ o₁ k₀ k₁ : Nat) :
    c.extendedElement data zero
        (b, channel, o₀ * c.windows.height.stride + k₀, o₁ * c.windows.width.stride + k₁) =
      match c.windows.height.index? o₀ k₀, c.windows.width.index? o₁ k₁ with
      | some i₀, some i₁ => data.getD (c.dataIndex b channel i₀ i₁) 0
      | _, _ => zero := by
  have hrow := h.height.position_eq o₀ k₀
  have hcolumn := h.width.position_eq o₁ k₁
  cases h₀ : c.windows.height.index? o₀ k₀ with
  | none =>
    have hout := Window.index?_eq_none.1 h₀
    exact if_neg (by omega)
  | some i₀ =>
    obtain ⟨hpos₀, hlt₀⟩ := Window.index?_eq_some.1 h₀
    have hi₀ : o₀ * c.windows.height.stride + k₀ = c.windows.height.padBegin + i₀ := by omega
    cases h₁ : c.windows.width.index? o₁ k₁ with
    | none =>
      have hout := Window.index?_eq_none.1 h₁
      exact if_neg (by omega)
    | some i₁ =>
      obtain ⟨hpos₁, hlt₁⟩ := Window.index?_eq_some.1 h₁
      have hi₁ : o₁ * c.windows.width.stride + k₁ = c.windows.width.padBegin + i₁ := by omega
      rw [extendedElement, hi₀, hi₁, if_pos (by omega)]
      simp only [Nat.add_sub_cancel_left]

end Convolution

/-! ## The extended node -/

namespace Window

variable {w : Window}

theorem Regular.extended (h : w.Regular) : w.extended.Regular :=
  ⟨h.kernel_pos, h.stride_pos, h.dilation_eq, h.reach_le⟩

/-- With its pads as elements, all of every window of the axis lies on the data. -/
theorem Regular.full_extended (h : w.Regular) : w.extended.Full := h.extended.full ⟨rfl, rfl⟩

theorem Regular.index?_extended (h : w.Regular) {output tap : Nat} (houtput : output < w.size) (htap : tap < w.kernel) :
    w.extended.index? output tap = some (output * w.stride + tap) ∧ output * w.stride + tap < w.padded := by
  have hindex := h.full_extended.index?_eq h.extended houtput htap
  exact ⟨hindex, (index?_eq_some.1 hindex).2⟩

end Window

namespace Node

variable {n : Node} {p : Pads} {c : Convolution}

theorem input?_extended_zero : (n.extended p).input? 0 = (n.input? 0).map (·.extended p) := by
  unfold input? extended
  rw [List.getElem?_modify]
  cases n.inputs[0]? <;> simp

theorem input?_extended_succ (i : Nat) : (n.extended p).input? (i + 1) = n.input? (i + 1) := by
  simp [input?, extended]

/-- The extended node is a convolution of the extended data. -/
theorem convolution_extended (h : n.convolution = .ok c) : (n.extended c.pads).convolution = .ok c.extended := by
  have hreg := (convolution_eq_ok h).1
  obtain ⟨data, weights, a, r, hr, pads, -, hgroup, hchannels, -, rfl⟩ := convolution_eq_ok_iff.1 h
  have hattributes := ConvAttributes.ofEntries_erase (ConvAttributes.ofEntries_erase hr.attributes_eq "auto_pad") "pads"
  have hunpadded : (a.without "auto_pad").without "pads" = { a with pads := none, autoPad := .notSet } := by
    simp [ConvAttributes.without]
  rw [hunpadded] at hattributes
  let request : ConvRequest := { r with
    axes := ⟨{ r.axes.height with input := (r.axes.height.window pads.begins.height pads.ends.height).padded },
      { r.axes.width with input := (r.axes.width.window pads.begins.width pads.ends.width).padded }⟩
    pads := none
    autoPad := .notSet }
  have hfits : ConvRequest.fits (Pads.zero.windows request.axes) :=
    ConvRequest.fits_iff.2 ⟨hreg.height.extended.reach_le, hreg.width.extended.reach_le⟩
  refine convolution_eq_ok_iff.2 ⟨data.extended pads, weights, { a with pads := none, autoPad := .notSet }, request,
    ?_, Pads.zero, rfl, hgroup, hchannels, hfits, rfl⟩
  exact { hr with
    data_eq := by
      rw [input?_extended_zero, hr.data_eq]
      rfl
    weights_eq := (input?_extended_succ 0).trans hr.weights_eq
    data_shape := by
      rw [Tensor.extended, hr.data_shape]
      rfl
    attributes_eq := hattributes
    pads_eq := rfl
    autoPad_eq := rfl }

end Node

/-! ## The same outputs -/

namespace Convolution

variable {c : Convolution}

theorem Regular.extended (h : c.Regular) : c.extended.Regular :=
  ⟨h.height.extended, h.width.extended, h.group_eq⟩

/-- In the padding the extended data have the zero point, whose product counts for nothing. -/
theorem exactProduct_extended (h : c.Regular) (data weights : List Int32) (zero : Int32)
    {b m o₀ o₁ channel k₀ k₁ : Nat} (hb : b < c.batch) (hm : m < c.channelsOut) (ho₀ : o₀ < c.outputSizes.height)
    (ho₁ : o₁ < c.outputSizes.width) (hc : channel < c.channelsIn) (hk₀ : k₀ < c.kernelShape.height)
    (hk₁ : k₁ < c.kernelShape.width) :
    c.extended.exactProduct (c.extendedData data zero) weights zero b m o₀ o₁ channel k₀ k₁ =
      c.exactProduct data weights zero b m o₀ o₁ channel k₀ k₁ := by
  obtain ⟨hindex₀, hrow⟩ := h.height.index?_extended ho₀ hk₀
  obtain ⟨hindex₁, hcolumn⟩ := h.width.index?_extended ho₁ hk₁
  have helement : (c.extendedData data zero).getD (c.extended.dataIndex b channel
        (o₀ * c.windows.height.stride + k₀) (o₁ * c.windows.width.stride + k₁)) 0 =
      c.extendedElement data zero
        (b, channel, o₀ * c.windows.height.stride + k₀, o₁ * c.windows.width.stride + k₁) := by
    rw [List.getD_eq_getElem?_getD, getElem?_extendedData hb hc hrow hcolumn, Option.getD_some]
  rw [extendedElement_eq h] at helement
  have hextended : c.extended.exactProduct (c.extendedData data zero) weights zero b m o₀ o₁ channel k₀ k₁ =
      tapProduct (c.extendedData data zero) weights zero
        (c.extended.dataIndex b channel (o₀ * c.windows.height.stride + k₀) (o₁ * c.windows.width.stride + k₁),
          c.weightIndex m channel k₀ k₁) := by
    rw [exactProduct_eq h.extended _ weights zero o₀ o₁ hb hm hc hk₀ hk₁,
      show c.extended.windows.height.index? o₀ k₀ = _ from hindex₀,
      show c.extended.windows.width.index? o₁ k₁ = _ from hindex₁]
    rfl
  rw [hextended, exactProduct_eq h data weights zero o₀ o₁ hb hm hc hk₀ hk₁, tapProduct, helement]
  cases c.windows.height.index? o₀ k₀ with
  | none => simp
  | some i₀ =>
    cases c.windows.width.index? o₁ k₁ with
    | none => simp
    | some i₁ => rfl

theorem exactSum_extended (h : c.Regular) (data weights : List Int32) (zero : Int32) {b m o₀ o₁ : Nat}
    (hb : b < c.batch) (hm : m < c.channelsOut) (ho₀ : o₀ < c.outputSizes.height) (ho₁ : o₁ < c.outputSizes.width) :
    c.extended.exactSum (c.extendedData data zero) weights zero b m o₀ o₁ = c.exactSum data weights zero b m o₀ o₁ := by
  refine Finset.sum_congr rfl fun channel hc => Finset.sum_congr rfl fun k₀ hk₀ => Finset.sum_congr rfl fun k₁ hk₁ => ?_
  exact exactProduct_extended h data weights zero hb hm ho₀ ho₁ (Finset.mem_range.1 hc) (Finset.mem_range.1 hk₀)
    (Finset.mem_range.1 hk₁)

theorem values_extended (h : c.Regular) (divisor : Option Int32) (data weights : List Int32) (zero : Int32) :
    c.extended.values divisor (c.extendedData data zero) weights zero = c.values divisor data weights zero := by
  refine List.map_congr_left ?_
  rintro ⟨b, m, i, j⟩ hcell
  obtain ⟨hb, hm, hi, hj⟩ := mem_cells.1 hcell
  dsimp only
  rw [foldl_addProduct_taps h.extended _ weights zero i j hb hm,
    foldl_addProduct_taps h data weights zero i j hb hm, exactSum_extended h data weights zero hb hm hi hj]

theorem evaluate_extendedData (h : c.Regular) (quantize : Bool) {data weights : List Int32} (zero : Int32)
    (hdata : data.length = c.dataSize) (hweights : weights.length = c.weightsSize) :
    c.extended.evaluate quantize (c.extendedData data zero) weights zero = c.evaluate quantize data weights zero := by
  have hdivisor : c.extended.divisor? quantize = c.divisor? quantize := rfl
  cases hd : c.divisor? quantize with
  | error e => rw [evaluate, evaluate, hdivisor, hd, Except.error_bind, Except.error_bind]
  | ok divisor =>
    rw [evaluate_eq_ok h.extended (hdivisor.trans hd) length_extendedData hweights,
      evaluate_eq_ok h hd hdata hweights, values_extended h]

end Convolution

/-- A node whose padding is written into its data as zero points is accepted, and has the same outputs or
fails as the node itself does. -/
theorem Node.evaluate_extended {n : Node} {c : Convolution} (h : n.convolution = .ok c) :
    (n.extended c.pads).convolution = .ok c.extended ∧ c.extended.outputShape = c.outputShape ∧
      ∀ quantize data weights zero, data.length = c.dataSize → weights.length = c.weightsSize →
        (c.extendedData data zero).length = c.extended.dataSize ∧
        c.extended.evaluate quantize (c.extendedData data zero) weights zero =
          c.evaluate quantize data weights zero := by
  refine ⟨convolution_extended h, rfl, fun quantize data weights zero hdata hweights => ?_⟩
  exact ⟨Convolution.length_extendedData,
    Convolution.evaluate_extendedData (convolution_eq_ok h).1 quantize zero hdata hweights⟩

/-- Two of six columns and one of four rows are padding. -/
theorem evaluate_extended_tallNode :
    (tallNode.extended tallConvolution.pads).convolution = .ok tallConvolution.extended ∧
      tallConvolution.extended.evaluate true (tallConvolution.extendedData (List.replicate 24 9) 5)
          (List.replicate 24 40) 5 =
        tallConvolution.evaluate true (List.replicate 24 9) (List.replicate 24 40) 5 := by
  have hnode : tallNode.convolution = .ok tallConvolution := rfl
  obtain ⟨hextended, -, hevaluate⟩ := Node.evaluate_extended hnode
  exact ⟨hextended, (hevaluate true _ _ 5 rfl rfl).2⟩

end Stencil
