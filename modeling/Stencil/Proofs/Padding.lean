import Stencil.Proofs.ConvolutionSum

/-!
# Padding and the number of windows

The kernel has as many positions on a padded axis as fit: the last window ends inside of it,
and one more would not. A `SAME` policy adds just as much padding as `⌈input / stride⌉`
positions need, split into halves that differ by one at most.
-/

namespace Stencil

/-! ## Windows that fit -/

namespace Window

variable {w : Window}

/-- The last window ends inside of the padded axis, and the next one would not. -/
theorem size?_eq_some_iff (hstride : 0 < w.stride) {size : Nat} :
    w.size? = some size ↔ 0 < size ∧ (size - 1) * w.stride + w.reach ≤ w.padded ∧
      w.padded < size * w.stride + w.reach := by
  unfold size?
  cases size with
  | zero => simp
  | succ last =>
    have hnext : (last + 1) * w.stride = last * w.stride + w.stride := Nat.succ_mul _ _
    split
    next hle =>
      simp only [Option.some.injEq, Nat.add_right_cancel_iff, Nat.add_sub_cancel, hnext,
        Nat.div_eq_iff hstride]
      omega
    next hlt =>
      simp only [reduceCtorEq, Nat.add_sub_cancel, false_iff]
      omega

/-- The kernel fills the padded axis with windows. -/
structure Filled (w : Window) : Prop where
  size?_eq : w.size? = some w.size
  size_pos : 1 ≤ w.size
  last_le : (w.size - 1) * w.stride + w.kernel ≤ w.input + w.padBegin + w.padEnd
  lt_next : w.input + w.padBegin + w.padEnd < w.size * w.stride + w.kernel

theorem Regular.filled (h : w.Regular) : w.Filled := by
  obtain ⟨hpos, hlast, hnext⟩ := (size?_eq_some_iff h.stride_pos).1 h.size?_eq
  rw [h.reach_eq] at hlast hnext
  exact ⟨h.size?_eq, hpos, hlast, hnext⟩

/-- Every window ends inside of the padded axis. -/
theorem Filled.end_le (h : w.Filled) {output : Nat} (houtput : output < w.size) :
    output * w.stride + w.kernel ≤ w.input + w.padBegin + w.padEnd := by
  have hle : output * w.stride ≤ (w.size - 1) * w.stride :=
    Nat.mul_le_mul_right _ (Nat.le_sub_one_of_lt houtput)
  exact (Nat.add_le_add_right hle w.kernel).trans h.last_le

end Window

/-- The windows of an accepted convolution fill its padded data. Nothing is grouped or dilated, the
kernel is that of the weights, and the output has a value for each image, output channel and window. -/
theorem Node.convolution_filled {n : Node} {c : Convolution} (h : n.convolution = .ok c) :
    (∀ w ∈ c.windows.toList, w.Filled ∧ 1 ≤ w.kernel ∧ 1 ≤ w.stride) ∧
      c.group = 1 ∧ c.dilations = ⟨1, 1⟩ ∧
      ∃ data weights batch channels outputs : _,
        n.input? 0 = some data ∧ n.input? 1 = some weights ∧
        data.shape = [batch, channels, c.inputSizes.height, c.inputSizes.width] ∧
        weights.shape = [outputs, channels, c.kernelShape.height, c.kernelShape.width] ∧
        c.outputShape = [batch, outputs, c.outputSizes.height, c.outputSizes.width] := by
  obtain ⟨hregular, data, weights, hdata, hweights, hdataShape, hweightsShape⟩ := convolution_eq_ok h
  have hwindow : ∀ w : Window, w.Regular → w.Filled ∧ 1 ≤ w.kernel ∧ 1 ≤ w.stride := by
    intro w hw
    exact ⟨hw.filled, hw.kernel_pos, hw.stride_pos⟩
  refine ⟨?_, hregular.group_eq, ?_, ?_⟩
  · simp only [Spatial.toList, List.forall_mem_cons]
    exact ⟨hwindow _ hregular.height, hwindow _ hregular.width, nofun⟩
  · simp only [Convolution.dilations, Spatial.map, hregular.height.dilation_eq, hregular.width.dilation_eq]
  · exact ⟨data, weights, c.batch, c.channelsIn, c.channelsOut, hdata, hweights, hdataShape, hweightsShape, rfl⟩

theorem convolution_filled_tallNode :
    tallNode.convolution = .ok tallConvolution ∧ ∀ w ∈ tallConvolution.windows.toList, w.Filled := by
  have hnode : tallNode.convolution = .ok tallConvolution := rfl
  exact ⟨hnode, fun w hw => ((Node.convolution_filled hnode).1 w hw).1⟩

/-! ## Padding of an axis -/

theorem ceilDiv_bounds {n d : Nat} (hn : 0 < n) (hd : 0 < d) :
    0 < n ⌈/⌉ d ∧ (n ⌈/⌉ d - 1) * d < n ∧ n ≤ n ⌈/⌉ d * d := by
  have hle : ∀ q, n ⌈/⌉ d ≤ q ↔ n ≤ q * d := by
    intro q
    rw [ceilDiv_le_iff_le_mul hd, Nat.mul_comm]
  have hpos : 0 < n ⌈/⌉ d := by
    apply Nat.pos_of_ne_zero
    intro hzero
    have := (hle 0).1 hzero.le
    omega
  refine ⟨hpos, ?_, (hle _).1 le_rfl⟩
  have hlt : ¬ n ⌈/⌉ d ≤ n ⌈/⌉ d - 1 := by omega
  exact not_le.1 ((hle _).not.1 hlt)

namespace Axis

/-- An axis with elements, and a kernel that moves over them. -/
structure Proper (a : Axis) : Prop where
  input_pos : 1 ≤ a.input
  kernel_pos : 1 ≤ a.kernel
  stride_pos : 1 ≤ a.stride
  dilation_pos : 1 ≤ a.dilation

/-- With the pads an axis has `⌈input / stride⌉` outputs, and with less padding it has not. -/
structure Exact (a : Axis) (padBegin padEnd : Nat) : Prop where
  size?_eq : (a.window padBegin padEnd).size? = some (a.input ⌈/⌉ a.stride)
  least : ∀ otherBegin otherEnd, (a.window otherBegin otherEnd).size? = some (a.input ⌈/⌉ a.stride) →
    padBegin + padEnd ≤ otherBegin + otherEnd

variable {a : Axis}

/-- The padding is what the last window lacks, if it lacks anything. -/
theorem Proper.samePadding_eq (h : a.Proper) :
    a.samePadding = (a.input ⌈/⌉ a.stride - 1) * a.stride + a.reach - a.input := by
  have hpos := (ceilDiv_bounds h.input_pos h.stride_pos).1
  rw [samePadding, a.sameOutputs_eq, if_neg hpos.ne']

/-- Only the sum of the pads matters. -/
theorem Proper.exact_of_add_eq (h : a.Proper) {padBegin padEnd : Nat} (hsum : padBegin + padEnd = a.samePadding) :
    a.Exact padBegin padEnd := by
  obtain ⟨hpos, hlast, hnext⟩ := ceilDiv_bounds h.input_pos h.stride_pos
  have hreach : 0 < a.reach := Nat.succ_pos _
  rw [h.samePadding_eq] at hsum
  -- The axis with any pads is as wide as its elements and the pads together.
  have hsize : ∀ b e, (a.window b e).size? = some (a.input ⌈/⌉ a.stride) ↔
      (a.input ⌈/⌉ a.stride - 1) * a.stride + a.reach ≤ a.input + b + e ∧
        a.input + b + e < a.input ⌈/⌉ a.stride * a.stride + a.reach := by
    intro b e
    have hstride : 0 < (a.window b e).stride := h.stride_pos
    exact (Window.size?_eq_some_iff hstride).trans (and_iff_right hpos)
  have hstep : a.input ⌈/⌉ a.stride * a.stride = (a.input ⌈/⌉ a.stride - 1) * a.stride + a.stride := by
    rw [← Nat.succ_mul, Nat.succ_eq_add_one, Nat.sub_add_cancel hpos]
  constructor
  · apply (hsize padBegin padEnd).2
    omega
  · intro otherBegin otherEnd hother
    have hfits := ((hsize otherBegin otherEnd).1 hother).1
    omega

end Axis

/-! ## Padding under a policy -/

namespace Pads

/-- The pads with beginnings and ends exchanged. -/
def swapped (p : Pads) : Pads := ⟨p.ends, p.begins⟩

def Exact (p : Pads) (axes : Spatial Axis) : Prop :=
  axes.height.Exact p.begins.height p.ends.height ∧ axes.width.Exact p.begins.width p.ends.width

theorem resolve_of_policy {policy : AutoPad} (h : policy ≠ .notSet) (values : Option (List Int))
    (axes : Spatial Axis) : resolve policy values axes = resolve policy none axes := by
  cases policy with
  | notSet => exact absurd rfl h
  | _ => rfl

theorem same_eq_ok {axes : Spatial Axis} (hheight : axes.height.Proper) (hwidth : axes.width.Proper) :
    ∃ p, same axes false = .ok p ∧ same axes true = .ok p.swapped ∧ p.Exact axes ∧ p.swapped.Exact axes ∧
      p.begins.height ≤ p.ends.height ∧ p.ends.height ≤ p.begins.height + 1 ∧
      p.begins.width ≤ p.ends.width ∧ p.ends.width ≤ p.begins.width + 1 := by
  obtain ⟨top, bottom, hsum, hle, hge, hupper, hlower⟩ := Axis.samePads_eq_ok hheight.kernel_pos hheight.stride_pos
  obtain ⟨left, right, hsum', hle', hge', hupper', hlower'⟩ := Axis.samePads_eq_ok hwidth.kernel_pos hwidth.stride_pos
  have hswapped : bottom + top = axes.height.samePadding := (Nat.add_comm _ _).trans hsum
  have hswapped' : right + left = axes.width.samePadding := (Nat.add_comm _ _).trans hsum'
  refine ⟨⟨⟨top, left⟩, ⟨bottom, right⟩⟩, ?_, ?_, ?_, ?_, hle, hge, hle', hge'⟩
  · simp only [same, hupper, hupper']
    rfl
  · simp only [same, hlower, hlower']
    rfl
  · exact ⟨hheight.exact_of_add_eq hsum, hwidth.exact_of_add_eq hsum'⟩
  · exact ⟨hheight.exact_of_add_eq hswapped, hwidth.exact_of_add_eq hswapped'⟩

/-- Explicit pads do not count under a policy. The `SAME` policies pad each axis exactly, with the odd
element at the end or at the beginning. -/
theorem resolve_policies (axes : Spatial Axis) :
    (∀ policy, policy ≠ .notSet → ∀ values, resolve policy values axes = resolve policy none axes) ∧
      (axes.height.Proper → axes.width.Proper → ∀ values,
        ∃ p, resolve .sameUpper values axes = .ok p ∧ resolve .sameLower values axes = .ok p.swapped ∧
          p.Exact axes ∧ p.swapped.Exact axes ∧
          p.begins.height ≤ p.ends.height ∧ p.ends.height ≤ p.begins.height + 1 ∧
          p.begins.width ≤ p.ends.width ∧ p.ends.width ≤ p.begins.width + 1) := by
  constructor
  · intro policy hpolicy values
    exact resolve_of_policy hpolicy values axes
  · intro hheight hwidth values
    exact same_eq_ok hheight hwidth

end Pads

/-- A dilated axis that lacks three elements, and one whose stride leaps over its kernel. -/
def unevenAxes : Spatial Axis := ⟨⟨6, 3, 2, 2⟩, ⟨5, 1, 3, 1⟩⟩

theorem resolve_unevenAxes :
    unevenAxes.height.Proper ∧ unevenAxes.width.Proper ∧
      Pads.resolve .sameLower (some [-1]) unevenAxes = .ok ⟨⟨2, 0⟩, ⟨1, 0⟩⟩ ∧
      Pads.Exact ⟨⟨2, 0⟩, ⟨1, 0⟩⟩ unevenAxes := by
  have hheight : unevenAxes.height.Proper := ⟨by decide, by decide, by decide, by decide⟩
  have hwidth : unevenAxes.width.Proper := ⟨by decide, by decide, by decide, by decide⟩
  obtain ⟨p, -, hlower, -, hexact, -⟩ := (Pads.resolve_policies unevenAxes).2 hheight hwidth (some [-1])
  have hvalue : Pads.resolve .sameLower (some [-1]) unevenAxes = .ok ⟨⟨2, 0⟩, ⟨1, 0⟩⟩ := rfl
  have hswapped : p.swapped = ⟨⟨2, 0⟩, ⟨1, 0⟩⟩ := Except.ok.inj (hlower.symm.trans hvalue)
  rw [hswapped] at hexact
  exact ⟨hheight, hwidth, hvalue, hexact⟩

end Stencil
