import Mathlib.Algebra.BigOperators.Intervals
import Mathlib.Algebra.BigOperators.Group.List.Lemmas
import Stencil.Evaluate
import Stencil.Proofs.Geometry
import Stencil.Proofs.RowMajor

/-!
# What evaluation computes

Evaluating an accepted convolution never faults. Each output is the sum of the products
under its window, taken modulo `2 ^ 32`, and a quantized output is that sum divided,
rounded toward zero and clamped.
-/

namespace Stencil

/-! ## Rescaling -/

theorem ne_of_toInt_pos {divisor : Int32} (h : 0 < divisor.toInt) : divisor ≠ 0 ∧ divisor ≠ -1 := by
  constructor
  · rintro rfl
    exact absurd h (by decide)
  · rintro rfl
    exact absurd h (by decide)

theorem quotient_eq_ok {divisor : Int32} (h : 0 < divisor.toInt) (sum : Int32) :
    quotient sum divisor = .ok (sum / divisor) := by
  obtain ⟨hzero, hneg⟩ := ne_of_toInt_pos h
  simp [quotient, hzero, hneg]

/-- The quotient of a sum by a positive divisor, clamped. -/
theorem requantize_eq_ok {divisor : Int32} (h : 0 < divisor.toInt) (sum : Int32) :
    requantize sum divisor = .ok (clamp quantizationLimit (sum / divisor)) := by
  rw [requantize, quotient_eq_ok h]
  rfl

theorem toInt_clamp (value : Int32) :
    (clamp quantizationLimit value).toInt = max (-127) (min 127 value.toInt) := by
  have hlimit : quantizationLimit.toInt = 127 := by decide
  have hneg : (-quantizationLimit).toInt = -127 := by decide
  unfold clamp
  simp only [Int32.lt_iff_toInt_lt, hlimit, hneg]
  split
  next h => rw [hlimit]; omega
  next h =>
    split
    next h' => rw [hneg]; omega
    next h' => omega

namespace Cell

/-- What a finished cell holds, for a divisor that causes no fault. -/
def finished (divisor : Option Int32) (sum : Int32) : Int32 :=
  match divisor with
  | some divisor => clamp quantizationLimit (sum / divisor)
  | none => sum

theorem finish_eq_ok {divisor : Option Int32} (h : ∀ d ∈ divisor, 0 < d.toInt) (sum : Int32) :
    finish divisor sum = .ok (finished divisor sum) := by
  cases divisor with
  | none => rfl
  | some divisor => exact requantize_eq_ok (h divisor rfl) sum

theorem toInt_finished_some {divisor : Int32} (h : 0 < divisor.toInt) (sum : Int32) :
    (finished (some divisor) sum).toInt = max (-127) (min 127 (sum.toInt.tdiv divisor.toInt)) := by
  rw [finished, toInt_clamp, Int32.toInt_div_of_ne_right _ _ (ne_of_toInt_pos h).2]

end Cell

namespace Convolution

variable {c : Convolution}

theorem Regular.kernelArea_pos (h : c.Regular) : 0 < c.kernelArea :=
  Nat.mul_pos h.height.kernel_pos h.width.kernel_pos

theorem divisor_eq (c : Convolution) :
    c.divisor = if 16 * c.kernelArea ≤ 2 ^ 31 - 1 then .ok (Int32.ofNat (16 * c.kernelArea))
      else .error (.invalidShape (.kernelArea c.kernelArea)) := rfl

theorem divisor?_eq_ok_iff {quantize : Bool} {divisor : Option Int32} :
    c.divisor? quantize = .ok divisor ↔
      (quantize = true → 16 * c.kernelArea ≤ 2 ^ 31 - 1) ∧
        divisor = if quantize then some (Int32.ofNat (16 * c.kernelArea)) else none := by
  cases quantize with
  | false => simp [divisor?, eq_comm]
  | true =>
    rw [divisor?, if_pos rfl, if_pos rfl, divisor_eq]
    by_cases h : 16 * c.kernelArea ≤ 2 ^ 31 - 1
    · rw [if_pos h]
      exact ⟨fun heq => ⟨fun _ => h, (Except.ok.inj heq).symm⟩, fun heq => congrArg _ heq.2.symm⟩
    · rw [if_neg h]
      exact ⟨fun heq => (by cases heq), fun heq => absurd (heq.1 rfl) h⟩

theorem toInt_divisor {area : Nat} (h : 16 * area ≤ 2 ^ 31 - 1) :
    (Int32.ofNat (16 * area)).toInt = 16 * area := by
  rw [Int32.toInt_ofNat_of_lt (by omega)]
  simp

/-- A divisor that there is, is positive. -/
theorem Regular.divisor_pos (h : c.Regular) {quantize : Bool} {divisor : Option Int32}
    (hd : c.divisor? quantize = .ok divisor) : ∀ d ∈ divisor, 0 < d.toInt := by
  obtain ⟨hle, rfl⟩ := divisor?_eq_ok_iff.1 hd
  intro d hmem
  split at hmem
  next hq =>
    obtain rfl := Option.some.inj hmem
    rw [toInt_divisor (hle hq)]
    have := h.kernelArea_pos
    omega
  next => cases hmem

/-! ## Outputs -/

/-- The position of an output among all of them. -/
def position (c : Convolution) (image output row column : Nat) : Nat :=
  ((image * c.channelsOut + output) * c.outputSizes.height + row) * c.outputSizes.width + column

theorem map_position_cells :
    (c.cells.map fun (b, m, i, j) => c.position b m i j) =
      List.range (c.batch * c.channelsOut * c.outputSizes.height * c.outputSizes.width) :=
  map_flat_indices _ _ _ _

theorem length_cells :
    c.cells.length = c.batch * c.channelsOut * c.outputSizes.height * c.outputSizes.width :=
  length_indices _ _ _ _

theorem mem_cells {b m i j : Nat} :
    (b, m, i, j) ∈ c.cells ↔
      b < c.batch ∧ m < c.channelsOut ∧ i < c.outputSizes.height ∧ j < c.outputSizes.width :=
  mem_indices

/-- The cells are listed by position. -/
theorem cells_position {b m i j : Nat} (h : (b, m, i, j) ∈ c.cells) :
    c.cells[c.position b m i j]? = some (b, m, i, j) :=
  getElem?_indices h

/-! ## Taps -/

theorem mem_taps {b m i j : Nat} {tap : Nat × Nat} :
    tap ∈ c.taps b m i j ↔
      ∃ channel < c.channelsIn, ∃ k₀ < c.windows.height.kernel, ∃ i₀,
        c.windows.height.index? i k₀ = some i₀ ∧ ∃ k₁ < c.windows.width.kernel, ∃ i₁,
          c.windows.width.index? j k₁ = some i₁ ∧
            tap = (c.dataIndex b channel i₀ i₁, c.weightIndex m channel k₀ k₁) := by
  simp only [taps, List.mem_flatMap, List.mem_range]
  refine exists_congr fun channel => and_congr_right fun _ => exists_congr fun k₀ =>
    and_congr_right fun _ => ?_
  cases c.windows.height.index? i k₀ with
  | none => simp
  | some i₀ => simp [eq_comm]

/-- The taps of a cell lie within the data and the weights. -/
theorem taps_lt {b m i j : Nat} (hb : b < c.batch) (hm : m < c.channelsOut) {tap : Nat × Nat}
    (h : tap ∈ c.taps b m i j) : tap.1 < c.dataSize ∧ tap.2 < c.weightsSize := by
  obtain ⟨channel, hc, k₀, hk₀, i₀, hi₀, k₁, hk₁, i₁, hi₁, rfl⟩ := mem_taps.1 h
  exact ⟨C.flat_lt_four hb hc (Window.index?_eq_some.1 hi₀).2 (Window.index?_eq_some.1 hi₁).2,
    C.flat_lt_four hm hc hk₀ hk₁⟩

/-! ## Values -/

/-- Add the product under a tap to a sum. -/
def addProduct (data weights : List Int32) (zero sum : Int32) (tap : Nat × Nat) : Int32 :=
  sum + (data.getD tap.1 0 - zero) * weights.getD tap.2 0

/-- The values of all outputs, for lists long enough and a divisor that causes no fault. -/
def values (c : Convolution) (divisor : Option Int32) (data weights : List Int32) (zero : Int32) :
    List Int32 :=
  c.cells.map fun (b, m, i, j) =>
    Cell.finished divisor ((c.taps b m i j).foldl (addProduct data weights zero) 0)

theorem foldlM_accumulateAt {data weights : List Int32} (zero : Int32) {divisor : Option Int32}
    {taps : List (Nat × Nat)} (h : ∀ tap ∈ taps, tap.1 < data.length ∧ tap.2 < weights.length)
    (sum : Int32) :
    taps.foldlM (accumulateAt data.toArray weights.toArray zero) ⟨.accumulating sum, divisor⟩ =
      .ok ⟨.accumulating (taps.foldl (addProduct data weights zero) sum), divisor⟩ := by
  induction taps generalizing sum with
  | nil => rfl
  | cons tap taps ih =>
    obtain ⟨hdata, hweights⟩ := h tap List.mem_cons_self
    have hstep : accumulateAt data.toArray weights.toArray zero ⟨.accumulating sum, divisor⟩ tap =
        .ok ⟨.accumulating (addProduct data weights zero sum tap), divisor⟩ := by
      simp [accumulateAt, Cell.accumulate, addProduct, hdata, hweights]
    rw [List.foldlM_cons, hstep]
    exact ih (fun t ht => h t (List.mem_cons_of_mem tap ht)) _

theorem evaluateCell_eq_ok {data weights : List Int32} (zero : Int32) {divisor : Option Int32}
    {taps : List (Nat × Nat)} (h : ∀ tap ∈ taps, tap.1 < data.length ∧ tap.2 < weights.length)
    (hd : ∀ d ∈ divisor, 0 < d.toInt) :
    evaluateCell divisor data.toArray weights.toArray zero taps =
      .ok (some (Cell.finished divisor (taps.foldl (addProduct data weights zero) 0))) := by
  rw [evaluateCell, Cell.ofDivisor, Cell.start, foldlM_accumulateAt zero h]
  simp [Cell.finalize, Cell.finish_eq_ok hd, Cell.value?, bind, Except.bind, pure, Except.pure]

/-- The values of all cells, each in its turn. -/
theorem mapM_evaluateCell_eq_ok (h : c.Regular) {quantize : Bool} {divisor : Option Int32}
    (hd : c.divisor? quantize = .ok divisor) {data weights : List Int32}
    (hdata : data.length = c.dataSize) (hweights : weights.length = c.weightsSize) (zero : Int32) :
    (c.cells.mapM fun (b, m, i, j) =>
        evaluateCell divisor data.toArray weights.toArray zero (c.taps b m i j)) =
      .ok ((c.values divisor data weights zero).map some) := by
  rw [values, List.map_map]
  apply Except.mapM_eq_ok_map
  rintro ⟨b, m, i, j⟩ hcell
  obtain ⟨hb, hm, -, -⟩ := mem_cells.1 hcell
  refine evaluateCell_eq_ok zero (fun tap htap => ?_) (h.divisor_pos hd)
  rw [hdata, hweights]
  exact taps_lt hb hm htap

theorem evaluate_eq_ok (h : c.Regular) {quantize : Bool} {divisor : Option Int32}
    (hd : c.divisor? quantize = .ok divisor) {data weights : List Int32}
    (hdata : data.length = c.dataSize) (hweights : weights.length = c.weightsSize) (zero : Int32) :
    c.evaluate quantize data weights zero = .ok (c.values divisor data weights zero) := by
  rw [evaluate, hd]
  simp only [bind, Except.bind, hdata, hweights, ne_eq, not_true_eq_false, or_self, if_false]
  rw [mapM_evaluateCell_eq_ok h hd hdata hweights]
  simp [Except.mapError, pure, Except.pure, List.filterMap_map]

/-- Evaluation fails only for a kernel too large to quantize or lists of the wrong length. -/
theorem evaluate_eq_ok_iff (h : c.Regular) {quantize : Bool} {data weights : List Int32}
    {zero : Int32} :
    (∃ values, c.evaluate quantize data weights zero = .ok values) ↔
      data.length = c.dataSize ∧ weights.length = c.weightsSize ∧
        (quantize = true → 16 * c.kernelArea ≤ 2 ^ 31 - 1) := by
  constructor
  · rintro ⟨values, hvalues⟩
    obtain ⟨divisor, hd, hvalues⟩ := Except.bind_eq_ok.1 hvalues
    split at hvalues
    next => cases hvalues
    next hlength =>
      rw [not_or, not_not, not_not] at hlength
      exact ⟨hlength.1, hlength.2, (divisor?_eq_ok_iff.1 hd).1⟩
  · rintro ⟨hdata, hweights, harea⟩
    exact ⟨_, evaluate_eq_ok h (divisor?_eq_ok_iff.2 ⟨harea, rfl⟩) hdata hweights zero⟩

/-- No index is out of range and no division fails, whatever the lists. -/
theorem evaluate_ne_fault (h : c.Regular) (quantize : Bool) (data weights : List Int32) (zero : Int32)
    (fault : Fault) : c.evaluate quantize data weights zero ≠ .error (.fault fault) := by
  -- Lists of the wrong lengths are refused before any arithmetic, and with the right ones
  -- evaluation succeeds.
  intro hfault
  cases hd : c.divisor? quantize with
  | error e =>
    rw [evaluate, hd] at hfault
    obtain rfl : e = .fault fault := Except.error.inj hfault
    cases quantize with
    | false => cases hd
    | true =>
      rw [divisor?, if_pos rfl, Convolution.divisor] at hd
      split at hd <;> cases hd
  | ok divisor =>
    by_cases hlength : data.length ≠ c.dataSize ∨ weights.length ≠ c.weightsSize
    · rw [evaluate, hd] at hfault
      simp only [bind, Except.bind, hlength, if_true] at hfault
      cases hfault
    · rw [not_or, not_not, not_not] at hlength
      rw [evaluate_eq_ok h hd hlength.1 hlength.2] at hfault
      cases hfault

end Convolution

end Stencil
