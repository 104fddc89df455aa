import Mathlib.Algebra.Order.BigOperators.Group.List
import Mathlib.Algebra.Order.Ring.Abs
import Mathlib.Data.List.GetD
import Stencil.Proofs.ConvolutionSum

/-!
# Eight-bit data

Where data, zero point and weights have eight bits, a product is at most `255 * 255`, and 33025 of
them fit in a word together. On the way to an output of such a convolution nothing wraps.
-/

namespace Stencil

/-! ## Words -/

/-- A word can hold the integer. -/
def FitsWord (value : Int) : Prop := -2 ^ 31 ≤ value ∧ value < 2 ^ 31

theorem FitsWord.toInt_ofInt {value : Int} (h : FitsWord value) : (Int32.ofInt value).toInt = value :=
  Int32.toInt_ofInt_of_le h.1 h.2

theorem fitsWord_of_abs_le {value bound : Int} (h : |value| ≤ bound) (hbound : bound < 2 ^ 31) : FitsWord value := by
  obtain ⟨hlower, hupper⟩ := abs_le.1 h
  exact ⟨by omega, by omega⟩

/-- All words are in the range of one type of eight bits, signed or not. -/
def EightBits (words : List Int32) : Prop :=
  (∀ v ∈ words, -128 ≤ v.toInt ∧ v.toInt ≤ 127) ∨ (∀ v ∈ words, 0 ≤ v.toInt ∧ v.toInt ≤ 255)

theorem EightBits.abs_sub_le {words : List Int32} (h : EightBits words) {v v' : Int32} (hv : v ∈ words)
    (hv' : v' ∈ words) : |v.toInt - v'.toInt| ≤ 255 := by
  rw [abs_le]
  rcases h with h | h
  · have hrange := h v hv
    have hrange' := h v' hv'
    omega
  · have hrange := h v hv
    have hrange' := h v' hv'
    omega

/-- The data have the type of eight bits of their zero point, and the weights have either type. -/
structure EightBitInputs (data weights : List Int32) (zero : Int32) : Prop where
  data : EightBits (zero :: data)
  weights : ∀ w ∈ weights, -128 ≤ w.toInt ∧ w.toInt ≤ 255

/-! ## Products and sums -/

theorem abs_sum_le {α : Type} {l : List α} {f : α → Int} {bound : Int} (h : ∀ a ∈ l, |f a| ≤ bound) :
    |(l.map f).sum| ≤ l.length * bound := by
  induction l with
  | nil => simp
  | cons a l ih =>
    have hrest := ih fun a ha => h a (List.mem_cons_of_mem _ ha)
    have hfirst := h a List.mem_cons_self
    rw [List.map_cons, List.sum_cons, List.length_cons]
    calc
      |f a + (l.map f).sum| ≤ |f a| + |(l.map f).sum| := abs_add_le _ _
      _ ≤ bound + l.length * bound := add_le_add hfirst hrest
      _ = (l.length + 1 : Nat) * bound := by
        push_cast
        ring

theorem length_flatMap_range_le {α : Type} {n bound : Nat} {f : Nat → List α} (h : ∀ k, (f k).length ≤ bound) :
    ((List.range n).flatMap f).length ≤ n * bound := by
  rw [List.length_flatMap]
  simpa using List.sum_le_card_nsmul ((List.range n).map fun k => (f k).length) bound (by simpa using fun k _ => h k)

namespace EightBitInputs

variable {data weights : List Int32} {zero : Int32} {tap : Nat × Nat}

theorem abs_difference_le (h : EightBitInputs data weights zero) (htap : tap.1 < data.length) :
    |(data.getD tap.1 0).toInt - zero.toInt| ≤ 255 := by
  rw [List.getD_eq_getElem _ _ htap]
  exact h.data.abs_sub_le (List.mem_cons_of_mem _ (List.getElem_mem htap)) List.mem_cons_self

theorem abs_weight_le (h : EightBitInputs data weights zero) (htap : tap.2 < weights.length) :
    |(weights.getD tap.2 0).toInt| ≤ 255 := by
  rw [List.getD_eq_getElem _ _ htap, abs_le]
  have hrange := h.weights _ (List.getElem_mem htap)
  omega

theorem abs_tapProduct_le (h : EightBitInputs data weights zero)
    (htap : tap.1 < data.length ∧ tap.2 < weights.length) :
    |Convolution.tapProduct data weights zero tap| ≤ 65025 := by
  rw [Convolution.tapProduct, abs_mul]
  exact mul_le_mul (h.abs_difference_le htap.1) (h.abs_weight_le htap.2) (abs_nonneg _) (by decide)

end EightBitInputs

namespace Convolution

variable {c : Convolution} {data weights : List Int32} {zero : Int32} {b m i j : Nat}

/-- A cell has at most one tap for each channel and kernel position. -/
theorem length_taps_le (c : Convolution) (b m i j : Nat) :
    (c.taps b m i j).length ≤ c.channelsIn * c.kernelArea := by
  rw [taps, kernelArea]
  refine length_flatMap_range_le fun channel => length_flatMap_range_le fun k₀ => ?_
  cases c.windows.height.index? i k₀ with
  | none => exact Nat.zero_le _
  | some i₀ => simpa using List.length_filterMap_le _ (List.range c.windows.width.kernel)

/-- Nothing wraps on the way to the sum of a cell. Differences, products and the sums after any
number of taps are words, and the evaluator has them as they are. -/
structure SumsExactly (c : Convolution) (divisor : Option Int32) (data weights : List Int32) (zero : Int32)
    (b m i j : Nat) : Prop where
  difference_fits : ∀ tap ∈ c.taps b m i j, FitsWord ((data.getD tap.1 0).toInt - zero.toInt)
  product_fits : ∀ tap ∈ c.taps b m i j, FitsWord (tapProduct data weights zero tap)
  sum_fits : ∀ done, done <+: c.taps b m i j → FitsWord (done.map (tapProduct data weights zero)).sum
  cell_eq : ∀ done, done <+: c.taps b m i j → ∃ sum,
    done.foldlM (accumulateAt data.toArray weights.toArray zero) (Cell.ofDivisor divisor).start =
        .ok ⟨.accumulating sum, divisor⟩ ∧
      sum.toInt = (done.map (tapProduct data weights zero)).sum
  total_eq : ((c.taps b m i j).map (tapProduct data weights zero)).sum = c.exactSum data weights zero b m i j

/-- The sum of the products so far, where it is a word. -/
theorem toInt_foldl_addProduct {taps : List (Nat × Nat)}
    (h : FitsWord (taps.map (tapProduct data weights zero)).sum) :
    (taps.foldl (addProduct data weights zero) 0).toInt = (taps.map (tapProduct data weights zero)).sum := by
  rw [foldl_addProduct, Int32.zero_add, h.toInt_ofInt]

theorem sumsExactly (h : c.Regular) (hsize : c.channelsIn * c.kernelArea ≤ 33025)
    (hinputs : EightBitInputs data weights zero) (hdata : data.length = c.dataSize)
    (hweights : weights.length = c.weightsSize) (hcell : (b, m, i, j) ∈ c.cells) (divisor : Option Int32) :
    c.SumsExactly divisor data weights zero b m i j := by
  obtain ⟨hb, hm, -, -⟩ := mem_cells.1 hcell
  have hlt : ∀ tap ∈ c.taps b m i j, tap.1 < data.length ∧ tap.2 < weights.length := by
    intro tap htap
    rw [hdata, hweights]
    exact taps_lt hb hm htap
  have hsum : ∀ done, done <+: c.taps b m i j → FitsWord (done.map (tapProduct data weights zero)).sum := by
    intro done hdone
    have hlength : done.length ≤ 33025 := hdone.length_le.trans ((length_taps_le c b m i j).trans hsize)
    have habs := abs_sum_le fun tap htap => hinputs.abs_tapProduct_le (hlt tap (hdone.subset htap))
    exact fitsWord_of_abs_le habs (by omega)
  constructor
  · intro tap htap
    exact fitsWord_of_abs_le (hinputs.abs_difference_le (hlt tap htap).1) (by decide)
  · intro tap htap
    exact fitsWord_of_abs_le (hinputs.abs_tapProduct_le (hlt tap htap)) (by decide)
  · exact hsum
  · intro done hdone
    refine ⟨_, ?_, toInt_foldl_addProduct (hsum done hdone)⟩
    exact foldlM_accumulateAt zero (fun tap htap => hlt tap (hdone.subset htap)) 0
  · exact sum_taps h data weights zero i j hb hm

end Convolution

end Stencil
