import Mathlib.Data.List.GetD
import Stencil.Proofs.ConvolutionSum

/-!
# Requantized sums

A quantized evaluation is the plain one with every sum divided and clamped. That keeps the order of
the sums, takes opposite sums to opposite values and stays in a symmetric range, so that opposite
weights lead to opposite outputs.
-/

namespace Stencil

/-! ## Rescaling -/

/-- Of all words only the least one has no opposite. -/
theorem toInt_neg_of_ne_minValue {a : Int32} (h : a ≠ Int32.minValue) : (-a).toInt = -a.toInt := by
  have hmin : Int32.minValue.toInt = -2 ^ 31 := by decide
  have hne : a.toInt ≠ -2 ^ 31 := fun heq => h (Int32.toInt_inj.1 (heq.trans hmin.symm))
  have hlower : -2 ^ 31 ≤ a.toInt := a.le_toInt
  have hupper : a.toInt < 2 ^ 31 := a.toInt_lt
  calc
    (-a).toInt = (Int32.ofInt (-a.toInt)).toInt := by rw [Int32.ofInt_neg, Int32.ofInt_toInt]
    _ = -a.toInt := Int32.toInt_ofInt_of_le (by omega) (by omega)

/-- Requantizing by the divisor never fails and takes each sum to its value under the function, which keeps
the order of the sums and is symmetric around zero. -/
structure Rescales (divisor : Int32) (f : Int32 → Int32) : Prop where
  requantize_eq : ∀ sum, requantize sum divisor = .ok (f sum)
  mono : ∀ sum sum', sum ≤ sum' → f sum ≤ f sum'
  neg : ∀ sum, sum ≠ Int32.minValue → f (-sum) = -f sum
  range : ∀ sum, -127 ≤ (f sum).toInt ∧ (f sum).toInt ≤ 127

theorem rescales_finished {divisor : Int32} (h : 0 < divisor.toInt) :
    Rescales divisor (Cell.finished (some divisor)) := by
  have hrange : ∀ sum, -127 ≤ (Cell.finished (some divisor) sum).toInt ∧
      (Cell.finished (some divisor) sum).toInt ≤ 127 := by
    intro sum
    rw [Cell.toInt_finished_some h]
    omega
  refine ⟨requantize_eq_ok h, fun sum sum' hle => ?_, fun sum hne => ?_, hrange⟩
  · have hquotient : sum.toInt.tdiv divisor.toInt ≤ sum'.toInt.tdiv divisor.toInt :=
      Int.tdiv_le_tdiv h (Int32.le_iff_toInt_le.1 hle)
    rw [Int32.le_iff_toInt_le, Cell.toInt_finished_some h, Cell.toInt_finished_some h]
    omega
  · have hvalue : Cell.finished (some divisor) sum ≠ Int32.minValue := by
      intro hmin
      have hlower := (hrange sum).1
      rw [hmin] at hlower
      exact absurd hlower (by decide)
    -- Rounding toward zero is what makes quotients of opposite sums opposite.
    rw [← Int32.toInt_inj, toInt_neg_of_ne_minValue hvalue, Cell.toInt_finished_some h, Cell.toInt_finished_some h,
      toInt_neg_of_ne_minValue hne, Int.neg_tdiv]
    omega

namespace Convolution

variable {c : Convolution}

/-! ## Both ways to evaluate -/

/-- Lists of other lengths are refused before anything is computed. -/
theorem evaluate_eq_error {quantize : Bool} {divisor : Option Int32} (hd : c.divisor? quantize = .ok divisor)
    {data weights : List Int32} (hlength : ¬ (data.length = c.dataSize ∧ weights.length = c.weightsSize))
    (zero : Int32) :
    c.evaluate quantize data weights zero =
      .error (.invalidShape (.valueCounts c.dataSize c.weightsSize data.length weights.length)) := by
  rw [evaluate, hd, Except.ok_bind, if_pos (not_and_or.1 hlength)]

theorem values_some (c : Convolution) (divisor : Int32) (data weights : List Int32) (zero : Int32) :
    c.values (some divisor) data weights zero =
      (c.values none data weights zero).map (Cell.finished (some divisor)) := by
  rw [values, values, List.map_map]
  rfl

/-- The cells accumulate the same sums, whatever becomes of those in the end. -/
theorem evaluate_true_eq (h : c.Regular) (harea : 16 * c.kernelArea ≤ 2 ^ 31 - 1) (data weights : List Int32)
    (zero : Int32) :
    c.evaluate true data weights zero =
      List.map (Cell.finished (some (Int32.ofNat (16 * c.kernelArea)))) <$> c.evaluate false data weights zero := by
  have hdivisor : c.divisor? true = .ok (some (Int32.ofNat (16 * c.kernelArea))) :=
    divisor?_eq_ok_iff.2 ⟨fun _ => harea, rfl⟩
  have hnone : c.divisor? false = .ok none := rfl
  by_cases hlength : data.length = c.dataSize ∧ weights.length = c.weightsSize
  · rw [evaluate_eq_ok h hdivisor hlength.1 hlength.2, evaluate_eq_ok h hnone hlength.1 hlength.2, values_some]
    rfl
  · rw [evaluate_eq_error hdivisor hlength, evaluate_eq_error hnone hlength]
    rfl

/-! ## Opposite weights -/

theorem addProduct_neg (data weights : List Int32) (zero sum : Int32) (tap : Nat × Nat) :
    addProduct data (weights.map (-·)) zero (-sum) tap = -addProduct data weights zero sum tap := by
  have hweight : (weights.map (-·)).getD tap.2 0 = -weights.getD tap.2 0 := weights.getD_map 0 (-·)
  rw [addProduct, addProduct, hweight, Int32.mul_neg, Int32.neg_add, ← Int32.sub_eq_add_neg]

theorem foldl_addProduct_neg (data weights : List Int32) (zero sum : Int32) (taps : List (Nat × Nat)) :
    taps.foldl (addProduct data (weights.map (-·)) zero) (-sum) = -taps.foldl (addProduct data weights zero) sum :=
  List.foldl_hom (-·) (addProduct_neg data weights zero)

theorem values_neg (c : Convolution) (data weights : List Int32) (zero : Int32) :
    c.values none data (weights.map (-·)) zero = (c.values none data weights zero).map (-·) := by
  rw [values, values, List.map_map]
  apply List.map_congr_left
  rintro ⟨b, m, i, j⟩ -
  exact foldl_addProduct_neg data weights zero 0 (c.taps b m i j)

theorem evaluate_neg (h : c.Regular) (data weights : List Int32) (zero : Int32) :
    c.evaluate false data (weights.map (-·)) zero = List.map (-·) <$> c.evaluate false data weights zero := by
  have hnone : c.divisor? false = .ok none := rfl
  have hlengths : (weights.map (-·)).length = weights.length := List.length_map _
  -- As many weights as before, so either both evaluations are refused or none is.
  by_cases hlength : data.length = c.dataSize ∧ weights.length = c.weightsSize
  · rw [evaluate_eq_ok h hnone hlength.1 (hlengths.trans hlength.2), evaluate_eq_ok h hnone hlength.1 hlength.2,
      values_neg]
    rfl
  · have hlength' : ¬ (data.length = c.dataSize ∧ (weights.map (-·)).length = c.weightsSize) := by rwa [hlengths]
    rw [evaluate_eq_error hnone hlength', evaluate_eq_error hnone hlength, hlengths]
    rfl

end Convolution

/-- A quantized evaluation succeeds whenever the plain one does, and fails for the same reason. Its outputs
are the plain sums, each requantized by the divisor. With the opposite weights every output is the opposite
one, unless its sum is the least word. -/
theorem Node.evaluate_requantized {n : Node} {c : Convolution} (h : n.convolution = .ok c)
    (harea : 16 * (c.kernelShape.height * c.kernelShape.width) ≤ 2 ^ 31 - 1) :
    ∃ divisor f, c.divisor = .ok divisor ∧
      divisor.toInt = 16 * (c.kernelShape.height * c.kernelShape.width) ∧ Rescales divisor f ∧
      ∀ (data weights : List Int32) (zero : Int32),
        c.evaluate true data weights zero = List.map f <$> c.evaluate false data weights zero ∧
        ∀ sums, c.evaluate false data weights zero = .ok sums →
          ∃ outputs, c.evaluate true data (weights.map (-·)) zero = .ok outputs ∧
            outputs.length = sums.length ∧
            ∀ (i : Nat) sum, sums[i]? = some sum → sum ≠ Int32.minValue → outputs[i]? = some (-f sum) := by
  have hc : c.Regular := (convolution_eq_ok h).1
  have hdivisor : (Int32.ofNat (16 * c.kernelArea)).toInt = 16 * c.kernelArea := Convolution.toInt_divisor harea
  have hpos : 0 < (Int32.ofNat (16 * c.kernelArea)).toInt := by
    have hkernel := hc.kernelArea_pos
    omega
  have hrescales := rescales_finished hpos
  refine ⟨_, _, (Convolution.divisor_eq c).trans (if_pos harea), hdivisor, hrescales, fun data weights zero =>
    ⟨Convolution.evaluate_true_eq hc harea data weights zero, fun sums hsums => ?_⟩⟩
  refine ⟨(sums.map (-·)).map (Cell.finished (some (Int32.ofNat (16 * c.kernelArea)))), ?_, by simp, ?_⟩
  · rw [Convolution.evaluate_true_eq hc harea, Convolution.evaluate_neg hc, hsums]
    rfl
  · intro i sum hsum hne
    rw [List.getElem?_map, List.getElem?_map, hsum, Option.map_some, Option.map_some, hrescales.neg sum hne]

/-- The fifth output is clamped, and with the opposite weights it is clamped at the other end. -/
theorem evaluate_requantized_tallNode :
    let data : List Int32 := List.replicate 24 250
    let weights : List Int32 := List.replicate 24 (-7)
    tallNode.convolution = .ok tallConvolution ∧ 16 * (2 * 3) ≤ 2 ^ 31 - 1 ∧
      ∃ (f : Int32 → Int32) (sums outputs : List Int32), Rescales 96 f ∧
        tallConvolution.evaluate false data weights 3 = .ok sums ∧
        tallConvolution.evaluate true data weights 3 = .ok (sums.map f) ∧
        tallConvolution.evaluate true data (weights.map (-·)) 3 = .ok outputs ∧
        sums[4]? = some (-20748 : Int32) ∧ f (-20748) = -127 ∧ outputs[4]? = some 127 := by
  intro data weights
  have hnode : tallNode.convolution = .ok tallConvolution := rfl
  have harea : 16 * (2 * 3) ≤ 2 ^ 31 - 1 := by decide
  obtain ⟨divisor, f, hdivisor, -, hrescales, hevaluate⟩ := Node.evaluate_requantized hnode harea
  obtain rfl : (96 : Int32) = divisor := Except.ok.inj hdivisor
  obtain ⟨hquantized, hopposite⟩ := hevaluate data weights 3
  have hsums : tallConvolution.evaluate false data weights 3 = .ok
      [-10374, -10374, -6916, -3458, -20748, -20748, -13832, -6916,
       -10374, -10374, -6916, -3458, -20748, -20748, -13832, -6916] := by
    decide +kernel
  obtain ⟨outputs, houtputs, -, hcells⟩ := hopposite _ hsums
  have hvalue : f (-20748) = -127 := Except.ok.inj ((hrescales.requantize_eq _).symm.trans rfl)
  have hcell : outputs[4]? = some (-f (-20748)) := hcells 4 (-20748) rfl (by decide)
  rw [hsums] at hquantized
  rw [hvalue] at hcell
  exact ⟨hnode, harea, f, _, outputs, hrescales, hsums, hquantized, houtputs, rfl, hvalue, hcell⟩

end Stencil
