import Stencil.C.Strict
import Stencil.Proofs.Counters
import Stencil.Proofs.EightBits

/-!
# Kernels without overflow

What runs without overflow also runs with arithmetic that wraps, and ends in the same state. The body
of an integer convolution runs without overflow where no sum on the way to an output leaves its word.
This is about the data; whether loop variables stay in their types depends on the sizes alone.
-/

namespace Stencil

namespace C

/-! ## Words -/

theorem word?_eq_some {value : Int} {v : Int32} : word? value = some v ↔ v.toInt = value := by
  unfold word?
  split
  next hholds =>
    have hfits : FitsWord value := CounterType.holds_int32.1 hholds
    rw [Option.some.injEq, ← Int32.toInt_inj, hfits.toInt_ofInt]
    exact eq_comm
  next hholds =>
    refine iff_of_false (by simp) ?_
    rintro rfl
    exact hholds (CounterType.holds_int32.2 ⟨v.le_toInt, v.toInt_lt⟩)

theorem word?_of_fits {value : Int} (h : FitsWord value) : word? value = some (Int32.ofInt value) :=
  word?_eq_some.2 h.toInt_ofInt

theorem word?_toInt (v : Int32) : word? v.toInt = some v := word?_eq_some.2 rfl

theorem eq_ofInt_of_word? {value : Int} {v : Int32} (h : word? value = some v) : v = Int32.ofInt value := by
  rw [← word?_eq_some.1 h, Int32.ofInt_toInt]

theorem strict?_add {a b : Int32} (h : FitsWord (a.toInt + b.toInt)) : Operation.add.strict? a b = some (a + b) := by
  simp [Operation.strict?, word?_of_fits h, Int32.ofInt_add]

theorem strict?_sub {a b : Int32} (h : FitsWord (a.toInt - b.toInt)) : Operation.sub.strict? a b = some (a - b) := by
  simp [Operation.strict?, word?_of_fits h, Int32.ofInt_sub]

theorem strict?_mul {a b : Int32} (h : FitsWord (a.toInt * b.toInt)) : Operation.mul.strict? a b = some (a * b) := by
  simp [Operation.strict?, word?_of_fits h, Int32.ofInt_mul]

theorem strict?_div {divisor : Int32} (h : 0 < divisor.toInt) (a : Int32) :
    Operation.div.strict? a divisor = some (a / divisor) := by
  obtain ⟨hzero, hneg⟩ := ne_of_toInt_pos h
  rw [Operation.strict?, if_neg hzero, word?_eq_some]
  exact Int32.toInt_div_of_ne_right _ _ hneg

/-- An exact result is that of wrapping arithmetic. -/
theorem apply_of_strict? {operation : Operation} {a b v : Int32} (h : operation.strict? a b = some v) :
    operation.apply? a b = some v := by
  cases operation with
  | add =>
    rw [eq_ofInt_of_word? h]
    simp [Int32.ofInt_add, Operation.apply?]
  | sub =>
    rw [eq_ofInt_of_word? h]
    simp [Int32.ofInt_sub, Operation.apply?]
  | mul =>
    rw [eq_ofInt_of_word? h]
    simp [Int32.ofInt_mul, Operation.apply?]
  | div =>
    rw [Operation.strict?] at h
    split at h
    next => cases h
    next hzero =>
      have hexact := word?_eq_some.1 h
      have hdefined : ¬ (a = Int32.minValue ∧ b = -1) := by
        -- This quotient is `2 ^ 31`, which is no word.
        rintro ⟨rfl, rfl⟩
        have hlt := v.toInt_lt
        rw [hexact] at hlt
        exact absurd hlt (by decide)
      have hquotient : (a / b).toInt = a.toInt.tdiv b.toInt := by
        rcases not_and_or.1 hdefined with hleft | hright
        · exact Int32.toInt_div_of_ne_left _ _ hleft
        · exact Int32.toInt_div_of_ne_right _ _ hright
      unfold Operation.apply? quotient
      rw [if_neg hzero, if_neg hdefined]
      exact congrArg some (Int32.toInt_inj.1 (hquotient.trans hexact.symm))

example : Operation.add.strict? 2147483647 1 = none ∧ Operation.mul.strict? 65536 (-32768) = some (-2147483648) := by
  decide

/-! ## Runs -/

variable {s : State}

theorem eval?_of_strict? {e : Expr} {v : Int32} (h : e.strict? s = some v) : e.eval? s = some v := by
  induction e generalizing v with
  | int value => exact congrArg some (eq_ofInt_of_word? h).symm
  | float value => exact h
  | read place => exact h
  | cast type operand ih =>
    obtain ⟨a, ha, h⟩ := Option.bind_eq_some_iff.1 h
    simpa [Expr.eval?, ih ha] using h
  | operate operation left right ihl ihr =>
    obtain ⟨a, ha, h⟩ := Option.bind_eq_some_iff.1 h
    obtain ⟨b, hb, h⟩ := Option.bind_eq_some_iff.1 h
    simpa [Expr.eval?, ihl ha, ihr hb] using apply_of_strict? h
  | choose comparison left right yes no ihl ihr ihyes ihno =>
    obtain ⟨a, ha, h⟩ := Option.bind_eq_some_iff.1 h
    obtain ⟨b, hb, h⟩ := Option.bind_eq_some_iff.1 h
    cases hholds : comparison.holds a b with
    | true =>
      rw [if_pos hholds] at h
      simpa [Expr.eval?, ihl ha, ihr hb, hholds] using ihyes h
    | false =>
      rw [if_neg (by simp [hholds])] at h
      simpa [Expr.eval?, ihl ha, ihr hb, hholds] using ihno h

theorem exec?_of_strict? {stmt : Stmt} {t : State} (h : stmt.strict? s = some t) : stmt.exec? s = some t := by
  cases stmt with
  | declare type name value =>
    obtain ⟨v, hv, h⟩ := Option.bind_eq_some_iff.1 h
    simpa [Stmt.exec?, eval?_of_strict? hv] using h
  | assign target value =>
    obtain ⟨v, hv, h⟩ := Option.bind_eq_some_iff.1 h
    simpa [Stmt.exec?, eval?_of_strict? hv] using h
  | addTo target value =>
    obtain ⟨old, hold, h⟩ := Option.bind_eq_some_iff.1 h
    obtain ⟨v, hv, h⟩ := Option.bind_eq_some_iff.1 h
    obtain ⟨sum, hsum, h⟩ := Option.bind_eq_some_iff.1 h
    obtain rfl : old + v = sum := Option.some.inj (apply_of_strict? hsum)
    simpa [Stmt.exec?, hold, eval?_of_strict? hv] using h

/-- A quotient by a positive number is always a word. -/
theorem strict?_quotient (s : State) (place : Place) {divisor : Int32} (hd : 0 < divisor.toInt) :
    (Expr.operate .div (.read place) (.int divisor.toInt)).strict? s =
      (Expr.operate .div (.read place) (.int divisor.toInt)).eval? s := by
  cases hread : s.read? place with
  | none => simp [Expr.strict?, Expr.eval?, hread]
  | some sum =>
    simp [Expr.strict?, Expr.eval?, hread, word?_toInt, strict?_div hd, quotient_eq_ok hd, Except.toOption,
      Operation.apply?]

theorem strict?_limit (s : State) (place : Place) (comparison : Comparison) (limit : Int32) :
    (Expr.choose comparison (.read place) (.int limit.toInt) (.int limit.toInt) (.read place)).strict? s =
      (Expr.choose comparison (.read place) (.int limit.toInt) (.int limit.toInt) (.read place)).eval? s := by
  simp [Expr.strict?, Expr.eval?, word?_toInt]

/-- Wherever the one run ends, the other one ends in the same state. -/
def State.Refines (run other : State → Option State) : Prop := ∀ s t, run s = some t → other s = some t

namespace State.Refines

variable {run other next next' : State → Option State}

theorem bind (h : Refines run other) (hnext : Refines next next') :
    Refines (fun s => run s >>= next) (fun s => other s >>= next') := by
  intro s u hu
  obtain ⟨t, ht, hu⟩ := Option.bind_eq_some_iff.1 hu
  exact Option.bind_eq_some_iff.2 ⟨t, h s t ht, hnext t u hu⟩

theorem foldlM {β : Type} {step step' : State → β → Option State}
    (h : ∀ b, Refines (step · b) (step' · b)) (l : List β) :
    Refines (fun s => l.foldlM step s) (fun s => l.foldlM step' s) := by
  induction l with
  | nil => exact fun s t ht => ht
  | cons b l ih => exact (h b).bind ih

theorem strictAll? (stmts : List Stmt) : Refines (strictAll? stmts) (execAll? stmts) :=
  foldlM (fun _ _ _ => exec?_of_strict?) stmts

theorem loop (h : Refines run other) (l : Loop) : Refines (l.exec? run) (l.exec? other) := by
  have hguarded : ∀ guard, Refines (Loop.guarded? guard run) (Loop.guarded? guard other) := by
    intro guard s t ht
    cases guard with
    | none => exact h s t ht
    | some g =>
      obtain ⟨left, hleft, ht⟩ := Option.bind_eq_some_iff.1 ht
      obtain ⟨right, hright, ht⟩ := Option.bind_eq_some_iff.1 ht
      refine Option.bind_eq_some_iff.2 ⟨left, hleft, Option.bind_eq_some_iff.2 ⟨right, hright, ?_⟩⟩
      dsimp only at ht ⊢
      split at ht
      next hout => rwa [if_pos hout]
      next hin =>
        rw [if_neg hin]
        exact h _ t ht
  have hiterations := foldlM (fun k s t => hguarded l.guard (l.enterState k s) t) (List.range l.bound)
  exact hiterations.bind fun s t ht => ht

theorem loops (h : Refines run other) (loops : List Loop) :
    Refines (Nest.execLoops? loops run) (Nest.execLoops? loops other) := by
  induction loops with
  | nil => exact h
  | cons l loops ih => exact ih.loop l

theorem nest {α : Type} {phase phase' : α → State → Option State} (h : ∀ a, Refines (phase a) (phase' a))
    (n : Nest α) : Refines (n.exec? phase) (n.exec? phase') :=
  loops ((h n.before).bind ((loops (h n.each) n.inner).bind (h n.after))) n.outer

end State.Refines

end C

/-! ## Kernels -/

section

variable {c : Convolution} {point : ZeroPoint} {data weights outputs : List Int32} {zero : Int32}
variable {divisor : Option Int32} {s : C.State} {vars : List (String × Int)}

theorem strictAll?_before (point : ZeroPoint) (divisor : Option Int32) :
    C.strictAll? (Arithmetic.before (.integer point divisor)) =
      C.execAll? (Arithmetic.before (.integer point divisor)) := by
  cases divisor <;> rfl

/-- Dividing by a positive number and clamping is always within range. -/
theorem strictAll?_after (point : ZeroPoint) (hd : ∀ d ∈ divisor, 0 < d.toInt) :
    C.strictAll? (Arithmetic.after (.integer point divisor)) =
      C.execAll? (Arithmetic.after (.integer point divisor)) := by
  cases divisor with
  | none => rfl
  | some divisor =>
    have hneg : -quantizationLimit.toInt = (-quantizationLimit).toInt := by decide
    funext s
    simp only [Arithmetic.after, C.strictAll?, C.execAll?, List.foldlM_cons, List.foldlM_nil, C.Stmt.strict?,
      C.Stmt.exec?, hneg, C.strict?_quotient _ _ (hd divisor rfl), C.strict?_limit]
    rfl

theorem Holds.strict?_zeroExpr (h : Holds c point data weights zero s.toMemory outputs) :
    (Arithmetic.zeroExpr point).strict? s = some zero := by
  have heval := h.eval?_zeroExpr
  cases point with
  | tensor t => exact heval
  | literal value =>
    obtain rfl : value = zero := h.zero_eq
    exact C.word?_toInt value

/-- The product under a tap is exact if the difference and the product are words. -/
theorem Holds.strict?_product (h : Holds c point data weights zero s.toMemory outputs)
    (hs : s.Scope vars) {b m channel k₀ k₁ i₀ i₁ : Nat} (htap : AtTap c vars b m channel k₀ k₁ i₀ i₁)
    (hdifference : FitsWord ((data.getD (c.dataIndex b channel i₀ i₁) 0).toInt - zero.toInt))
    (hproduct : FitsWord (Convolution.tapProduct data weights zero
      (c.dataIndex b channel i₀ i₁, c.weightIndex m channel k₀ k₁))) :
    ∃ product, product = (data.getD (c.dataIndex b channel i₀ i₁) 0 - zero)
          * weights.getD (c.weightIndex m channel k₀ k₁) 0 ∧
        product.toInt = Convolution.tapProduct data weights zero
          (c.dataIndex b channel i₀ i₁, c.weightIndex m channel k₀ k₁) ∧
        (C.Expr.operate .mul
            (.operate .sub (.cast .int32 (.read Arithmetic.dataCell)) (Arithmetic.zeroExpr point))
            (.cast .int32 (.read Arithmetic.weightCell))).strict? s = some product := by
  have hx := h.read?_dataCell hs htap
  have hw := h.read?_weightCell hs htap
  have hsub := C.strict?_sub hdifference
  have hexact : (data.getD (c.dataIndex b channel i₀ i₁) 0 - zero).toInt =
      (data.getD (c.dataIndex b channel i₀ i₁) 0).toInt - zero.toInt := C.word?_eq_some.1 hsub
  rw [Convolution.tapProduct, ← hexact] at hproduct ⊢
  have hmul := C.strict?_mul hproduct
  refine ⟨_, rfl, C.word?_eq_some.1 hmul, ?_⟩
  simp only [C.Expr.strict?, hx, hw, h.strict?_zeroExpr, C.convert?, hsub, hmul, Option.bind_eq_bind,
    Option.bind_some]

/-- The product under a tap joins the sum so far without overflow. -/
theorem Summing.strictAll?_each {b m i j : Nat} {done : List (Nat × Nat)} {tap : Nat × Nat}
    (hexact : c.SumsExactly divisor data weights zero b m i j) (hdone : done ++ [tap] <+: c.taps b m i j) :
    TapStep c (C.strictAll? (Arithmetic.each (.integer point divisor))) b m i j tap
      (Summing c point data weights zero divisor (c.position b m i j) outputs ·
        (done.foldl (Convolution.addProduct data weights zero) 0))
      (Summing c point data weights zero divisor (c.position b m i j) outputs ·
        ((done ++ [tap]).foldl (Convolution.addProduct data weights zero) 0)) := by
  rintro vars channel k₀ k₁ i₀ i₁ s rfl hat htaps hs h
  have hmem := hdone.subset (List.mem_append_right done List.mem_cons_self)
  obtain ⟨values, hholds⟩ := h.holds
  have hdifference := hexact.difference_fits _ hmem
  have htapProduct := hexact.product_fits _ hmem
  obtain ⟨product, hproduct, hvalue, hstrict⟩ := hholds.strict?_product hs htaps hdifference htapProduct
  have hfits := hexact.sum_fits _ hdone
  have hsofar := Convolution.toInt_foldl_addProduct
    (hexact.sum_fits done ((List.prefix_append done _).trans hdone))
  rw [List.map_append, List.sum_append, ← hsofar, List.map_singleton, List.sum_singleton, ← hvalue] at hfits
  have hadd := C.strict?_add hfits
  have hread := h.read?_target hs hat
  obtain ⟨t, ht, htscope, hsumming⟩ := h.write?_target hs hat
    (done.foldl (Convolution.addProduct data weights zero) 0 + product)
  refine ⟨t, ?_, htscope, ?_⟩
  · simp [C.strictAll?, Arithmetic.each, C.Stmt.strict?, hread, hstrict, hadd, ht]
  · rw [List.foldl_append, List.foldl_cons, List.foldl_nil, Convolution.addProduct, ← hproduct]
    exact hsumming

theorem computes_strictAll? (hd : ∀ d ∈ divisor, 0 < d.toInt)
    (hexact : ∀ b m i j, (b, m, i, j) ∈ c.cells → c.SumsExactly divisor data weights zero b m i j) :
    Computes c point data weights zero divisor C.strictAll? where
  before h hs hat := by
    rw [strictAll?_before]
    exact h.execAll?_before hs hat divisor
  each hdone := by
    rintro vars channel k₀ k₁ i₀ i₁ s htap hat htaps hs h
    have hcell := hexact _ _ _ _ hat.cell_mem
    exact Summing.strictAll?_each hcell hdone vars channel k₀ k₁ i₀ i₁ s htap hat htaps hs h
  after h hs hat := by
    rw [strictAll?_after point hd]
    exact h.execAll?_after hs hat hd

end

end Stencil
