import Stencil.Proofs.Evaluation
import Stencil.Proofs.Execution
import Stencil.Proofs.Resolution

/-!
# Running the body of an integer convolution

The emitted loops visit the outputs in the order of the evaluator and the taps of each in
its order too. Memory holds the outputs finished so far, and inside the three inner loops
the sum of the current one, in the output itself or in a local variable.
-/

namespace Stencil

namespace C.State

variable {s : State} {vars : List (String × Int)}

/-! ## Subscripts -/

/-- Subscripts that are loop variables stand for their values. -/
theorem Scope.mapM_subscript? (h : s.Scope vars) {indices : List (String × Nat)}
    (hsub : ∀ v ∈ indices, (v.1, (v.2 : Int)) ∈ vars) :
    ((indices.map Prod.fst).map Subscript.var).mapM s.subscript? = some (indices.map Prod.snd) := by
  induction indices with
  | nil => rfl
  | cons v indices ih =>
    have hv : s.subscript? (.var v.1) = some v.2 := by
      have hcounter : s.counters v.1 = some (v.2 : Int) := h _ (hsub v List.mem_cons_self)
      simp only [subscript?, hcounter]
    rw [List.map_cons, List.map_cons, List.mapM_cons, hv,
      ih fun v hv => hsub v (List.mem_cons_of_mem _ hv)]
    rfl

theorem Scope.element? (h : s.Scope vars) {array : String} {a : ArrayValue}
    (ha : s.arrays array = some a) {indices : List (String × Nat)}
    (hsub : ∀ v ∈ indices, (v.1, (v.2 : Int)) ∈ vars) {i : Nat}
    (hi : flatIndex? a.dims (indices.map Prod.snd) = some i) :
    s.element? (.element array (indices.map Prod.fst)) = some (a, i) := by
  unfold State.element? Place.element
  rw [ha, h.mapM_subscript? hsub]
  simp only [Option.bind_eq_bind, Option.bind_some, hi]
  rfl

/-- Reading an element of an array at loop variables. -/
theorem Scope.read? (h : s.Scope vars) {array : String} {a : ArrayValue}
    (ha : s.arrays array = some a) {indices : List (String × Nat)} (hne : indices ≠ [])
    (hsub : ∀ v ∈ indices, (v.1, (v.2 : Int)) ∈ vars) {i : Nat}
    (hi : flatIndex? a.dims (indices.map Prod.snd) = some i) (hlt : i < a.values.length) :
    s.read? (.element array (indices.map Prod.fst)) = some (a.values.getD i 0) := by
  have hsubscripts : (Place.element array (indices.map Prod.fst)).subscripts.isEmpty = false := by
    simpa [Place.element] using hne
  simp [State.read?, hsubscripts, h.element? ha hsub hi, hlt]

/-- Writing an element of an array at loop variables. -/
theorem Scope.write? (h : s.Scope vars) {array : String} {a : ArrayValue}
    (ha : s.arrays array = some a) {indices : List (String × Nat)} (hne : indices ≠ [])
    (hsub : ∀ v ∈ indices, (v.1, (v.2 : Int)) ∈ vars) {i : Nat}
    (hi : flatIndex? a.dims (indices.map Prod.snd) = some i) (hlt : i < a.values.length)
    (value : Int32) :
    s.write? (.element array (indices.map Prod.fst)) value =
      some { s with
        arrays := s.arrays.set array { a with values := a.values.set i value } } := by
  have hsubscripts : (Place.element array (indices.map Prod.fst)).subscripts.isEmpty = false := by
    simpa [Place.element] using hne
  have hname : (Place.element array (indices.map Prod.fst)).name = array := rfl
  simp [State.write?, hsubscripts, h.element? ha hsub hi, hlt, hname]

/-! ## Variables and statements -/

/-- Give a local variable its value. -/
def setWord (s : State) (name : String) (value : Int32) : State :=
  { s with words := s.words.set name value }

theorem words_setWord (s : State) (name : String) (value : Int32) :
    (s.setWord name value).words name = some value :=
  Env.set_same s.words name value

theorem read?_word (s : State) (name : String) : s.read? ⟨name, []⟩ = s.words name := rfl

theorem write?_word (s : State) (name : String) (value : Int32) :
    s.write? ⟨name, []⟩ value = some (s.setWord name value) := rfl

theorem exec?_declare {value : Expr} {v : Int32} (h : value.eval? s = some v) (name : String) :
    (Stmt.declare .int32 name value).exec? s = some (s.setWord name v) := by
  simp [Stmt.exec?, h, convert?, write?_word]

theorem exec?_assign {value : Expr} {v : Int32} (h : value.eval? s = some v) (target : Place) :
    (Stmt.assign target value).exec? s = s.write? target v := by
  simp [Stmt.exec?, h]

theorem exec?_addTo {value : Expr} {old v : Int32} {target : Place} (hread : s.read? target = some old)
    (h : value.eval? s = some v) : (Stmt.addTo target value).exec? s = s.write? target (old + v) := by
  simp [Stmt.exec?, h, hread]

theorem execAll?_cons {stmt : Stmt} {t : State} (h : stmt.exec? s = some t) (stmts : List Stmt) :
    execAll? (stmt :: stmts) s = execAll? stmts t := by
  simp [execAll?, h]

end C.State

/-! ## Memory -/

/-- What memory holds between output cells: what the body reads, and the outputs so far, each
with as many values as its dimensions ask for. -/
structure Holds (c : Convolution) (point : ZeroPoint) (data weights : List Int32) (zero : Int32)
    (m : C.Memory) (outputs : List Int32) : Prop where
  data_eq : m.arrays "x" = some ⟨c.dataShape, data⟩
  weights_eq : m.arrays "w" = some ⟨c.weightsShape, weights⟩
  zero_eq : match point with
    | .tensor _ => m.arrays "x_zero_point" = some ⟨[1], [zero]⟩
    | .literal value => value = zero
  outputs_eq : m.arrays "y" = some ⟨c.outputShape, outputs⟩
  data_length : data.length = c.dataSize
  weights_length : weights.length = c.weightsSize
  outputs_length : outputs.length = c.cells.length

/-- What memory holds within an output cell. The sum so far is in the output, or in a local
variable if it is still to be divided. -/
def Summing (c : Convolution) (point : ZeroPoint) (data weights : List Int32) (zero : Int32)
    (divisor : Option Int32) (position : Nat) (outputs : List Int32) (m : C.Memory) (sum : Int32) :
    Prop :=
  match divisor with
  | none => Holds c point data weights zero m (outputs.set position sum)
  | some _ => Holds c point data weights zero m outputs ∧ m.words "cell" = some sum

/-- Loop variables that stand for an output cell. -/
structure AtCell (c : Convolution) (vars : List (String × Int)) (b m i j : Nat) : Prop where
  cell_mem : (b, m, i, j) ∈ c.cells
  mem_vars : ∀ v ∈ [("b", b), ("m", m), ("o0", i), ("o1", j)], (v.1, (v.2 : Int)) ∈ vars

/-- Loop variables that stand for a data element and the weight above it. -/
structure AtTap (c : Convolution) (vars : List (String × Int)) (b m channel k₀ k₁ i₀ i₁ : Nat) :
    Prop where
  batch_lt : b < c.batch
  channelOut_lt : m < c.channelsOut
  channel_lt : channel < c.channelsIn
  kernel_lt : k₀ < c.windows.height.kernel ∧ k₁ < c.windows.width.kernel
  input_lt : i₀ < c.windows.height.input ∧ i₁ < c.windows.width.input
  mem_vars : ∀ v ∈ [("b", b), ("m", m), ("c", channel), ("k0", k₀), ("ii0", i₀), ("k1", k₁), ("ii1", i₁)],
    (v.1, (v.2 : Int)) ∈ vars

section

variable {c : Convolution} {point : ZeroPoint} {data weights outputs : List Int32} {zero : Int32}
variable {m : C.Memory}

theorem Holds.setWord {s : C.State} (h : Holds c point data weights zero s.toMemory outputs)
    (name : String) (value : Int32) :
    Holds c point data weights zero (s.setWord name value).toMemory outputs :=
  ⟨h.data_eq, h.weights_eq, h.zero_eq, h.outputs_eq, h.data_length, h.weights_length,
    h.outputs_length⟩

theorem Holds.setOutputs (h : Holds c point data weights zero m outputs) {values : List Int32}
    (hlength : values.length = outputs.length) :
    Holds c point data weights zero { m with arrays := m.arrays.set "y" ⟨c.outputShape, values⟩ }
      values := by
  -- The other arrays stay as they are.
  have hother : ∀ name ≠ "y", m.arrays.set "y" ⟨c.outputShape, values⟩ name = m.arrays name :=
    fun name hne => C.Env.set_other m.arrays _ hne
  refine ⟨(hother "x" (by decide)).trans h.data_eq, (hother "w" (by decide)).trans h.weights_eq, ?_,
    C.Env.set_same m.arrays "y" ⟨c.outputShape, values⟩, h.data_length, h.weights_length,
    hlength.trans h.outputs_length⟩
  cases point with
  | tensor t => exact (hother "x_zero_point" (by decide)).trans h.zero_eq
  | literal value => exact h.zero_eq

/-! ## Phases -/

variable {s : C.State} {vars : List (String × Int)}

theorem Holds.eval?_zeroExpr (h : Holds c point data weights zero s.toMemory outputs) :
    (Arithmetic.zeroExpr point).eval? s = some zero := by
  have hzero := h.zero_eq
  cases point with
  | tensor t =>
    change s.arrays "x_zero_point" = some ⟨[1], [zero]⟩ at hzero
    simp [Arithmetic.zeroExpr, C.Expr.eval?, C.State.read?, C.State.element?, hzero,
      C.State.subscript?, C.flatIndex?, C.convert?]
  | literal value =>
    obtain rfl : value = zero := hzero
    simp [Arithmetic.zeroExpr, C.Expr.eval?]

theorem Holds.read?_dataCell (h : Holds c point data weights zero s.toMemory outputs)
    (hs : s.Scope vars) {b m channel k₀ k₁ i₀ i₁ : Nat} (htap : AtTap c vars b m channel k₀ k₁ i₀ i₁) :
    s.read? Arithmetic.dataCell = some (data.getD (c.dataIndex b channel i₀ i₁) 0) := by
  -- The element is in range, because the loop variables are.
  have hsub : ∀ v ∈ [("b", b), ("c", channel), ("ii0", i₀), ("ii1", i₁)], (v.1, (v.2 : Int)) ∈ vars :=
    fun v hv => htap.mem_vars v (by simp at hv ⊢; tauto)
  refine hs.read? h.data_eq (List.cons_ne_nil _ _) hsub
    (C.flatIndex?_four htap.batch_lt htap.channel_lt htap.input_lt.1 htap.input_lt.2) ?_
  rw [h.data_length]
  exact C.flat_lt_four htap.batch_lt htap.channel_lt htap.input_lt.1 htap.input_lt.2

theorem Holds.read?_weightCell (h : Holds c point data weights zero s.toMemory outputs)
    (hs : s.Scope vars) {b m channel k₀ k₁ i₀ i₁ : Nat} (htap : AtTap c vars b m channel k₀ k₁ i₀ i₁) :
    s.read? Arithmetic.weightCell = some (weights.getD (c.weightIndex m channel k₀ k₁) 0) := by
  have hsub : ∀ v ∈ [("m", m), ("c", channel), ("k0", k₀), ("k1", k₁)], (v.1, (v.2 : Int)) ∈ vars :=
    fun v hv => htap.mem_vars v (by simp at hv ⊢; tauto)
  refine hs.read? h.weights_eq (List.cons_ne_nil _ _) hsub
    (C.flatIndex?_four htap.channelOut_lt htap.channel_lt htap.kernel_lt.1 htap.kernel_lt.2) ?_
  rw [h.weights_length]
  exact C.flat_lt_four htap.channelOut_lt htap.channel_lt htap.kernel_lt.1 htap.kernel_lt.2

theorem Holds.position_lt (h : Holds c point data weights zero m outputs) {b m i j : Nat}
    (hcell : (b, m, i, j) ∈ c.cells) : c.position b m i j < outputs.length := by
  obtain ⟨hb, hm, hi, hj⟩ := Convolution.mem_cells.1 hcell
  rw [h.outputs_length, Convolution.length_cells]
  exact C.flat_lt_four hb hm hi hj

theorem Holds.read?_outputCell (h : Holds c point data weights zero s.toMemory outputs)
    (hs : s.Scope vars) {b m i j : Nat} (hat : AtCell c vars b m i j) :
    s.read? Arithmetic.outputCell = some (outputs.getD (c.position b m i j) 0) := by
  obtain ⟨hb, hm, hi, hj⟩ := Convolution.mem_cells.1 hat.cell_mem
  exact hs.read? h.outputs_eq (List.cons_ne_nil _ _) hat.mem_vars (C.flatIndex?_four hb hm hi hj)
    (h.position_lt hat.cell_mem)

theorem Holds.write?_outputCell (h : Holds c point data weights zero s.toMemory outputs)
    (hs : s.Scope vars) {b m i j : Nat} (hat : AtCell c vars b m i j) (value : Int32) :
    C.State.Ends (C.State.write? · Arithmetic.outputCell value) s vars
      (Holds c point data weights zero · (outputs.set (c.position b m i j) value)) := by
  obtain ⟨hb, hm, hi, hj⟩ := Convolution.mem_cells.1 hat.cell_mem
  have hwrite := hs.write? h.outputs_eq (List.cons_ne_nil _ _) hat.mem_vars
    (C.flatIndex?_four hb hm hi hj) (h.position_lt hat.cell_mem) value
  exact ⟨_, hwrite, hs, h.setOutputs List.length_set⟩

/-- Before the inner loops the sum is set to zero. -/
theorem Holds.execAll?_before (h : Holds c point data weights zero s.toMemory outputs)
    (hs : s.Scope vars) {b m i j : Nat} (hat : AtCell c vars b m i j) (divisor : Option Int32) :
    C.State.Ends (C.execAll? (Arithmetic.before (.integer point divisor))) s vars
      (Summing c point data weights zero divisor (c.position b m i j) outputs · 0) := by
  have hzero : (C.Expr.int 0).eval? s = some 0 := rfl
  cases divisor with
  | none =>
    obtain ⟨t, ht, htscope, htholds⟩ := h.write?_outputCell hs hat 0
    refine ⟨t, ?_, htscope, htholds⟩
    exact C.State.execAll?_cons ((C.State.exec?_assign hzero _).trans ht) []
  | some divisor =>
    exact ⟨_, C.State.execAll?_cons (C.State.exec?_declare hzero _) [], hs, h.setWord "cell" 0,
      s.words_setWord "cell" 0⟩

/-- The factors are read from the data and the weights. -/
theorem Holds.eval?_product (h : Holds c point data weights zero s.toMemory outputs)
    (hs : s.Scope vars) {b m channel k₀ k₁ i₀ i₁ : Nat} (htap : AtTap c vars b m channel k₀ k₁ i₀ i₁) :
    (C.Expr.operate .mul
        (.operate .sub (.cast .int32 (.read Arithmetic.dataCell)) (Arithmetic.zeroExpr point))
        (.cast .int32 (.read Arithmetic.weightCell))).eval? s =
      some ((data.getD (c.dataIndex b channel i₀ i₁) 0 - zero)
        * weights.getD (c.weightIndex m channel k₀ k₁) 0) := by
  have hx := h.read?_dataCell hs htap
  have hw := h.read?_weightCell hs htap
  simp only [C.Expr.eval?, hx, hw, h.eval?_zeroExpr, C.convert?, C.Operation.apply?,
    Option.bind_eq_bind, Option.bind_some]

/-- What memory holds besides the sum. -/
theorem Summing.holds {divisor : Option Int32} {position : Nat} {sum : Int32}
    (h : Summing c point data weights zero divisor position outputs m sum) :
    ∃ values, Holds c point data weights zero m values := by
  cases divisor with
  | none => exact ⟨_, h⟩
  | some divisor => exact ⟨_, h.1⟩

theorem Summing.read?_target {divisor : Option Int32} {b m i j : Nat} {sum : Int32}
    (h : Summing c point data weights zero divisor (c.position b m i j) outputs s.toMemory sum)
    (hs : s.Scope vars) (hat : AtCell c vars b m i j) : s.read? (Arithmetic.target divisor) = some sum := by
  cases divisor with
  | none =>
    -- The sum is the output itself, which holds what was last written to it.
    have hlt := Holds.position_lt h hat.cell_mem
    rw [List.length_set] at hlt
    have hread := Holds.read?_outputCell h hs hat
    rwa [List.getD_eq_getElem?_getD, List.getElem?_set_self hlt, Option.getD_some] at hread
  | some divisor => exact (C.State.read?_word s "cell").trans h.2

theorem Summing.write?_target {divisor : Option Int32} {b m i j : Nat} {sum : Int32}
    (h : Summing c point data weights zero divisor (c.position b m i j) outputs s.toMemory sum)
    (hs : s.Scope vars) (hat : AtCell c vars b m i j) (sum' : Int32) :
    C.State.Ends (C.State.write? · (Arithmetic.target divisor) sum') s vars
      (Summing c point data weights zero divisor (c.position b m i j) outputs · sum') := by
  cases divisor with
  | none =>
    obtain ⟨t, ht, htscope, htholds⟩ := Holds.write?_outputCell h hs hat sum'
    rw [List.set_set] at htholds
    exact ⟨t, ht, htscope, htholds⟩
  | some divisor =>
    exact ⟨_, C.State.write?_word s "cell" sum', hs, h.1.setWord "cell" sum', s.words_setWord "cell" sum'⟩

/-- In the inner loops the product under a tap joins the sum. -/
theorem Summing.execAll?_each {divisor : Option Int32} {b m i j : Nat} {sum : Int32}
    (h : Summing c point data weights zero divisor (c.position b m i j) outputs s.toMemory sum)
    (hs : s.Scope vars) (hat : AtCell c vars b m i j) {channel k₀ k₁ i₀ i₁ : Nat}
    (htap : AtTap c vars b m channel k₀ k₁ i₀ i₁) :
    C.State.Ends (C.execAll? (Arithmetic.each (.integer point divisor))) s vars
      (Summing c point data weights zero divisor (c.position b m i j) outputs ·
        (Convolution.addProduct data weights zero sum
          (c.dataIndex b channel i₀ i₁, c.weightIndex m channel k₀ k₁))) := by
  obtain ⟨values, hholds⟩ := h.holds
  have hproduct := hholds.eval?_product hs htap
  have hread := h.read?_target hs hat
  obtain ⟨t, ht, htscope, hsumming⟩ := h.write?_target hs hat (Convolution.addProduct data weights zero sum
    (c.dataIndex b channel i₀ i₁, c.weightIndex m channel k₀ k₁))
  exact ⟨t, C.State.execAll?_cons ((C.State.exec?_addTo hread hproduct).trans ht) [], htscope, hsumming⟩

/-- Clamping in two steps, first from above and then from below. -/
theorem clamp_eq_steps (value : Int32) :
    let lowered := if quantizationLimit < value then quantizationLimit else value
    (if lowered < -quantizationLimit then -quantizationLimit else lowered) =
      clamp quantizationLimit value := by
  dsimp only
  unfold clamp
  by_cases h : quantizationLimit < value
  · rw [if_pos h, if_pos h]
    decide
  · rw [if_neg h, if_neg h]

/-- A clamped value fits in eight bits. -/
theorem toInt32_toInt8_clamp (value : Int32) :
    (clamp quantizationLimit value).toInt8.toInt32 = clamp quantizationLimit value := by
  have hrange := toInt_clamp value
  rw [← Int32.toInt_inj, Int8.toInt_toInt32, Int32.toInt_toInt8, Int.bmod_eq_of_le] <;> omega

theorem exec?_divide {name : String} {sum divisor : Int32} (h : s.words name = some sum)
    (hd : 0 < divisor.toInt) (target : String) :
    (C.Stmt.declare .int32 target (.operate .div (.read ⟨name, []⟩) (.int divisor.toInt))).exec? s =
      some (s.setWord target (sum / divisor)) := by
  have hread : s.read? ⟨name, []⟩ = some sum := (C.State.read?_word s name).trans h
  refine C.State.exec?_declare ?_ target
  simp [C.Expr.eval?, hread, C.Operation.apply?, quotient_eq_ok hd sum, Except.toOption]

/-- A variable is replaced by a limit if it compares with that. -/
theorem exec?_limit {name : String} {value : Int32} (h : s.words name = some value)
    (comparison : C.Comparison) (limit : Int32) :
    (C.Stmt.assign ⟨name, []⟩ (.choose comparison (.read ⟨name, []⟩) (.int limit.toInt)
        (.int limit.toInt) (.read ⟨name, []⟩))).exec? s =
      some (s.setWord name (if comparison.holds value limit then limit else value)) := by
  have hread : s.read? ⟨name, []⟩ = some value := (C.State.read?_word s name).trans h
  refine (C.State.exec?_assign ?_ ⟨name, []⟩).trans (C.State.write?_word s name _)
  by_cases hholds : comparison.holds value limit = true <;> simp [C.Expr.eval?, hread, hholds]

/-- After the inner loops the output is finished. -/
theorem Summing.execAll?_after {divisor : Option Int32} {b m i j : Nat} {sum : Int32}
    (h : Summing c point data weights zero divisor (c.position b m i j) outputs s.toMemory sum)
    (hs : s.Scope vars) (hat : AtCell c vars b m i j) (hd : ∀ d ∈ divisor, 0 < d.toInt) :
    C.State.Ends (C.execAll? (Arithmetic.after (.integer point divisor))) s vars
      (Holds c point data weights zero ·
        (outputs.set (c.position b m i j) (Cell.finished divisor sum))) := by
  cases divisor with
  | none => exact ⟨s, rfl, hs, h⟩
  | some divisor =>
    obtain ⟨hholds, hword⟩ := h
    let lowered := if C.Comparison.greater.holds (sum / divisor) quantizationLimit then
      quantizationLimit else sum / divisor
    let clamped := clamp quantizationLimit (sum / divisor)
    -- The quotient is clamped from above, then from below, and stored as eight bits.
    let s₁ := s.setWord "tmp" (sum / divisor)
    let s₂ := s₁.setWord "tmp" lowered
    let s₃ := s₂.setWord "tmp" clamped
    have hdivide := exec?_divide hword (hd divisor rfl) "tmp"
    have hlower := exec?_limit (s.words_setWord "tmp" (sum / divisor)) .greater quantizationLimit
    have hraise := exec?_limit (s₁.words_setWord "tmp" lowered) .less (-quantizationLimit)
    have hcast : (C.Expr.cast .int8 (.read ⟨"tmp", []⟩)).eval? s₃ = some clamped := by
      have hread : s₃.read? ⟨"tmp", []⟩ = some clamped := s₂.words_setWord "tmp" clamped
      simp [C.Expr.eval?, hread, C.convert?, clamped, toInt32_toInt8_clamp]
    have hclamped : (if C.Comparison.less.holds lowered (-quantizationLimit) then -quantizationLimit
        else lowered) = clamped := by
      simpa [C.Comparison.holds, lowered] using clamp_eq_steps (sum / divisor)
    have hs₃ : Holds c point data weights zero s₃.toMemory outputs :=
      ((hholds.setWord "tmp" _).setWord "tmp" _).setWord "tmp" _
    obtain ⟨t, ht, htscope, htholds⟩ := hs₃.write?_outputCell hs hat clamped
    have hneg : (-quantizationLimit).toInt = -quantizationLimit.toInt := by decide
    rw [hclamped, hneg] at hraise
    refine ⟨t, ?_, htscope, htholds⟩
    calc
      C.execAll? (Arithmetic.after (.integer point (some divisor))) s
      _ = C.execAll? _ s₁ := C.State.execAll?_cons hdivide _
      _ = C.execAll? _ s₂ := C.State.execAll?_cons hlower _
      _ = C.execAll? _ s₃ := C.State.execAll?_cons hraise _
      _ = some t := C.State.execAll?_cons ((C.State.exec?_assign hcast _).trans ht) []

/-! ## Loops -/

/-- The loop variables around an output cell. -/
def cellScope (c : Convolution) (b m i j : Nat) : List (String × Int) :=
  [("i1", c.windows.width.start j), ("o1", j), ("i0", c.windows.height.start i), ("o0", i),
    ("m", m), ("b", b)]

theorem atCell_cellScope {b m i j : Nat} (hcell : (b, m, i, j) ∈ c.cells) :
    AtCell c (cellScope c b m i j) b m i j :=
  ⟨hcell, by simp [cellScope]⟩

theorem AtCell.mono {vars' : List (String × Int)} {b m i j : Nat} (h : AtCell c vars b m i j)
    (hsub : vars ⊆ vars') : AtCell c vars' b m i j :=
  ⟨h.cell_mem, fun v hv => hsub (h.mem_vars v hv)⟩

/-- A run at a cell ends, and leads from one condition on memory to another. -/
def CellStep (c : Convolution) (run : C.State → Option C.State) (cell : Nat × Nat × Nat × Nat)
    (P Q : C.Memory → Prop) : Prop :=
  ∀ b m i j s, cell = (b, m, i, j) → cell ∈ c.cells → s.Scope (cellScope c b m i j) → P s.toMemory →
    C.State.Ends run s (cellScope c b m i j) Q

/-- A run at a tap of a cell ends, and leads from one condition on memory to another. -/
def TapStep (c : Convolution) (run : C.State → Option C.State) (b m i j : Nat) (tap : Nat × Nat)
    (P Q : C.Memory → Prop) : Prop :=
  ∀ vars channel k₀ k₁ i₀ i₁ s, tap = (c.dataIndex b channel i₀ i₁, c.weightIndex m channel k₀ k₁) →
    AtCell c vars b m i j → AtTap c vars b m channel k₀ k₁ i₀ i₁ → s.Scope vars → P s.toMemory →
      C.State.Ends run s vars Q

/-- The outer loops visit the cells in row-major order. -/
theorem takes_cells (c : Convolution) (run : C.State → Option C.State) (s : C.State) :
    C.State.Takes (C.Nest.execLoops?
      [.count "b" c.batch, .count "m" c.channelsOut, .outputs "0" c.windows.height,
        .outputs "1" c.windows.width] run) s [] c.cells (CellStep c run) := by
  simp only [Convolution.cells, List.map_eq_flatMap]
  refine C.Loop.takes_count (by simp) ?_ (List.forall_mem_nil _)
  intro b hb s hs
  refine (C.Loop.takes_count (by simp) ?_ hs).mono (List.subset_cons_self _ _)
  intro m hm s hs
  refine (C.Loop.takes_outputs (by simp) (by simp) ?_ hs).mono (List.subset_cons_self _ _)
  intro i hi s hs
  refine (C.Loop.takes_outputs (by simp) (by simp) ?_ hs).mono
    (List.subset_cons_of_subset _ (List.subset_cons_self _ _))
  intro j hj s hs P hstep hP
  have hcell : (b, m, i, j) ∈ c.cells := Convolution.mem_cells.2 ⟨hb, hm, hi, hj⟩
  exact (hstep [] (b, m, i, j) (List.prefix_refl _) b m i j s rfl hcell hs hP).mono
    (List.subset_cons_of_subset _ (List.subset_cons_self _ _))

/-- The order of the taps is that of three loops of which two skip the padding. -/
theorem Convolution.taps_eq_flatMap (c : Convolution) (b m i j : Nat) :
    c.taps b m i j =
      (List.range c.channelsIn).flatMap fun channel =>
        (List.range c.windows.height.kernel).flatMap fun k₀ =>
          match c.windows.height.index? i k₀ with
          | none => []
          | some i₀ =>
            (List.range c.windows.width.kernel).flatMap fun k₁ =>
              match c.windows.width.index? j k₁ with
              | none => []
              | some i₁ => [(c.dataIndex b channel i₀ i₁, c.weightIndex m channel k₀ k₁)] := by
  refine List.flatMap_congr fun channel _ => List.flatMap_congr fun k₀ _ => ?_
  cases c.windows.height.index? i k₀ with
  | none => rfl
  | some i₀ =>
    dsimp only
    rw [List.filterMap_eq_flatMap_toList]
    refine List.flatMap_congr fun k₁ _ => ?_
    cases c.windows.width.index? j k₁ <;> rfl

/-- The inner loops visit the taps of a cell in the order of the evaluator. -/
theorem takes_taps (hreg : c.Regular) {b m i j : Nat} (hcell : (b, m, i, j) ∈ c.cells)
    (run : C.State → Option C.State) (hs : s.Scope (cellScope c b m i j)) :
    C.State.Takes (C.Nest.execLoops?
      [.count "c" c.channelsIn, .taps "0" c.windows.height, .taps "1" c.windows.width] run) s
      (cellScope c b m i j) (c.taps b m i j) (TapStep c run b m i j) := by
  obtain ⟨hb, hm, -, -⟩ := Convolution.mem_cells.1 hcell
  rw [Convolution.taps_eq_flatMap]
  refine C.Loop.takes_count (by simp [cellScope]) ?_ hs
  intro channel hc s hs
  refine (C.Loop.takes_taps hreg.height (by simp [cellScope]) (by simp [cellScope])
    (by simp [cellScope]) ?_ hs).mono (List.subset_cons_self _ _)
  intro k₀ hk₀ i₀ hi₀ s hs
  refine (C.Loop.takes_taps hreg.width (by simp [cellScope]) (by simp [cellScope])
    (by simp [cellScope]) ?_ hs).mono (List.subset_cons_of_subset _ (List.subset_cons_self _ _))
  intro k₁ hk₁ i₁ hi₁ s hs P hstep hP
  have hinput := And.intro (Window.index?_eq_some.1 hi₀).2 (Window.index?_eq_some.1 hi₁).2
  refine (hstep [] _ (List.prefix_refl _) _ channel k₀ k₁ i₀ i₁ s rfl ((atCell_cellScope hcell).mono ?_)
    ⟨hb, hm, hc, ⟨hk₀, hk₁⟩, hinput, ?_⟩ hs hP).mono
    (List.subset_cons_of_subset _ (List.subset_cons_self _ _))
  · intro v hv
    simp [hv]
  · simp [cellScope]

/-! ## Cells -/

/-- With this way to run statements, the phases compute an output cell. -/
structure Computes (c : Convolution) (point : ZeroPoint) (data weights : List Int32) (zero : Int32)
    (divisor : Option Int32) (run : List C.Stmt → C.State → Option C.State) : Prop where
  before : ∀ {s vars outputs b m i j}, Holds c point data weights zero s.toMemory outputs → s.Scope vars →
    AtCell c vars b m i j →
    C.State.Ends (run (Arithmetic.before (.integer point divisor))) s vars
      (Summing c point data weights zero divisor (c.position b m i j) outputs · 0)
  each : ∀ {outputs b m i j done tap}, done ++ [tap] <+: c.taps b m i j →
    TapStep c (run (Arithmetic.each (.integer point divisor))) b m i j tap
      (Summing c point data weights zero divisor (c.position b m i j) outputs ·
        (done.foldl (Convolution.addProduct data weights zero) 0))
      (Summing c point data weights zero divisor (c.position b m i j) outputs ·
        ((done ++ [tap]).foldl (Convolution.addProduct data weights zero) 0))
  after : ∀ {s vars outputs b m i j sum},
    Summing c point data weights zero divisor (c.position b m i j) outputs s.toMemory sum → s.Scope vars →
    AtCell c vars b m i j →
    C.State.Ends (run (Arithmetic.after (.integer point divisor))) s vars
      (Holds c point data weights zero · (outputs.set (c.position b m i j) (Cell.finished divisor sum)))

theorem computes_execAll? {divisor : Option Int32} (hd : ∀ d ∈ divisor, 0 < d.toInt) :
    Computes c point data weights zero divisor C.execAll? where
  before h hs hat := h.execAll?_before hs hat divisor
  each _ vars channel k₀ k₁ i₀ i₁ s htap hat htaps hs h := by
    rw [htap, List.foldl_append]
    exact h.execAll?_each hs hat htaps
  after h hs hat := h.execAll?_after hs hat hd

variable {divisor : Option Int32} {run : List C.Stmt → C.State → Option C.State}

/-- The three phases of a cell leave its value in the outputs. -/
theorem Computes.exec?_cell (hrun : Computes c point data weights zero divisor run) (hreg : c.Regular)
    (h : Holds c point data weights zero s.toMemory outputs) {b m i j : Nat}
    (hs : s.Scope (cellScope c b m i j)) (hcell : (b, m, i, j) ∈ c.cells) :
    C.State.Ends (fun s => do
        let started ← run (Arithmetic.before (.integer point divisor)) s
        let summed ← C.Nest.execLoops?
          [.count "c" c.channelsIn, .taps "0" c.windows.height, .taps "1" c.windows.width]
          (run (Arithmetic.each (.integer point divisor))) started
        run (Arithmetic.after (.integer point divisor)) summed) s (cellScope c b m i j)
      (Holds c point data weights zero · (outputs.set (c.position b m i j) (Cell.finished divisor
        ((c.taps b m i j).foldl (Convolution.addProduct data weights zero) 0)))) := by
  have hat := atCell_cellScope hcell
  refine (hrun.before h hs hat).bind fun s hs h => ?_
  refine (takes_taps hreg hcell _ hs (fun memory done => Summing c point data weights zero divisor
    (c.position b m i j) outputs memory (done.foldl (Convolution.addProduct data weights zero) 0))
    (fun done tap hdone => hrun.each hdone) h).bind fun s hs h => ?_
  exact hrun.after h hs hat

/-- After a part of the positions has been set, the new values stand in front of the rest. -/
theorem foldl_set_append_drop {α β : Type} {position : β → Nat} {value : β → α} {xs : List α} {l : List β}
    (hposition : l.map position = List.range l.length) (hle : l.length ≤ xs.length) :
    l.foldl (fun xs b => xs.set (position b) (value b)) xs = l.map value ++ xs.drop l.length := by
  induction l using List.reverseRecOn with
  | nil => simp
  | append_singleton l b ih =>
    rw [List.length_append, List.length_singleton] at hposition hle
    rw [List.map_append, List.range_succ] at hposition
    -- The next position is the first of those that have not been set.
    obtain ⟨hl, hb⟩ := List.append_inj hposition (by simp)
    have hb : position b = l.length := List.cons.inj hb |>.1
    have hlength : (l.map value).length ≤ l.length := (List.length_map value).le
    rw [List.foldl_append, List.foldl_cons, List.foldl_nil, ih hl (Nat.le_of_succ_le hle), hb,
      List.set_append_right _ _ hlength, List.drop_eq_getElem_cons (Nat.lt_of_succ_le hle),
      List.length_map, Nat.sub_self, List.set_cons_zero, List.map_append, List.append_assoc,
      List.length_append]
    rfl

/-- Setting every position in turn replaces the whole list. -/
theorem foldl_set_eq_map {α β : Type} {l : List β} {position : β → Nat} {value : β → α} {xs : List α}
    (hposition : l.map position = List.range l.length) (hlength : xs.length = l.length) :
    l.foldl (fun xs b => xs.set (position b) (value b)) xs = l.map value := by
  rw [foldl_set_append_drop hposition hlength.ge, ← hlength, List.drop_length, List.append_nil]

/-- The outputs with the value of one more cell. -/
def Convolution.store (c : Convolution) (divisor : Option Int32) (data weights : List Int32) (zero : Int32)
    (outputs : List Int32) : Nat × Nat × Nat × Nat → List Int32
  | (b, m, i, j) => outputs.set (c.position b m i j) (Cell.finished divisor
      ((c.taps b m i j).foldl (Convolution.addProduct data weights zero) 0))

/-- Storing the value of every cell replaces what the array held before. -/
theorem foldl_store (c : Convolution) (divisor : Option Int32) (data weights : List Int32) (zero : Int32)
    {outputs : List Int32} (h : outputs.length = c.cells.length) :
    c.cells.foldl (c.store divisor data weights zero) outputs = c.values divisor data weights zero := by
  refine foldl_set_eq_map ?_ h
  rw [Convolution.length_cells]
  exact Convolution.map_position_cells

/-- The outer loops compute all outputs, whatever the array held before. -/
theorem Computes.exec?_nest (hrun : Computes c point data weights zero divisor run) (hreg : c.Regular)
    (h : Holds c point data weights zero s.toMemory outputs) :
    C.State.Ends ((C.Nest.ofConvolution c (Arithmetic.before (.integer point divisor))
        (Arithmetic.each (.integer point divisor)) (Arithmetic.after (.integer point divisor))).exec?
        run) s []
      (Holds c point data weights zero · (c.values divisor data weights zero)) := by
  rw [← foldl_store c divisor data weights zero h.outputs_length]
  -- The outputs are those of the cells visited so far.
  refine takes_cells c _ s (fun memory done => Holds c point data weights zero memory
    (done.foldl (c.store divisor data weights zero) outputs)) ?_ h
  rintro done cell - b m i j s rfl hcell hs h
  rw [List.foldl_append]
  exact hrun.exec?_cell hreg h hs hcell

end

end Stencil
