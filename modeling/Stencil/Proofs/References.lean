import Stencil.C.Meaning
import Stencil.Proofs.Resolution

/-!
# References to parameters

A routine's body refers to its parameters by name, and each parameter is declared with the
dimensions of its tensor. A reference denotes an element only if it has one subscript for each
of them, all within bounds, so what an optional input may be depends on how the body reads it.
-/

namespace Stencil

namespace C

/-- The variables and array elements that an expression reads. -/
def Expr.places : Expr → List Place
  | int _ | float _ => []
  | read place => [place]
  | cast _ operand => operand.places
  | operate _ left right => left.places ++ right.places
  | choose _ left right yes no => left.places ++ right.places ++ yes.places ++ no.places

/-- The variables and array elements that a statement reads or writes. -/
def Stmt.places : Stmt → List Place
  | declare _ name value => ⟨name, []⟩ :: value.places
  | assign target value | addTo target value => target :: value.places

/-- A single subscript denotes an element of arrays with a single dimension, within bounds. -/
theorem isSome_flatIndex?_singleton {dims : List Nat} {i : Nat} :
    (flatIndex? dims [i]).isSome ↔ ∃ size, i < size ∧ dims = [size] := by
  match dims with
  | [] => simp [flatIndex?]
  | [size] =>
    by_cases hi : i < size <;> simp [flatIndex?, hi]
  | _ :: _ :: _ => simp [flatIndex?]

/-- A scalar is declared with a single dimension as well. -/
theorem isSome_flatIndex?_arrayDims {shape : List Nat} :
    (flatIndex? (arrayDims shape) [0]).isSome ↔ shape = [] ∨ ∃ size, 0 < size ∧ shape = [size] := by
  rw [isSome_flatIndex?_singleton]
  cases shape with
  | nil => simp [arrayDims]
  | cons size sizes => simp [arrayDims]

/-- A single subscript below the number of elements denotes one only if that number is the only
dimension: with any other factors the element is a row, or the row is shorter. -/
theorem isSome_flatIndex?_of_size {shape : List Nat} {size i : Nat} (hi : i < size)
    (hsize : shape.foldr (· * ·) 1 = size) :
    (flatIndex? (arrayDims shape) [i]).isSome ↔ arrayDims shape = [size] := by
  rw [isSome_flatIndex?_singleton]
  constructor
  · rintro ⟨dim, -, hdims⟩
    have hprod := foldr_arrayDims shape
    rw [hsize, hdims, List.foldr_cons, List.foldr_nil, Nat.mul_one] at hprod
    rw [hdims, hprod]
  · exact fun hdims => ⟨size, hi, hdims⟩

end C

namespace Routine

variable (r : Routine)

/-- What the body refers to, in the order in which it is written. -/
def places : List C.Place :=
  (r.nest.before ++ r.nest.each ++ r.nest.after).flatMap C.Stmt.places

/-- The type of the element that a reference denotes among the parameters, given the values of
the loop variables. There is none if no parameter has the name, or if the subscripts do not
match the dimensions that it is declared with. -/
def denoted? (s : C.State) (p : C.Place) : Option ElementType := do
  let b ← r.bindings.find? (·.localName = p.name)
  let _ ← C.flatIndex? (C.arrayDims b.tensor.shape) (← p.subscripts.mapM s.subscript?)
  return b.tensor.type

end Routine

namespace Node

/-- The node with another tensor in the place of an input. -/
def withInput (n : Node) (index : Nat) (t : Tensor) : Node :=
  { n with inputs := n.inputs.set index (some t) }

theorem input?_withInput_ne {n : Node} {index other : Nat} (h : other ≠ index) (t : Tensor) :
    (n.withInput index t).input? other = n.input? other := by
  simp [input?, withInput, List.getElem?_set_ne h.symm]

/-- The geometry is read off the first two inputs. -/
theorem mandatory_withInput {n : Node} {index : Nat} (h : 1 < index) (t : Tensor) (input : MandatoryInput) :
    (n.withInput index t).mandatory input = n.mandatory input := by
  have hne : input.index ≠ index := by
    cases input <;> simp only [MandatoryInput.index] <;> omega
  rw [mandatory, mandatory, input?_withInput_ne hne]

theorem convolution_withInput {n : Node} {index : Nat} (h : 1 < index) (t : Tensor) :
    (n.withInput index t).convolution = n.convolution := by
  rw [convolution, convolution, convRequest, convRequest, mandatory_withInput h, mandatory_withInput h]
  rfl

variable {n : Node} {quantize : Bool} {r : Routine}

/-- A node is resolved with any tensor as its third input if it is with one: nothing about the
zero point is checked. -/
theorem integerRoutine_withInput (h : n.integerRoutine quantize = .ok r) (t : Tensor) :
    ∃ r', (n.withInput 2 t).integerRoutine quantize = .ok r' := by
  have hmandatory := mandatory_withInput (n := n) (Nat.lt_succ_self 1) t
  obtain ⟨_, hcount, h⟩ := Except.bind_eq_ok.1 h
  obtain ⟨output, houtput, h⟩ := Except.bind_eq_ok.1 h
  obtain ⟨c, hc, h⟩ := Except.bind_eq_ok.1 h
  obtain ⟨zero, hzero, h⟩ := Except.bind_eq_ok.1 h
  obtain ⟨data, hdata, h⟩ := Except.bind_eq_ok.1 h
  obtain ⟨weights, hweights, h⟩ := Except.bind_eq_ok.1 h
  obtain ⟨_, hdtype, h⟩ := Except.bind_eq_ok.1 h
  obtain ⟨_, hwtype, h⟩ := Except.bind_eq_ok.1 h
  obtain ⟨divisor, hdivisor, h⟩ := Except.bind_eq_ok.1 h
  have hcount' : (n.withInput 2 t).checkInputCount 2 4 = .ok () := by
    simpa [checkInputCount, withInput] using hcount
  have hc' : (n.withInput 2 t).convolution = .ok c := (convolution_withInput (Nat.lt_succ_self 1) t).trans hc
  have hfourth : (n.withInput 2 t).input? 3 = none :=
    (input?_withInput_ne (by decide) t).trans (zeroPoint_eq_ok.1 hzero).1
  refine Except.exists_bind_eq_ok.2 ⟨(), hcount', ?_⟩
  refine Except.exists_bind_eq_ok.2 ⟨output, houtput, ?_⟩
  refine Except.exists_bind_eq_ok.2 ⟨c, hc', ?_⟩
  refine Except.exists_bind_eq_ok.2 ⟨_, zeroPoint_eq_ok.2 ⟨hfourth, rfl⟩, ?_⟩
  refine Except.exists_bind_eq_ok.2 ⟨data, (hmandatory _).trans hdata, ?_⟩
  refine Except.exists_bind_eq_ok.2 ⟨weights, (hmandatory _).trans hweights, ?_⟩
  refine Except.exists_bind_eq_ok.2 ⟨_, hdtype, ?_⟩
  refine Except.exists_bind_eq_ok.2 ⟨_, hwtype, ?_⟩
  exact Except.exists_bind_eq_ok.2 ⟨divisor, hdivisor, _, rfl⟩

/-- How the body refers to the zero point, `x_zero_point[0]`. -/
def zeroPointCell : C.Place := ⟨"x_zero_point", [.number 0]⟩

/-- For an integer convolution with a zero point, one parameter is declared for it, and the body
refers to that in one place, at subscript zero. This denotes an integer element if and only if
the zero point is an integer tensor that is a scalar or has one dimension that is not empty.
Resolving the node does not make sure of it: any other tensor would do as well. -/
theorem zeroPoint_reference (h : n.integerRoutine quantize = .ok r) {t : Tensor}
    (hpoint : n.input? 2 = some t) :
    r.bindings.filter (·.localName = "x_zero_point") = [⟨"x_zero_point", t, false⟩] ∧
      r.places.filter (·.name = "x_zero_point") = [zeroPointCell] ∧
      (∀ s, (∃ type, r.denoted? s zeroPointCell = some type ∧ type.isInt) ↔
        t.type.isInt ∧ (t.shape = [] ∨ ∃ size, 0 < size ∧ t.shape = [size])) ∧
      ∀ other, ∃ r', (n.withInput 2 other).integerRoutine quantize = .ok r' := by
  obtain ⟨-, -, -, -, divisor, -, harithmetic⟩ := integerRoutine_eq_ok h
  rw [hpoint] at harithmetic
  have hbindings : r.bindings =
      [⟨"x", r.data, false⟩, ⟨"w", r.weights, false⟩, ⟨"x_zero_point", t, false⟩, ⟨"y", r.output, true⟩] := by
    rw [Routine.bindings, harithmetic]
    rfl
  have hplaces : r.places.filter (·.name = "x_zero_point") = [zeroPointCell] := by
    rw [Routine.places, Routine.nest, harithmetic]
    cases divisor with
    | none => rfl
    | some divisor => rfl
  refine ⟨by simp [hbindings], hplaces, fun s => ?_, integerRoutine_withInput h⟩
  have hfind : r.bindings.find? (·.localName = zeroPointCell.name) = some ⟨"x_zero_point", t, false⟩ := by
    rw [hbindings]
    rfl
  have hdenoted : r.denoted? s zeroPointCell =
      (C.flatIndex? (C.arrayDims t.shape) [0]).bind fun _ => some t.type := by
    rw [Routine.denoted?, hfind]
    rfl
  rw [hdenoted, ← C.isSome_flatIndex?_arrayDims]
  cases hindex : C.flatIndex? (C.arrayDims t.shape) [0] <;> simp

/-! ## The bias -/

theorem input?_withInput_same {index : Nat} {t u : Tensor} (h : n.input? index = some u) :
    (n.withInput index t).input? index = some t := by
  have hlt : index < n.inputs.length := by
    refine Nat.lt_of_not_le fun hle => ?_
    rw [input?, List.getElem?_eq_none hle] at h
    cases h
  simp [input?, withInput, hlt]

/-- A node with a bias is resolved with any other as well that has as many elements as there are
output channels. -/
theorem floatRoutine_withInput (h : n.floatRoutine = .ok r) {bias other : Tensor}
    (hbias : n.input? 2 = some bias) (hsize : other.size = r.convolution.channelsOut) :
    ∃ r', (n.withInput 2 other).floatRoutine = .ok r' ∧ r'.arithmetic = .float (some other) := by
  have hmandatory := mandatory_withInput (n := n) (Nat.lt_succ_self 1) other
  have hother : (n.withInput 2 other).input? 2 = some other := input?_withInput_same hbias
  obtain ⟨_, hcount, h⟩ := Except.bind_eq_ok.1 h
  obtain ⟨output, houtput, h⟩ := Except.bind_eq_ok.1 h
  obtain ⟨c, hc, h⟩ := Except.bind_eq_ok.1 h
  obtain ⟨data, hdata, h⟩ := Except.bind_eq_ok.1 h
  obtain ⟨weights, hweights, h⟩ := Except.bind_eq_ok.1 h
  obtain ⟨_, hdtype, h⟩ := Except.bind_eq_ok.1 h
  obtain ⟨_, hwtype, h⟩ := Except.bind_eq_ok.1 h
  obtain ⟨_, -, h⟩ := Except.bind_eq_ok.1 h
  -- All but the bias stays as it was, and of that only the number of elements counts.
  obtain rfl := Except.pure_eq_ok.1 h
  have hcount' : (n.withInput 2 other).checkInputCount 2 3 = .ok () := by
    simpa [checkInputCount, withInput] using hcount
  have hc' : (n.withInput 2 other).convolution = .ok c :=
    (convolution_withInput (Nat.lt_succ_self 1) other).trans hc
  have hbias' : checkBias c.channelsOut ((n.withInput 2 other).input? 2) = .ok () := by
    rw [hother, checkBias_eq_ok]
    rintro t ⟨⟩
    exact hsize
  have hroutine : (n.withInput 2 other).floatRoutine = .ok
      { name := n.name, data, weights, convolution := c
        arithmetic := .float ((n.withInput 2 other).input? 2)
        output := ⟨output, .float32, c.outputShape⟩ } := by
    refine Except.bind_eq_ok.2 ⟨(), hcount', ?_⟩
    refine Except.bind_eq_ok.2 ⟨output, houtput, ?_⟩
    refine Except.bind_eq_ok.2 ⟨c, hc', ?_⟩
    refine Except.bind_eq_ok.2 ⟨data, (hmandatory _).trans hdata, ?_⟩
    refine Except.bind_eq_ok.2 ⟨weights, (hmandatory _).trans hweights, ?_⟩
    refine Except.bind_eq_ok.2 ⟨_, hdtype, ?_⟩
    refine Except.bind_eq_ok.2 ⟨_, hwtype, ?_⟩
    exact Except.bind_eq_ok.2 ⟨_, hbias', rfl⟩
  exact ⟨_, hroutine, congrArg Arithmetic.float hother⟩

/-- How the body refers to the bias, `bias[m]`. -/
def biasCell : C.Place := .element "bias" ["m"]

/-- For a floating-point convolution with a bias, one parameter is declared for it, and the body
refers to that in one place, at the output channel. At any channel this denotes a float if and
only if the bias is a float tensor declared with the number of channels as its only dimension.
Resolving the node makes sure of the number of elements alone: any other tensor with as many
would do as well, whatever its element type and its shape. -/
theorem bias_reference (h : n.floatRoutine = .ok r) {t : Tensor} (hbias : n.input? 2 = some t) :
    r.bindings.filter (·.localName = "bias") = [⟨"bias", t, false⟩] ∧
      r.places.filter (·.name = "bias") = [biasCell] ∧
      t.size = r.convolution.channelsOut ∧
      (∀ (s : C.State) (m : Nat), m < r.convolution.channelsOut → s.counters "m" = some (m : Int) →
        (r.denoted? s biasCell = some .float32 ↔
          t.type = .float32 ∧ C.arrayDims t.shape = [r.convolution.channelsOut])) ∧
      ∀ other : Tensor, other.size = r.convolution.channelsOut →
        ∃ r', (n.withInput 2 other).floatRoutine = .ok r' ∧ r'.arithmetic = .float (some other) := by
  obtain ⟨-, -, -, hsize, harithmetic⟩ := floatRoutine_eq_ok h
  have hsize := hsize t hbias
  rw [hbias] at harithmetic
  have hbindings : r.bindings =
      [⟨"x", r.data, false⟩, ⟨"w", r.weights, false⟩, ⟨"bias", t, false⟩, ⟨"y", r.output, true⟩] := by
    rw [Routine.bindings, harithmetic]
    rfl
  have hplaces : r.places.filter (·.name = "bias") = [biasCell] := by
    rw [Routine.places, Routine.nest, harithmetic]
    rfl
  refine ⟨by simp [hbindings], hplaces, hsize, fun s m hm hcounter => ?_, fun other => floatRoutine_withInput h hbias⟩
  have hfind : r.bindings.find? (·.localName = biasCell.name) = some ⟨"bias", t, false⟩ := by
    rw [hbindings]
    rfl
  have hsubscripts : biasCell.subscripts.mapM s.subscript? = some [m] := by
    simp [biasCell, C.Place.element, C.State.subscript?, hcounter]
  have hdenoted : r.denoted? s biasCell =
      (C.flatIndex? (C.arrayDims t.shape) [m]).bind fun _ => some t.type := by
    rw [Routine.denoted?, hfind, hsubscripts]
    rfl
  rw [hdenoted, ← C.isSome_flatIndex?_of_size hm hsize]
  cases C.flatIndex? (C.arrayDims t.shape) [m] <;> simp

end Node

/-- One data element and one weight, with the given zero point. -/
def pointNode (t : Tensor) : Node where
  operator := .convInteger
  name := "point"
  inputs := [some ⟨"x", .uint8, [1, 1, 1, 1]⟩, some ⟨"w", .int8, [1, 1, 1, 1]⟩, some t]
  outputs := ["y"]
  attributes := []

def pointRoutine (t : Tensor) : Routine where
  name := "point"
  data := ⟨"x", .uint8, [1, 1, 1, 1]⟩
  weights := ⟨"w", .int8, [1, 1, 1, 1]⟩
  convolution := ⟨1, 1, 1, ⟨⟨⟨1, 1, 1, 1⟩, 0, 0⟩, ⟨⟨1, 1, 1, 1⟩, 0, 0⟩⟩, 1, .notSet⟩
  arithmetic := .integer (.tensor t) none
  output := ⟨"y", .int32, [1, 1, 1, 1]⟩

/-- A scalar can be read at subscript zero. -/
theorem denoted?_scalarPoint :
    (pointNode ⟨"z", .uint8, []⟩).integerRoutine false = .ok (pointRoutine ⟨"z", .uint8, []⟩) ∧
      ∀ s, ∃ type, (pointRoutine ⟨"z", .uint8, []⟩).denoted? s Node.zeroPointCell = some type ∧
        type.isInt := by
  have hnode : (pointNode ⟨"z", .uint8, []⟩).integerRoutine false = .ok (pointRoutine ⟨"z", .uint8, []⟩) := rfl
  obtain ⟨-, -, hdenoted, -⟩ := Node.zeroPoint_reference hnode rfl
  exact ⟨hnode, fun s => (hdenoted s).2 ⟨rfl, .inl rfl⟩⟩

/-- At subscript zero of a matrix there is a row and no element. -/
theorem denoted?_matrixPoint :
    (pointNode ⟨"z", .uint8, [2, 2]⟩).integerRoutine false = .ok (pointRoutine ⟨"z", .uint8, [2, 2]⟩) ∧
      (pointRoutine ⟨"z", .uint8, [2, 2]⟩).places.contains Node.zeroPointCell ∧
      ∀ s, (pointRoutine ⟨"z", .uint8, [2, 2]⟩).denoted? s Node.zeroPointCell = none := by
  exact ⟨rfl, by decide, fun s => rfl⟩

/-- One data element and two weights for it, each for an output channel, with the given bias. -/
def biasedNode (t : Tensor) : Node where
  operator := .conv
  name := "biased"
  inputs := [some ⟨"x", .float32, [1, 1, 1, 1]⟩, some ⟨"w", .float32, [2, 1, 1, 1]⟩, some t]
  outputs := ["y"]
  attributes := []

def biasedRoutine (t : Tensor) : Routine where
  name := "biased"
  data := ⟨"x", .float32, [1, 1, 1, 1]⟩
  weights := ⟨"w", .float32, [2, 1, 1, 1]⟩
  convolution := ⟨1, 1, 2, ⟨⟨⟨1, 1, 1, 1⟩, 0, 0⟩, ⟨⟨1, 1, 1, 1⟩, 0, 0⟩⟩, 1, .notSet⟩
  arithmetic := .float (some t)
  output := ⟨"y", .float32, [1, 2, 1, 1]⟩

/-- A vector of floats can be read at the last channel. -/
theorem denoted?_vectorBias :
    (biasedNode ⟨"b", .float32, [2]⟩).floatRoutine = .ok (biasedRoutine ⟨"b", .float32, [2]⟩) ∧
      ∀ s : C.State, s.counters "m" = some 1 →
        (biasedRoutine ⟨"b", .float32, [2]⟩).denoted? s Node.biasCell = some .float32 := by
  have hnode : (biasedNode ⟨"b", .float32, [2]⟩).floatRoutine = .ok (biasedRoutine ⟨"b", .float32, [2]⟩) := rfl
  obtain ⟨-, -, -, hdenoted, -⟩ := Node.bias_reference hnode rfl
  exact ⟨hnode, fun s hs => (hdenoted s 1 (by decide) hs).2 ⟨rfl, rfl⟩⟩

/-- At a channel of a matrix there is a row and no element, and at one of an integer vector no
float. -/
theorem denoted?_matrixBias :
    (biasedNode ⟨"b", .float32, [2, 1]⟩).floatRoutine = .ok (biasedRoutine ⟨"b", .float32, [2, 1]⟩) ∧
      (biasedRoutine ⟨"b", .float32, [2, 1]⟩).places.contains Node.biasCell ∧
      (∀ s, (biasedRoutine ⟨"b", .float32, [2, 1]⟩).denoted? s Node.biasCell = none) ∧
      (biasedNode ⟨"b", .int8, [2]⟩).floatRoutine = .ok (biasedRoutine ⟨"b", .int8, [2]⟩) ∧
      ∀ s, (biasedRoutine ⟨"b", .int8, [2]⟩).denoted? s Node.biasCell ≠ some .float32 := by
  refine ⟨rfl, by decide, fun s => ?_, rfl, fun s => ?_⟩
  · cases hm : s.subscript? (.var "m") <;>
      simp [Routine.denoted?, biasedRoutine, Routine.bindings, Arithmetic.binding?, Node.biasCell,
        C.Place.element, C.arrayDims, C.flatIndex?, hm]
  · cases hm : s.subscript? (.var "m") <;>
      simp [Routine.denoted?, biasedRoutine, Routine.bindings, Arithmetic.binding?, Node.biasCell,
        C.Place.element, hm, Option.bind_eq_some_iff]

end Stencil
