import Stencil.C.Constant
import Stencil.Graph.Source
import Stencil.Proofs.Constants
import Stencil.Proofs.Initializers
import Stencil.Proofs.Tokens

/-!
# Literals of constants

The values that the registry accepts fill the array that is declared for them. Those of an integer type
are integers of the type, written as a decimal constant with or without a sign. The constant is one of C
for all of them but the least integer of 64 bits, whose magnitude no signed type holds.
-/

namespace Stencil

namespace C

/-! ## Characters of numbers -/

/-- Whether a number may contain the character. -/
def isNumberChar (c : Char) : Bool := c.isAlphanum || c == '.' || c == '-' || c == '+'

/-- The text has no characters but those of numbers. -/
def IsNumeral (text : String) : Prop := ∀ c ∈ text.toList, isNumberChar c

instance (text : String) : Decidable (IsNumeral text) := List.decidableBAll _ _

theorem IsNumeral.isValueText {text : String} (h : IsNumeral text) (hne : text ≠ "") : IsValueText text := by
  refine ⟨hne, fun c hc hmem => ?_⟩
  have hother : ∀ c ∈ [' ', '{', '}', ','], isNumberChar c = false := by simp [isNumberChar, Char.isAlphanum]
  have hnumber := h c hc
  rw [hother c hmem] at hnumber
  cases hnumber

theorem IsNumeral.append {a b : String} (ha : IsNumeral a) (hb : IsNumeral b) : IsNumeral (a ++ b) := by
  rw [IsNumeral, String.toList_append, List.forall_mem_append]
  exact ⟨ha, hb⟩

theorem IsNumeral.ite {a b : String} (ha : IsNumeral a) (hb : IsNumeral b) (p : Prop) [Decidable p] :
    IsNumeral (if p then a else b) := by
  split
  next => exact ha
  next => exact hb

theorem isNumeral_ofList {cs : List Char} (h : ∀ c ∈ cs, c.isDigit) : IsNumeral (String.ofList cs) := by
  intro c hc
  rw [String.toList_ofList] at hc
  simp [isNumberChar, Char.isAlphanum, h c hc]

theorem isNumeral_nat (n : Nat) : IsNumeral (toString n) := by
  intro c hc
  simp [isNumberChar, Char.isAlphanum, isDigit_of_mem_toString hc]

theorem isNumeral_int (i : Int) : IsNumeral (toString i) := by
  cases i with
  | ofNat n => exact isNumeral_nat n
  | negSucc n => exact IsNumeral.append (a := "-") (by decide) (isNumeral_nat (n + 1))

theorem isNumeral_positional {digits : List Char} (h : ∀ c ∈ digits, c.isDigit) (point : Int) :
    IsNumeral (Decimal.positional digits point) := by
  have hzeros : ∀ count, ∀ c ∈ List.replicate count '0', c.isDigit := fun count c hc =>
    (List.eq_of_mem_replicate hc) ▸ by decide
  unfold Decimal.positional
  split
  next => exact .append (by decide) (isNumeral_ofList (List.forall_mem_append.2 ⟨hzeros _, h⟩))
  next =>
    split
    next => exact .append (isNumeral_ofList (List.forall_mem_append.2 ⟨h, hzeros _⟩)) (by decide)
    next =>
      exact .append (.append (isNumeral_ofList fun c hc => h c (List.mem_of_mem_take hc)) (by decide))
        (isNumeral_ofList fun c hc => h c (List.mem_of_mem_drop hc))

theorem isNumeral_scientific {digits : List Char} (h : ∀ c ∈ digits, c.isDigit) (plus : Bool) (exponent : Int) :
    IsNumeral (Decimal.scientific plus digits exponent) := by
  have hrest : IsNumeral (String.ofList (digits.drop 1)) :=
    isNumeral_ofList fun c hc => h c (List.mem_of_mem_drop hc)
  have hfirst : IsNumeral (String.ofList (digits.take 1)) :=
    isNumeral_ofList fun c hc => h c (List.mem_of_mem_take hc)
  have hfraction := IsNumeral.ite (a := "") (by decide) (.append (a := ".") (by decide) hrest)
    ((digits.drop 1).isEmpty = true)
  have hplus := IsNumeral.ite (a := "+") (b := "") (by decide) (by decide) ((plus && decide (0 ≤ exponent)) = true)
  exact .append (.append (.append (.append hfirst hfraction) (b := "e") (by decide)) hplus) (isNumeral_int exponent)

theorem isNumeral_render {f : FloatFormat} (style : FloatStyle) (x : Binary f) : IsNumeral (x.render style) := by
  have hsign := IsNumeral.ite (a := "-") (b := "") (by decide) (by decide) (x.negative = true)
  have hdecimal : ∀ d : Decimal, IsNumeral (d.render style) := by
    intro d
    have hdigits : ∀ c ∈ Nat.toDigits 10 d.digits, c.isDigit := fun c =>
      Nat.isDigit_of_mem_toDigits (by decide) (by decide)
    exact .ite (isNumeral_positional hdigits _) (isNumeral_scientific hdigits _ _) _
  unfold Binary.render
  exact .ite (.append hsign (.ite (by decide) (hdecimal _) _)) (.ite (.append hsign (by decide)) (by decide) _) _

theorem isValueText_floatLiteral (x : Single) : IsValueText (floatLiteral x) := by
  refine ((isNumeral_render .literal x).append (b := "f") (by decide)).isValueText fun hempty => ?_
  simpa using congrArg String.toList hempty

/-! ## Integers -/

theorem exists_digit_of_ofChars? {cs : List Char} {n : Nat} (h : Token.ofChars? cs = some (.number n)) :
    ∃ c rest, cs = c :: rest ∧ c.isDigit := by
  cases cs with
  | nil => cases h
  | cons c rest =>
    refine ⟨c, rest, rfl, ?_⟩
    by_contra hdigit
    rw [Token.ofChars?, if_neg hdigit] at h
    split at h
    next => cases h
    next =>
      obtain ⟨_, -, hsymbol⟩ := Option.map_eq_some_iff.1 h
      cases hsymbol

theorem spelledInteger_toString (i : Int) : SpelledInteger (toString i) i := by
  cases i with
  | ofNat n => exact ⟨(toString n).toList, rfl, Token.ofChars?_toString n⟩
  | negSucc n =>
    refine ⟨(toString (n + 1)).toList, ?_, Token.ofChars?_toString (n + 1)⟩
    rw [if_pos (Int.negSucc_lt_zero n)]
    exact String.toList_append (s := "-")

theorem isValueText_int (i : Int) : IsValueText (toString i) := by
  refine (isNumeral_int i).isValueText fun hempty => ?_
  obtain ⟨digits, hchars, hdigits⟩ := spelledInteger_toString i
  obtain ⟨c, rest, rfl, -⟩ := exists_digit_of_ofChars? hdigits
  simp [hempty] at hchars

/-- What is spelled is a constant of C if a signed type holds its magnitude. -/
theorem SpelledInteger.signedConstant?_eq {text : String} {i : Int} (h : SpelledInteger text i) :
    signedConstant? text.toList = if i.natAbs ≤ greatestConstant then some i else none := by
  obtain ⟨digits, hchars, hdigits⟩ := h
  have hconstant : constant? digits = if i.natAbs ≤ greatestConstant then some i.natAbs else none := by
    rw [constant?, hdigits]
  rw [hchars]
  by_cases hneg : i < 0
  · have habs : -(i.natAbs : Int) = i := by omega
    rw [if_pos hneg, List.singleton_append, signedConstant?, hconstant]
    split
    next => exact congrArg some habs
    next => rfl
  · have habs : (i.natAbs : Int) = i := by omega
    obtain ⟨c, rest, rfl, hdigit⟩ := exists_digit_of_ofChars? hdigits
    rw [if_neg hneg, List.nil_append, signedConstant?, hconstant]
    · split
      next => exact congrArg some habs
      next => rfl
    · -- No digit is a minus sign.
      rintro chars ⟨rfl, -⟩
      cases hdigit

theorem length_literals (type : ElementType) (data : TensorData) : (literals type data).length = data.length := by
  cases type <;> cases data <;> exact List.length_map _

theorem pos_of_mem_arrayDims {shape : List Nat} (h : ∀ d ∈ shape, 0 < d) : ∀ d ∈ arrayDims shape, 0 < d := by
  cases shape with
  | nil => decide
  | cons size sizes => exact h

end C

/-! ## Arrays -/

section

variable {t : Tensor} {data : TensorData}

theorem TensorData.Fits.literals_eq {least greatest : Int} (h : data.Fits t)
    (htype : t.type.range? = some (least, greatest)) :
    ∃ values, data = .ints values ∧ C.literals t.type data = values.map toString ∧
      ∀ v ∈ values, least ≤ v ∧ v ≤ greatest := by
  obtain ⟨values, rfl, -, hrange⟩ := (TensorData.fits_iff_of_range? htype).1 h
  refine ⟨values, rfl, ?_, hrange⟩
  cases htype' : t.type with
  | float32 =>
    rw [htype'] at htype
    cases htype
  | _ => rfl

theorem TensorData.Fits.isValueText (h : data.Fits t) : ∀ text ∈ C.literals t.type data, C.IsValueText text := by
  cases hrange : t.type.range? with
  | none =>
    rw [ElementType.range?_eq_none] at hrange
    rw [hrange]
    cases data <;> exact List.forall_mem_map.2 fun v _ => C.isValueText_floatLiteral _
  | some range =>
    obtain ⟨values, -, hliterals, -⟩ := h.literals_eq hrange
    rw [hliterals]
    exact List.forall_mem_map.2 fun v _ => C.isValueText_int v

/-- Values that fit a tensor fill the array that is declared for it. -/
theorem TensorData.Fits.fills (h : data.Fits t) (hshape : ∀ d ∈ t.shape, 0 < d) :
    C.Fills (C.arrayDims t.shape) (C.literals t.type data) where
  pos := C.pos_of_mem_arrayDims hshape
  length_eq := (C.length_literals t.type data).trans (h.1.trans (C.foldr_arrayDims t.shape).symm)
  isValueText := h.isValueText

/-- Each element of a constant array is initialized by the literal of the value at its row-major index. -/
theorem Graph.constantArray_initializes (g : Graph) (h : data.Fits t) (hshape : ∀ d ∈ t.shape, 0 < d) :
    ∃ text tree, g.constantArray t data =
        "static const " ++ C.declaration t.type (g.cName t.name) t.shape ++ " = " ++ text ++ ";" ∧
      C.BraceTree.ofText? text = some tree ∧
        ∀ indices, tree.element? indices =
          (C.flatIndex? (C.arrayDims t.shape) indices).bind ((C.literals t.type data)[·]?) :=
  ⟨_, _, rfl, (C.BraceTree.reads_ofValues (h.fills hshape)).ofText?,
    C.BraceTree.element?_ofValues (h.fills hshape)⟩

end

/-! ## Integers of the registry -/

/-- What the registry accepts for an integer type are integers of the type. Each of them is written as a
decimal constant, which is one of C unless the integer is the least one of 64 bits. -/
theorem Registry.register_literals {r r' : Registry} {t : Tensor} {data : TensorData} {least greatest : Int}
    (htype : t.type.range? = some (least, greatest)) (h : r.register t (.initializer data) = .ok r') :
    ∃ values, data = .ints values ∧
      List.Forall₂ (fun text i => least ≤ i ∧ i ≤ greatest ∧ C.SpelledInteger text i ∧
          (i.natAbs ≤ C.greatestConstant ↔ i ≠ -9223372036854775808) ∧
            C.signedConstant? text.toList = if i = -9223372036854775808 then none else some i)
        (C.literals t.type data) values := by
  have hfits : data.Fits t := by
    unfold Registry.register at h
    split at h
    next => cases h
    next =>
      obtain ⟨_, hcheck, -⟩ := Except.bind_eq_ok.1 h
      exact Role.check_eq_ok.1 hcheck
  obtain ⟨values, hdata, hliterals, hrange⟩ := hfits.literals_eq htype
  refine ⟨values, hdata, ?_⟩
  rw [hliterals, List.forall₂_map_left_iff, List.forall₂_same]
  intro i hi
  have hspelled := C.spelledInteger_toString i
  obtain ⟨hleast, hgreatest⟩ := hrange i hi
  have hlong : isLong i := ElementType.isLong_of_range? htype hleast hgreatest
  have hsize : i.natAbs ≤ C.greatestConstant ↔ i ≠ -9223372036854775808 := by
    simp only [isLong, Bool.and_eq_true, decide_eq_true_eq] at hlong
    rw [C.greatestConstant]
    omega
  refine ⟨hleast, hgreatest, hspelled, hsize, ?_⟩
  rw [hspelled.signedConstant?_eq, ite_congr (propext hsize) (fun _ => rfl) (fun _ => rfl), ite_not]

/-- The integers with the greatest magnitude that a signed type holds. -/
def widest : TensorData := .ints [-9223372036854775807, 9223372036854775807]

theorem Registry.register_literals_widest :
    ∃ r', Registry.empty.register ⟨"w", .int64, [2]⟩ (.initializer widest) = .ok r' ∧
      List.Forall₂ (fun text i => C.signedConstant? text.toList = some i) (C.literals .int64 widest)
        [-9223372036854775807, 9223372036854775807] := by
  obtain ⟨r', h⟩ : ∃ r', Registry.empty.register ⟨"w", .int64, [2]⟩ (.initializer widest) = .ok r' := ⟨_, rfl⟩
  obtain ⟨values, hdata, hliterals⟩ := register_literals rfl h
  cases hdata
  obtain _ | ⟨⟨-, -, -, -, hfirst⟩, _ | ⟨⟨-, -, -, -, hsecond⟩, -⟩⟩ := hliterals
  exact ⟨r', h, .cons hfirst (.cons hsecond .nil)⟩

/-- The least integer of 64 bits is accepted, and what is written for it is no constant of C behind a sign. -/
theorem Registry.register_leastInteger :
    ∃ r', Registry.empty.register ⟨"w", .int64, [1]⟩ (.initializer (.ints [-9223372036854775808])) = .ok r' ∧
      C.literals .int64 (.ints [-9223372036854775808]) = ["-9223372036854775808"] ∧
        C.signedConstant? "-9223372036854775808".toList = none :=
  ⟨_, rfl, by decide, by decide⟩

end Stencil
