import Stencil.C.ArrayType
import Stencil.Proofs.Reading

/-!
# Array types of tensors

The dimensions of an array are read back from what is printed of them, and so is the whole type from a
declaration. It says the type of the elements and the shape of the tensor, except that a scalar is declared
as a tensor of one element is.
-/

namespace Stencil

namespace C

/-- The same shape, or one that is declared alike: a scalar is an array of one element. -/
def SameArray (s t : List Nat) : Prop := s = t ∨ s = [] ∧ t = [1] ∨ s = [1] ∧ t = []

/-! ## Dimensions -/

theorem arrayDims_eq_iff {s t : List Nat} : arrayDims s = arrayDims t ↔ SameArray s t := by
  cases s <;> cases t <;> simp [SameArray, arrayDims, eq_comm]

/-- The dimensions are printed as subscripts are. -/
theorem dims_eq (shape : List Nat) :
    dims shape = String.join (((arrayDims shape).map Subscript.number).map fun s => "[" ++ s.render ++ "]") := by
  rw [List.map_map]
  rfl

theorem isReadable_number (sizes : List Nat) : ∀ s ∈ sizes.map Subscript.number, s.isReadable := by
  simp [Subscript.isReadable]

theorem sizes?_tokens (sizes : List Nat) :
    sizes? ((sizes.map Subscript.number).flatMap Subscript.tokens) = some sizes := by
  induction sizes with
  | nil => rfl
  | cons size sizes ih => simp [Subscript.tokens, Subscript.token, sizes?, ih]

theorem writtenSizes?_dims (shape : List Nat) : writtenSizes? (dims shape) = some (arrayDims shape) := by
  have hlexes := lexes_subscripts (isReadable_number (arrayDims shape))
  rw [← dims_eq] at hlexes
  rw [writtenSizes?, hlexes]
  exact sizes?_tokens _

theorem dims_eq_iff {s t : List Nat} : dims s = dims t ↔ SameArray s t := by
  rw [← arrayDims_eq_iff]
  constructor
  · intro h
    have hread := congrArg writtenSizes? h
    simpa only [writtenSizes?_dims, Option.some.injEq] using hread
  · intro h
    simp only [dims, h]

/-! ## Declarations -/

theorem lexes_declaration (type : ElementType) {name : String} (h : isName name) (shape : List Nat) :
    Lexes (declaration type name shape) (.word (typeName type) :: .word name ::
      ((arrayDims shape).map Subscript.number).flatMap Subscript.tokens) := by
  have hblank : Separates " " [] := ⟨rfl, rfl, rfl⟩
  have hnames : Lexes (typeName type ++ " " ++ name) [.word (typeName type), .word name] :=
    (lexes_name (isName_typeName type)).around hblank (lexes_name h)
  have hdims := hnames.subscripts (isReadable_number (arrayDims shape))
  rwa [← dims_eq] at hdims

theorem ArrayType.ofDeclaration?_declaration (type : ElementType) {name : String} (h : isName name)
    (shape : List Nat) : ofDeclaration? (declaration type name shape) = some ⟨type, arrayDims shape⟩ := by
  have htokens : tokens? (declaration type name shape).toList = some _ := lexes_declaration type h shape
  simp [ofDeclaration?, htokens, typeOfName?_typeName, sizes?_tokens]

end C

namespace Tensor

end Tensor

end Stencil
