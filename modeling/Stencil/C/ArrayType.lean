import Stencil.C.Reader

/-!
# Array types

What a declaration says of the array it declares: the type of its elements and the size of each
dimension, outermost first.
-/

namespace Stencil.C

/-- The sizes in brackets, if the tokens are nothing else. -/
def sizes? : List Token → Option (List Nat)
  | [] => some []
  | .symbol .bracketOpen :: .number size :: .symbol .bracketClose :: rest => (sizes? rest).map (size :: ·)
  | _ => none

/-- The sizes that are written in a text of dimensions. -/
def writtenSizes? (text : String) : Option (List Nat) := (tokens? text.toList).bind sizes?

structure ArrayType where
  element : ElementType
  sizes : List Nat
deriving DecidableEq, Repr

/-- The type that a declaration gives to the name it declares. -/
def ArrayType.ofDeclaration? (text : String) : Option ArrayType :=
  match tokens? text.toList with
  | some (.word type :: .word _ :: rest) => do return ⟨← typeOfName? type, ← sizes? rest⟩
  | _ => none

end Stencil.C
