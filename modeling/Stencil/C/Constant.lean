import Stencil.C.Token

/-!
# Integer constants

A decimal constant has the first of the signed types that holds its value. A greater one has none of
them, also behind a minus sign: the sign is an operator of its own, not a part of the constant.
-/

namespace Stencil.C

/-- The greatest value of the widest signed type. -/
def greatestConstant : Nat := 9223372036854775807

/-- The value of characters that form a decimal constant of a signed type. -/
def constant? (chars : List Char) : Option Nat :=
  match Token.ofChars? chars with
  | some (.number value) => if value ≤ greatestConstant then some value else none
  | _ => none

/-- The value of a constant with or without a minus sign in front. -/
def signedConstant? : List Char → Option Int
  | '-' :: chars => (constant? chars).map fun value => -(value : Int)
  | chars => (constant? chars).map fun value => (value : Int)

/-- The text is a decimal constant, behind a minus sign if the integer is negative, and the constant is
the magnitude of the integer. -/
def SpelledInteger (text : String) (i : Int) : Prop :=
  ∃ digits, text.toList = (if i < 0 then ['-'] else []) ++ digits ∧
    Token.ofChars? digits = some (.number i.natAbs)

end Stencil.C
