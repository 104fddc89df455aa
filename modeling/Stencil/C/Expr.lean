import Stencil.C.Declaration
import Stencil.Number.FloatText

/-!
# C expressions and statements

The fragment of C that stands inside the loops of an emitted function. Parentheses
follow from the precedence of the operators.
-/

namespace Stencil.C

inductive Subscript where
  | var (name : String)
  | number (value : Nat)
deriving DecidableEq, Repr

def Subscript.render : Subscript → String
  | var name => name
  | number value => toString value

/-- A variable, or an element of an array. -/
structure Place where
  name : String
  subscripts : List Subscript := []
deriving DecidableEq, Repr

/-- The element of an array at the given variables. -/
def Place.element (array : String) (indices : List String) : Place :=
  ⟨array, indices.map .var⟩

def Place.render (p : Place) : String :=
  p.name ++ String.join (p.subscripts.map fun s => "[" ++ s.render ++ "]")

inductive Operation where
  | add
  | sub
  | mul
  | div
deriving DecidableEq, Repr

namespace Operation

def symbol : Operation → String
  | add => "+"
  | sub => "-"
  | mul => "*"
  | div => "/"

def precedence : Operation → Nat
  | add | sub => 1
  | mul | div => 2

end Operation

inductive Comparison where
  | less
  | greater
deriving DecidableEq, Repr

def Comparison.symbol : Comparison → String
  | less => "<"
  | greater => ">"

inductive Expr where
  | int (value : Int)
  | float (value : Single)
  | read (place : Place)
  | cast (type : ElementType) (operand : Expr)
  | operate (operation : Operation) (left right : Expr)
  /-- The value of `yes` if the comparison holds, and of `no` otherwise. -/
  | choose (comparison : Comparison) (left right yes no : Expr)
deriving DecidableEq, Repr

/-- A floating-point constant of type `float`. -/
def floatLiteral (value : Single) : String := value.render .literal ++ "f"

namespace Expr

def precedence : Expr → Nat
  | int _ | float _ | read _ => 4
  | cast _ _ => 3
  | operate operation _ _ => operation.precedence
  | choose .. => 0

/-- The text, in parentheses unless the expression binds at least as tightly as the context asks. -/
def render (e : Expr) (context : Nat := 0) : String :=
  let text := match e with
    | int value => toString value
    | float value => floatLiteral value
    | read place => place.render
    | cast type operand => "(" ++ typeName type ++ ")" ++ operand.render 3
    | operate operation left right =>
      left.render operation.precedence ++ " " ++ operation.symbol ++ " "
        ++ right.render (operation.precedence + 1)
    | choose comparison left right yes no =>
      left.render 1 ++ " " ++ comparison.symbol ++ " " ++ right.render 1
        ++ " ? " ++ yes.render 1 ++ " : " ++ no.render 1
  if e.precedence < context then "(" ++ text ++ ")" else text

end Expr

inductive Stmt where
  | declare (type : ElementType) (name : String) (value : Expr)
  | assign (target : Place) (value : Expr)
  | addTo (target : Place) (value : Expr)
deriving DecidableEq, Repr

def Stmt.render : Stmt → String
  | declare type name value => typeName type ++ " " ++ name ++ " = " ++ value.render ++ ";"
  | assign target value => target.render ++ " = " ++ value.render ++ ";"
  | addTo target value => target.render ++ " += " ++ value.render ++ ";"

end Stencil.C
