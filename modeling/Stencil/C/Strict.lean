import Stencil.C.Meaning

/-!
# Arithmetic without overflow

C leaves it undefined what a signed operation does whose result is out of range. Here such an
operation has no result at all, and statements end only if every operation in them has one.
-/

namespace Stencil.C

/-- The word for an integer, if it is in range. -/
def word? (value : Int) : Option Int32 :=
  if CounterType.int32.holds value then some (Int32.ofInt value) else none

/-- The exact result of an operation, if it has one in range. -/
def Operation.strict? (operation : Operation) (a b : Int32) : Option Int32 :=
  match operation with
  | .add => word? (a.toInt + b.toInt)
  | .sub => word? (a.toInt - b.toInt)
  | .mul => word? (a.toInt * b.toInt)
  | .div => if b = 0 then none else word? (a.toInt.tdiv b.toInt)

def Expr.strict? (s : State) : Expr → Option Int32
  | .int value => word? value
  | .float _ => none
  | .read place => s.read? place
  | .cast type operand => do convert? type (← operand.strict? s)
  | .operate operation left right => do operation.strict? (← left.strict? s) (← right.strict? s)
  | .choose comparison left right yes no => do
    if comparison.holds (← left.strict? s) (← right.strict? s) then yes.strict? s else no.strict? s

def Stmt.strict? (s : State) : Stmt → Option State
  | .declare type name value => do s.write? ⟨name, []⟩ (← convert? type (← value.strict? s))
  | .assign target value => do s.write? target (← value.strict? s)
  | .addTo target value => do s.write? target (← Operation.add.strict? (← s.read? target) (← value.strict? s))

def strictAll? (stmts : List Stmt) (s : State) : Option State :=
  stmts.foldlM Stmt.strict? s

end Stencil.C
