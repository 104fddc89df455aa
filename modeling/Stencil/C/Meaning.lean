import Stencil.C.Expr
import Stencil.C.Nest

/-!
# The meaning of loop nests

Loop variables are exact integers that leave a record of their values, data are 32-bit
words with wrapping arithmetic, and arrays are stored in row-major order. What C leaves
undefined has no meaning; in particular, no loop variable may leave its type.
-/

namespace Stencil.C

/-- Values by name. -/
abbrev Env (α : Type) : Type := String → Option α

def Env.set {α : Type} (env : Env α) (name : String) (value : α) : Env α :=
  fun other => if other = name then some value else env other

theorem Env.set_same {α : Type} (env : Env α) (name : String) (value : α) :
    env.set name value name = some value := by
  simp [Env.set]

theorem Env.set_other {α : Type} (env : Env α) {name other : String} (value : α)
    (h : other ≠ name) : env.set name value other = env other := by
  simp [Env.set, h]

/-- An array with its declared dimensions. -/
structure ArrayValue where
  dims : List Nat
  values : List Int32
deriving DecidableEq, Repr

/-- The data that statements read and write. -/
structure Memory where
  words : Env Int32
  arrays : Env ArrayValue

structure State extends Memory where
  counters : Env Int
  /-- The values that loop variables and index sums have taken, with their types. -/
  taken : List (CounterType × Int) := []

/-- Whether a variable of the type can hold the value. -/
def CounterType.holds : CounterType → Int → Bool
  | int32, value => -2147483648 ≤ value && value < 2147483648
  | uint32, value => 0 ≤ value && value < 4294967296

/-- The row-major index of an element, if there is one. -/
def flatIndex? : List Nat → List Nat → Option Nat
  | [], [] => some 0
  | dim :: dims, i :: is =>
    if i < dim then (flatIndex? dims is).map (i * dims.foldr (· * ·) 1 + ·) else none
  | _, _ => none

namespace State

variable (s : State)

/-- Give a loop variable or an index sum of a type its value. -/
def assign (type : CounterType) (name : String) (value : Int) : State :=
  { s with counters := s.counters.set name value, taken := s.taken ++ [(type, value)] }

/-- No loop variable and no index sum has left its type. -/
def InRange : Prop := ∀ v ∈ s.taken, v.1.holds v.2

instance : Decidable s.InRange := inferInstanceAs (Decidable (∀ v ∈ s.taken, v.1.holds v.2))

/-! ## Expressions -/

def subscript? : Subscript → Option Nat
  | .number value => some value
  | .var name =>
    match s.counters name with
    | some (.ofNat value) => some value
    | _ => none

/-- The array of a place and the index of its element. -/
def element? (p : Place) : Option (ArrayValue × Nat) := do
  let array ← s.arrays p.name
  let index ← flatIndex? array.dims (← p.subscripts.mapM s.subscript?)
  return (array, index)

def read? (p : Place) : Option Int32 := do
  if p.subscripts.isEmpty then s.words p.name
  else
    let (array, index) ← s.element? p
    array.values[index]?

def write? (p : Place) (value : Int32) : Option State := do
  if p.subscripts.isEmpty then return { s with words := s.words.set p.name value }
  else
    let (array, index) ← s.element? p
    if index < array.values.length then
      return { s with
        arrays := s.arrays.set p.name { array with values := array.values.set index value } }
    else none

end State

/-- The conversion of a word to a type that fits in a word. -/
def convert? (type : ElementType) (value : Int32) : Option Int32 :=
  match type with
  | .int8 => some value.toInt8.toInt32
  | .int32 => some value
  | _ => none

def Operation.apply? (operation : Operation) (a b : Int32) : Option Int32 :=
  match operation with
  | .add => some (a + b)
  | .sub => some (a - b)
  | .mul => some (a * b)
  | .div => (quotient a b).toOption

def Comparison.holds (comparison : Comparison) (a b : Int32) : Bool :=
  match comparison with
  | .less => a < b
  | .greater => b < a

def Expr.eval? (s : State) : Expr → Option Int32
  | .int value => some (Int32.ofInt value)
  | .float _ => none
  | .read place => s.read? place
  | .cast type operand => do convert? type (← operand.eval? s)
  | .operate operation left right => do operation.apply? (← left.eval? s) (← right.eval? s)
  | .choose comparison left right yes no => do
    if comparison.holds (← left.eval? s) (← right.eval? s) then yes.eval? s else no.eval? s

/-! ## Statements and loops -/

def Stmt.exec? (s : State) : Stmt → Option State
  | .declare type name value => do s.write? ⟨name, []⟩ (← convert? type (← value.eval? s))
  | .assign target value => do s.write? target (← value.eval? s)
  | .addTo target value => do s.write? target ((← s.read? target) + (← value.eval? s))

def execAll? (stmts : List Stmt) (s : State) : Option State :=
  stmts.foldlM Stmt.exec? s

namespace Loop

/-- The variables of the loop with their values in the iteration of the given number. -/
def valuesAt (l : Loop) (iteration : Nat) : List (String × Int) :=
  (l.counter, (iteration : Int))
    :: (l.follower.map fun f => (f.name, f.start + (iteration * f.step : Int))).toList

def enterState (l : Loop) (iteration : Nat) (s : State) : State :=
  (l.valuesAt iteration).foldl (fun s v => s.assign l.type v.1 v.2) s

/-- Run the body proper unless the guard skips it. -/
def guarded? (guard : Option Guard) (body : State → Option State) (s : State) : Option State :=
  match guard with
  | none => body s
  | some g => do
    let position := (← s.counters g.left) + (← s.counters g.right)
    let summed := s.assign .int32 g.name position
    if position < 0 ∨ (g.size : Int) ≤ position then return summed else body summed

/-- Run the iterations in order; the variables end one step past the last one. -/
def exec? (l : Loop) (body : State → Option State) (s : State) : Option State := do
  let last ← (List.range l.bound).foldlM
    (fun s iteration => guarded? l.guard body (l.enterState iteration s)) s
  return l.enterState l.bound last

end Loop

namespace Nest

variable {α : Type}

/-- Loops inside one another, the first one outermost. -/
def execLoops? (loops : List Loop) (body : State → Option State) : State → Option State :=
  loops.foldr Loop.exec? body

/-- Run the nest, given how a phase runs. -/
def exec? (phase : α → State → Option State) (n : Nest α) : State → Option State :=
  execLoops? n.outer fun s => do
    let started ← phase n.before s
    let summed ← execLoops? n.inner (phase n.each) started
    phase n.after summed

/-- The state that the emitted nest ends in. There is none if a loop variable leaves its type:
a signed one overflows, and an unsigned one that wraps never reaches its bound. -/
def run? (n : Nest (List Stmt)) (s : State) : Option State :=
  (n.exec? execAll? s).filter fun t => t.InRange

end Nest

end Stencil.C
