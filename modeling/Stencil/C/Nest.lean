import Stencil.C.Listing
import Stencil.Convolution

/-!
# Loop nests

The emitted form of a convolution: four loops over the output cells, and inside them
three over the channels and kernel positions of a cell. What happens at a cell before,
in and after the inner loops is left open.
-/

namespace Stencil.C

/-- The C type of a loop counter. -/
inductive CounterType where
  | int32
  | uint32
deriving DecidableEq, Repr

def CounterType.name : CounterType → String
  | int32 => "int32_t"
  | uint32 => "uint32_t"

/-- A second variable of a loop, advanced along with its counter. -/
structure Follower where
  name : String
  start : Int
  step : Nat
deriving DecidableEq, Repr

/-- The sum of two variables, with the rest of the loop body skipped unless it is an
index below `size`. -/
structure Guard where
  name : String
  left : String
  right : String
  size : Nat
deriving DecidableEq, Repr

/-- A loop whose counter runs from zero up to a bound. -/
structure Loop where
  type : CounterType
  counter : String
  bound : Nat
  follower : Option Follower := none
  guard : Option Guard := none
deriving DecidableEq, Repr

namespace Loop

def header (l : Loop) : String :=
  let (start, step) := match l.follower with
    | none => ("", "")
    | some f =>
      (", " ++ f.name ++ " = " ++ toString f.start, ", " ++ f.name ++ " += " ++ toString f.step)
  "for (" ++ l.type.name ++ " " ++ l.counter ++ " = 0" ++ start ++ "; "
    ++ l.counter ++ " < " ++ toString l.bound ++ "; " ++ l.counter ++ "++" ++ step ++ ")"

def guardLines : Option Guard → List String
  | none => []
  | some g =>
    ["int32_t " ++ g.name ++ " = " ++ g.left ++ " + " ++ g.right ++ ";",
     "if (" ++ g.name ++ " < 0 || " ++ g.name ++ " >= " ++ toString g.size ++ ") continue;"]

/-- Open the loop, up to where its body proper begins. -/
def enter (l : Loop) (out : Listing) : Listing :=
  (guardLines l.guard).foldl (fun out text => out.line text) (out.enter l.header)

/-- A plain loop over `bound` indices. -/
def count (counter : String) (bound : Nat) : Loop :=
  { type := .uint32, counter, bound }

/-- The loop over the outputs of an axis, followed by where the kernel begins. -/
def outputs (axis : String) (w : Window) : Loop :=
  { type := .int32, counter := "o" ++ axis, bound := w.size
    follower := some ⟨"i" ++ axis, -w.padBegin, w.stride⟩ }

/-- The loop over the kernel indices of an axis that leaves out the padding. -/
def taps (axis : String) (w : Window) : Loop :=
  { type := .int32, counter := "k" ++ axis, bound := w.kernel
    guard := some ⟨"ii" ++ axis, "i" ++ axis, "k" ++ axis, w.input⟩ }

end Loop

/-- Loops around the three phases of an output cell. -/
structure Nest (α : Type) where
  outer : List Loop
  before : α
  inner : List Loop
  each : α
  after : α
deriving DecidableEq, Repr

namespace Nest

variable {α : Type}

/-- The nest of a convolution around the given phases. -/
def ofConvolution (c : Convolution) (before each after : α) : Nest α where
  outer :=
    [.count "b" c.batch, .count "m" c.channelsOut,
     .outputs "0" c.windows.height, .outputs "1" c.windows.width]
  before := before
  inner :=
    [.count "c" c.channelsIn, .taps "0" c.windows.height, .taps "1" c.windows.width]
  each := each
  after := after

def enterAll (loops : List Loop) (out : Listing) : Listing :=
  loops.foldl (fun out l => l.enter out) out

def leaveAll (loops : List Loop) (out : Listing) : Listing :=
  loops.foldl (fun out _ => out.leave) out

/-- Print the nest, given how a phase is printed. -/
def print (phase : α → Listing → Listing) (n : Nest α) (out : Listing) : Listing :=
  out |> enterAll n.outer
    |> phase n.before
    |> enterAll n.inner
    |> phase n.each
    |> leaveAll n.inner
    |> phase n.after
    |> leaveAll n.outer

end Nest

end Stencil.C
