/-!
# Windows

The kernel of a convolution slides over each spatial axis of the data in steps of the
stride. An axis with its pads is a window; it says how many positions the kernel has
and which elements of the unpadded data each position covers.
-/

namespace Stencil

/-- A value for each spatial axis. -/
structure Spatial (α : Type) where
  height : α
  width : α
deriving DecidableEq, Repr

namespace Spatial

variable {α β γ : Type}

def toList (s : Spatial α) : List α := [s.height, s.width]

def map (f : α → β) (s : Spatial α) : Spatial β := ⟨f s.height, f s.width⟩

def zipWith (f : α → β → γ) (s : Spatial α) (t : Spatial β) : Spatial γ :=
  ⟨f s.height t.height, f s.width t.width⟩

end Spatial

/-- A spatial axis of the data and the kernel that slides over it. -/
structure Axis where
  input : Nat
  kernel : Nat
  stride : Nat
  dilation : Nat
deriving DecidableEq, Repr

/-- The number of neighbouring elements that a kernel position spans. -/
def Axis.reach (a : Axis) : Nat := (a.kernel - 1) * a.dilation + 1

/-- An axis with the padding at its two ends. -/
structure Window extends Axis where
  padBegin : Nat
  padEnd : Nat
deriving DecidableEq, Repr

namespace Window

def padded (w : Window) : Nat := w.input + w.padBegin + w.padEnd

/-- The number of kernel positions, if the kernel fits at all. -/
def size? (w : Window) : Option Nat :=
  if w.reach ≤ w.padded then some ((w.padded - w.reach) / w.stride + 1) else none

theorem size?_isSome (w : Window) : w.size?.isSome = decide (w.reach ≤ w.padded) := by
  unfold size?
  split <;> simp_all

def size (w : Window) : Nat := w.size?.getD 0

/-- Where the kernel begins for an output index, in the coordinates of the unpadded data. -/
def start (w : Window) (output : Nat) : Int :=
  (output * w.stride : Nat) - (w.padBegin : Int)

/-- The data coordinate under a kernel index. -/
def position (w : Window) (output tap : Nat) : Int :=
  w.start output + (tap * w.dilation : Nat)

/-- The data index under a kernel index, unless it lies in the padding. -/
def index? (w : Window) (output tap : Nat) : Option Nat :=
  let p := w.position output tap
  if 0 ≤ p ∧ p < w.input then some p.toNat else none

end Window

end Stencil
