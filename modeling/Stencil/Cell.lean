import Stencil.Quantization

/-!
# Output cells

An output cell of an integer convolution is blank, then accumulates products modulo
`2 ^ 32`, and is finalized once. A step that does not fit the phase changes nothing.
-/

namespace Stencil

inductive Phase where
  | blank
  | accumulating (sum : Int32)
  | finalized (value : Int32)
deriving DecidableEq, Repr

structure Cell where
  phase : Phase
  /-- With a divisor the sum is requantized in the end. -/
  divisor : Option Int32
deriving DecidableEq, Repr

namespace Cell

def ofDivisor (divisor : Option Int32) : Cell := ⟨.blank, divisor⟩

def start (c : Cell) : Cell :=
  match c.phase with
  | .blank => { c with phase := .accumulating 0 }
  | _ => c

def accumulate (c : Cell) (x zero w : Int32) : Cell :=
  match c.phase with
  | .accumulating sum => { c with phase := .accumulating (sum + (x - zero) * w) }
  | _ => c

def finish (divisor : Option Int32) (sum : Int32) : Except Fault Int32 :=
  match divisor with
  | some divisor => requantize sum divisor
  | none => .ok sum

def finalize (c : Cell) : Except Fault Cell :=
  match c.phase with
  | .accumulating sum => do return { c with phase := .finalized (← finish c.divisor sum) }
  | _ => .ok c

def value? (c : Cell) : Option Int32 :=
  match c.phase with
  | .finalized value => some value
  | _ => none

/-- One call on a cell. -/
inductive Step where
  | start
  | accumulate (x zero w : Int32)
  | finalize
deriving DecidableEq, Repr

def apply (c : Cell) : Step → Except Fault Cell
  | .start => .ok c.start
  | .accumulate x zero w => .ok (c.accumulate x zero w)
  | .finalize => c.finalize

end Cell

end Stencil
