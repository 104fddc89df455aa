import Stencil.Graph.Source
import Stencil.Proofs.CarefulBuild

/-!
# Printing without a trap

Printing a file looks up tensors, cuts values into pieces and works out the sizes of the
outputs once more. The indexes of a built graph and the geometry of its routines exclude that
any of it traps.
-/

namespace Stencil

namespace Careful

open Trap

/-! ## Constants -/

/-- The values in nested braces; a piece has at least one value. -/
def nestedInitializer : List Nat → List String → Except Trap String
  | [], values => .ok (values.headD "0")
  | _ :: inner, values => do
    let pieces ← chunksOf (max 1 (inner.foldr (· * ·) 1)) values
    return "\x7b" ++ commaSeparated (← pieces.mapM (nestedInitializer inner)) ++ "\x7d"

theorem nestedInitializer_eq_ok (sizes : List Nat) (values : List String) :
    nestedInitializer sizes values = .ok (C.nestedInitializer sizes values) := by
  induction sizes generalizing values with
  | nil => rfl
  | cons size inner ih =>
    have hpieces := Except.mapM_eq_ok_map (l := C.chunks (max 1 (inner.foldr (· * ·) 1)) values)
      fun piece _ => ih piece
    simp only [nestedInitializer, chunksOf_eq_ok (Nat.lt_of_lt_of_le Nat.one_pos (Nat.le_max_left _ _)),
      hpieces, Except.ok_bind]
    rfl

section

variable (g : Graph)

def cName (name : String) : Except Trap String := do
  match ← get? g.registry name with
  | some t => return t.cName
  | none => return C.identifier name

def constantArray (t : Tensor) (data : TensorData) : Except Trap String := do
  let name ← cName g t.name
  let values ← nestedInitializer (C.arrayDims t.shape) (C.literals t.type data)
  return "static const " ++ C.declaration t.type name t.shape ++ " = " ++ values ++ ";"

end

/-! ## Functions -/

/-- The loop over the outputs of an axis. -/
def outputLoop (c : Convolution) (axis : String) (i size stride : Nat) : Except Trap C.Loop := do
  let pad ← elementAt c.pads.toList i
  return { type := .int32, counter := "o" ++ axis, bound := size
           follower := some ⟨"i" ++ axis, -pad, stride⟩ }

/-- The loop over the kernel indices of an axis. -/
def kernelLoop (axis : String) (kernel input : Nat) : C.Loop :=
  { type := .int32, counter := "k" ++ axis, bound := kernel
    guard := some ⟨"ii" ++ axis, "i" ++ axis, "k" ++ axis, input⟩ }

/-- The loops of a body, for which nothing is dilated. -/
def nest (r : Routine) : Except Trap (C.Nest (List C.Stmt)) := do
  let c := r.convolution
  let sizes ← outputSizes c
  let height ← elementAt c.dataShape 2
  let width ← elementAt c.dataShape 3
  assert (c.dilations = ⟨1, 1⟩)
  return {
    outer := [.count "b" (← elementAt c.dataShape 0), .count "m" c.channelsOut,
      ← outputLoop c "0" 0 sizes.height c.strides.height, ← outputLoop c "1" 1 sizes.width c.strides.width]
    before := r.arithmetic.before
    inner := [.count "c" (← elementAt c.dataShape 1), kernelLoop "0" c.kernelShape.height height,
      kernelLoop "1" c.kernelShape.width width]
    each := r.arithmetic.each
    after := r.arithmetic.after }

def print (r : Routine) (out : C.Listing) : Except Trap C.Listing := do
  let nest ← nest r
  return out |> C.printHeaderComment r.operator r.name r.convolution |> nest.print C.printStmts

def printFunction (out : C.Listing) (r : Routine) : Except Trap C.Listing := do
  return (← print r (out.blank.enter (Graph.functionHeader r))).leave

theorem nest_eq_ok {r : Routine} (h : r.convolution.Regular) : nest r = .ok r.nest := by
  have hdilations : r.convolution.dilations = ⟨1, 1⟩ :=
    congrArg₂ Spatial.mk h.height.dilation_eq h.width.dilation_eq
  simp only [nest, outputSizes_eq_ok h, assert_eq_ok hdilations, Except.ok_bind]
  rfl

theorem printFunction_eq_ok {r : Routine} (h : r.convolution.Regular) (out : C.Listing) :
    printFunction out r = .ok (Graph.printFunction r out) := by
  simp only [printFunction, print, nest_eq_ok h, Except.ok_bind]
  rfl

/-! ## The file -/

section

variable (g : Graph)

def entryParameters : Except Trap (List String) := do
  let found ← (g.inputs ++ g.outputs).mapM (get? g.registry)
  return (found.filterMap id).map Graph.entryParameter

def call (r : Routine) : Except Trap String := do
  let arguments ← r.bindings.mapM fun b => cName g b.tensor.name
  return r.functionName ++ "(" ++ commaSeparated arguments ++ ");"

def printEntry (out : C.Listing) : Except Trap C.Listing := do
  let parameters ← entryParameters g
  let opened := out.blank.enter ("void entry(" ++ commaSeparated parameters ++ ")")
  let body ← g.routines.foldlM (fun out r => do return out.line (← call g r)) opened
  return body.leave

def source (comment : Option String) : Except Trap String := do
  let opened := (Graph.printTopComment comment .empty).line "#include <stdint.h>"
  let constants ← g.registry.initializers.mapM fun (t, data) => constantArray g t data
  let arrays := opened |> Graph.printGroup constants
    |> Graph.printGroup (g.registry.intermediates.map Graph.workArray)
  let functions ← g.routines.foldlM printFunction arrays
  return (← printEntry g functions).text

end

variable {g : Graph}

theorem cName_eq_ok (h : g.registry.Indexed) (name : String) : cName g name = .ok (g.cName name) := by
  rw [cName, get?_eq_ok h, Graph.cName, Except.ok_bind]
  cases g.registry.get? name <;> rfl

theorem constantArray_eq_ok (h : g.registry.Indexed) (t : Tensor) (data : TensorData) :
    constantArray g t data = .ok (g.constantArray t data) := by
  simp only [constantArray, cName_eq_ok h, nestedInitializer_eq_ok, Except.ok_bind]
  rfl

theorem entryParameters_eq_ok (h : g.registry.Indexed) : entryParameters g = .ok g.entryParameters := by
  rw [entryParameters, Except.mapM_eq_ok_map fun name _ => get?_eq_ok h name, Except.ok_bind,
    List.filterMap_map]
  rfl

theorem call_eq_ok (h : g.registry.Indexed) (r : Routine) : call g r = .ok (g.call r) := by
  rw [call, Except.mapM_eq_ok_map fun b _ => cName_eq_ok h b.tensor.name, Except.ok_bind]
  rfl

theorem printEntry_eq_ok (h : g.registry.Indexed) (out : C.Listing) :
    printEntry g out = .ok (g.printEntry out) := by
  have hcalls : ∀ opened : C.Listing, (g.routines.foldlM (fun out r => do return out.line (← call g r)) opened) =
      .ok (g.routines.foldl (fun out r => out.line (g.call r)) opened) := by
    refine Except.foldlM_eq_ok_foldl fun out r _ => ?_
    rw [call_eq_ok h]
    rfl
  simp only [printEntry, entryParameters_eq_ok h, hcalls, Except.ok_bind]
  rfl

/-- The file of a graph with its indexes and with regular geometry. -/
theorem source_eq_ok (h : g.registry.Indexed) (hroutines : ∀ r ∈ g.routines, r.convolution.Regular)
    (comment : Option String) : source g comment = .ok (g.source comment) := by
  have hconstants : (g.registry.initializers.mapM fun (t, data) => constantArray g t data) =
      .ok (g.registry.initializers.map fun (t, data) => g.constantArray t data) :=
    Except.mapM_eq_ok_map fun (t, data) _ => constantArray_eq_ok h t data
  have hfunctions : ∀ out, g.routines.foldlM printFunction out =
      .ok (g.routines.foldl (fun out r => Graph.printFunction r out) out) :=
    Except.foldlM_eq_ok_foldl fun out r hr => printFunction_eq_ok (hroutines r hr) out
  simp only [source, hconstants, hfunctions, printEntry_eq_ok h, Except.ok_bind]
  rfl

end Careful

end Stencil
