import Stencil.C.Initializer
import Stencil.Graph.Basic

/-!
# C source files

The file of a graph: the arrays of its constant and intermediate tensors, a function
for each node, and an `entry` function that calls them in order.
-/

namespace Stencil.Graph

open C

variable (g : Graph)

/-- The C name of a tensor of the graph. -/
def cName (name : String) : String :=
  match g.registry.get? name with
  | some t => t.cName
  | none => identifier name

/-- The definition of a constant array. -/
def constantArray (t : Tensor) (data : TensorData) : String :=
  "static const " ++ declaration t.type (g.cName t.name) t.shape ++ " = "
    ++ nestedInitializer (arrayDims t.shape) (literals t.type data) ++ ";"

/-- The definition of an array that nodes write and read. -/
def workArray (t : RegisteredTensor) : String :=
  "static " ++ declaration t.tensor.type t.cName t.tensor.shape ++ ";"

/-- A group of lines, set apart by an empty line if there are any. -/
def printGroup (group : List String) (out : Listing) : Listing :=
  if group.isEmpty then out else group.foldl (fun out text => out.line text) out.blank

def functionHeader (r : Routine) : String :=
  "static inline void " ++ r.functionName
    ++ "(" ++ commaSeparated (r.bindings.map Binding.parameter) ++ ")"

def printFunction (r : Routine) (out : Listing) : Listing :=
  (r.print (out.blank.enter (functionHeader r))).leave

/-- A parameter of `entry`; what it does not write is constant. -/
def entryParameter (t : RegisteredTensor) : String :=
  (if t.role = .output then "" else "const ")
    ++ declaration t.tensor.type t.cName t.tensor.shape

/-- The parameters of `entry`: inputs, then outputs, each in the order of the model. -/
def entryParameters : List String :=
  ((g.inputs ++ g.outputs).filterMap g.registry.get?).map entryParameter

/-- The names of the tensors that a node function is called with. -/
def arguments (r : Routine) : List String :=
  r.bindings.map fun b => g.cName b.tensor.name

def call (r : Routine) : String :=
  r.functionName ++ "(" ++ commaSeparated (g.arguments r) ++ ");"

def printEntry (out : Listing) : Listing :=
  let opened := out.blank.enter ("void entry(" ++ commaSeparated g.entryParameters ++ ")")
  (g.routines.foldl (fun out r => out.line (g.call r)) opened).leave

def printTopComment (comment : Option String) (out : Listing) : Listing :=
  match comment with
  | some text => out.line ("/* " ++ text ++ " */")
  | none => out

/-- Print the source file of the graph. -/
def print (comment : Option String) (out : Listing) : Listing :=
  let opened := (printTopComment comment out).line "#include <stdint.h>"
  let arrays := opened
    |> printGroup (g.registry.initializers.map fun (t, data) => g.constantArray t data)
    |> printGroup (g.registry.intermediates.map workArray)
  g.printEntry (g.routines.foldl (fun out r => printFunction r out) arrays)

/-- The text of the source file. -/
def source (comment : Option String) : String := (g.print comment .empty).text

end Stencil.Graph
