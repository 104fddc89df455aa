import Stencil.Files
import Stencil.Graph.Outline
import Stencil.Journal
import Stencil.Model.Decode

/-!
# Runs

A run reads the options and the model, builds the graph and writes its source file.
Nothing is written before the whole graph has been built.
-/

namespace Stencil

inductive RunError where
  | noInput
  | file (e : FileError)
  | decode (e : DecodeError)
  | build (e : BuildError)
deriving DecidableEq, Repr

def RunError.message : RunError → String
  | noInput => "no input file provided"
  | file e => e.message
  | decode e => e.message
  | build e => e.message

/-- What a run is asked to do. -/
structure Settings where
  input : Option String := none
  /-- By default the input with the extension `c`. -/
  output : Option String := none
  optionsFile : Option String := none
  /-- Overrides the options file. -/
  quantize : Option Bool := none
  /-- Also write an outline of the graph next to the output. -/
  development : Bool := false
deriving DecidableEq, Repr

/-! ## Comments -/

/-- Put a space into every end of a comment. -/
def keepCommentOpen : List Char → List Char
  | '*' :: '/' :: rest => '*' :: ' ' :: '/' :: keepCommentOpen rest
  | c :: rest => c :: keepCommentOpen rest
  | [] => []

/-- The comment on top of the source file: the name of the graph, if it has one, and
the file it comes from. -/
def topComment (name input : String) : String :=
  let origin := "from " ++ (FileName.fileName? input).getD input ++ " by onnx-cgen"
  let comment := if name.isEmpty then "Generated " ++ origin else name ++ ": generated " ++ origin
  String.ofList (keepCommentOpen comment.toList)

/-! ## Reading -/

def readDocument {α : Type} (decode : String → Decoded α) (files : Files) (path : String) :
    Except RunError α := do
  let text ← (files.read path).mapError .file
  (decode text).mapError .decode

/-- What a run has worked out before it writes. -/
structure Draft where
  graph : Graph
  comment : String
  output : String
deriving DecidableEq, Repr

namespace Draft

def source (d : Draft) : String := d.graph.source (some d.comment)

def outlinePath (d : Draft) : String := FileName.withExtension d.output "graph.txt"

end Draft

namespace Settings

variable (s : Settings) (files : Files)

/-- The options of a run: those of the options file, then the override. -/
def options : Except RunError Options := do
  let options ← match s.optionsFile with
    | some path => readDocument Options.ofText files path
    | none => pure {}
  return match s.quantize with
    | some quantize => { options with quantize }
    | none => options

def outputFor (input : String) : String :=
  s.output.getD (FileName.withExtension input "c")

def draft : Except RunError Draft := do
  match s.input with
  | none => .error .noInput
  | some input =>
    let options ← s.options files
    let model ← readDocument Model.ofText files input
    let graph ← (Graph.build model options).mapError .build
    return ⟨graph, topComment model.name input, s.outputFor input⟩

/-! ## Writing -/

/-- Write the files of a draft; what has been written stays when a later write fails. -/
def write (d : Draft) : Files × Except RunError String :=
  let outlined := if s.development then files.write d.outlinePath d.graph.outline else .ok files
  match outlined with
  | .error e => (files, .error (.file e))
  | .ok files =>
    match files.write d.output d.source with
    | .error e => (files, .error (.file e))
    | .ok files => (files, .ok d.output)

/-- The files after a run, and the path of the source file or why there is none. -/
def run : Files × Except RunError String :=
  match s.draft files with
  | .error e => (files, .error e)
  | .ok d => s.write files d

/-! ## Events -/

def optionsEvents : List Event :=
  s.optionsFile.toList.map .readingOptions

/-- The events after the options have been read. -/
def modelEvents (input : String) (options : Options) : List Event :=
  .usingOptions options ::
    match readDocument Model.ofText files input with
    | .error _ => []
    | .ok model => Graph.buildEvents model options

def writeEvents (d : Draft) : List Event :=
  let source := d.graph.sourceEvents ++ [.writingSource d.output]
  if s.development then
    .writingGraph d.outlinePath ::
      match files.write d.outlinePath d.graph.outline with
      | .ok _ => source
      | .error _ => []
  else source

def events : List Event :=
  match s.input with
  | none => []
  | some input =>
    .readingModel input :: s.optionsEvents
      ++ (match s.options files with
        | .error _ => []
        | .ok options => modelEvents files input options)
      ++ (match s.draft files with
        | .error _ => []
        | .ok d => s.writeEvents files d)

end Settings

end Stencil
