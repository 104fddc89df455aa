import Stencil.CommandLine

/-!
# The program

Everything that a run may look up comes from the disk first; what the run changed is
written back.
-/

namespace Stencil

/-- The paths that a run reads or writes. -/
def Settings.paths (s : Settings) : List String :=
  s.input.toList ++ s.optionsFile.toList ++ s.input.toList.map s.outputFor

/-- Add what is at a place. What is there but cannot be read is taken for a folder. -/
def addPlace (files : Files) (place : Place) : IO Files := do
  try
    let text ← IO.FS.readFile place.text
    return { files with entries := files.entries.put place.text text }
  catch
    | .noFileOrDirectory .. => return files
    | _ => return { files with folders := place.text :: files.folders }

/-- Add what a path leads to and passes. -/
def addPath (files : Files) (path : String) : IO Files :=
  let place := Place.ofPath path
  (place.folders ++ [place]).foldlM addPlace files

def loadFiles (c : Command) : IO Files :=
  match c with
  | .run s => s.paths.foldlM addPath {}
  | _ => return {}

/-- Write the changed files, and report the first that cannot be written. -/
def storeFiles (changes : List (String × String)) : IO (Option String) := do
  try
    for (path, text) in changes do
      IO.FS.writeFile path text
    return none
  catch e => return some (toString e)

end Stencil

open Stencil in
def main (arguments : List String) : IO UInt32 := do
  let command := Command.ofArguments arguments
  let files ← loadFiles command
  let (after, conclusion) := command.execute files
  IO.print conclusion.output
  IO.eprint conclusion.diagnostics
  match ← storeFiles (files.changes after) with
  | none => return conclusion.exitCode.toUInt32
  | some failure =>
    IO.println (Level.error.name ++ " " ++ failure)
    return 1
