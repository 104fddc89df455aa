import Stencil.Association
import Stencil.Place

/-!
# Files

The files and folders that a run finds, by the text of their places. A path is followed
part by part: what it passes must be a folder, and only the last name of a path that is
written to may be new. The current folder and those around it are always there.
-/

namespace Stencil

open FileName

inductive FileError where
  | notFound
  | isFolder
  | notFolder
  | nameTooLong
  /-- The path has a character that no name can have. -/
  | nameWithNul
deriving DecidableEq, Repr

def FileError.message : FileError → String
  | notFound => "No such file or directory (os error 2)"
  | isFolder => "Is a directory (os error 21)"
  | notFolder => "Not a directory (os error 20)"
  | nameTooLong => "File name too long (os error 36)"
  | nameWithNul => "file name contained an unexpected NUL byte"

structure Files where
  entries : Association String := []
  folders : List String := []
deriving DecidableEq, Repr

namespace Files

/-- The given files, in folders that exist because of them. -/
def ofEntries (entries : List (String × String)) : Files where
  entries := entries.map fun (path, text) => ((Place.ofPath path).text, text)
  folders := entries.flatMap fun (path, _) => (Place.ofPath path).folders.map Place.text

variable (f : Files)

def text? (p : Place) : Option String := f.entries.find? p.text

def hasFolder (p : Place) : Bool := p.isAround || f.folders.contains p.text

def holds (p : Place) : Bool := f.hasFolder p || (f.text? p).isSome

/-! ## Following a path -/

/-- The bytes that a name may have. -/
def nameLimit : Nat := 255

/-- The bytes that a path may have. -/
def pathLimit : Nat := 4095

def isTooLong (name : List Char) : Bool := nameLimit < (String.ofList name).utf8ByteSize

/-- What a path must be for anything to be looked up. -/
def checkPath (path : String) : Except FileError Unit :=
  if path.toList.contains '\x00' then .error .nameWithNul
  else if path.isEmpty then .error .notFound
  else if pathLimit < path.utf8ByteSize then .error .nameTooLong
  else .ok ()

/-- Follow one part of a path from a folder to what is there. -/
def follow (p : Place) (part : List Char) : Except FileError Place :=
  if !f.hasFolder p then .error .notFolder
  else if isName part then
    if isTooLong part then .error .nameTooLong
    else if f.holds (p.child part) then .ok (p.child part)
    else .error .notFound
  else .ok (p.step part)

/-- Where the parts of a path lead. -/
def find (path : String) (ps : List (List Char)) : Except FileError Place :=
  ps.foldlM f.follow (Place.origin path)

/-- The new or old file of a name in a folder. A slash after the name asks for a folder. -/
def fileIn (folder : Place) (name : List Char) (slash : Bool) : Except FileError Place :=
  if !f.hasFolder folder then .error .notFolder
  else if slash then .error .isFolder
  else if isTooLong name then .error .nameTooLong
  else if f.hasFolder (folder.child name) then .error .isFolder
  else .ok (folder.child name)

/-- The place that a path can be written to. -/
def target (path : String) : Except FileError Place := do
  checkPath path
  let ps := parts path.toList
  match ps.reverse.dropWhile List.isEmpty with
  | [] => .error .isFolder
  | last :: before =>
    if isName last then
      let folder ← f.find path before.reverse
      f.fileIn folder last (endsIn path [])
    else
      let _ ← f.find path ps
      .error .isFolder

/-! ## Reading and writing -/

def read (path : String) : Except FileError String := do
  checkPath path
  let place ← f.find path (parts path.toList)
  if f.hasFolder place then .error .isFolder
  else match f.text? place with
    | some text => .ok text
    | none => .error .notFound

/-- Create or overwrite a file in a folder that exists. -/
def write (path text : String) : Except FileError Files := do
  let place ← f.target path
  return { f with entries := f.entries.put place.text text }

/-- The files of `after` that `f` does not hold with the same text. -/
def changes (after : Files) : List (String × String) :=
  after.entries.filter fun (key, text) => f.entries.find? key != some text

end Files

end Stencil
