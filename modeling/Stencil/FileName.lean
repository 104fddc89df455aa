/-!
# File names

Paths are texts whose parts are separated by slashes. Empty parts and single dots name
nothing; two dots name the folder around.
-/

namespace Stencil.FileName

/-- The parts between the slashes. -/
def parts : List Char → List (List Char)
  | [] => [[]]
  | c :: cs =>
    if c = '/' then [] :: parts cs
    else match parts cs with
      | [] => [[c]]
      | part :: rest => (c :: part) :: rest

def joinParts (ps : List (List Char)) : List Char :=
  List.intercalate ['/'] ps

/-- Parts that do not lead anywhere. -/
def isSilent (part : List Char) : Bool := part.isEmpty || part == ['.']

/-- The part that leads to the folder around. -/
def outward : List Char := ['.', '.']

/-- Parts that name a file or a folder. -/
def isName (part : List Char) : Bool := !isSilent part && part != outward

/-- The last part that leads anywhere if it is a name, and the parts before it. -/
def splitLast? (path : String) : Option (List (List Char) × List Char) :=
  match (parts path.toList).reverse.dropWhile isSilent with
  | [] => none
  | name :: before => if isName name then some (before.reverse, name) else none

/-- The name of the file itself, if the path ends in one. -/
def fileName? (path : String) : Option String :=
  (splitLast? path).map fun (_, name) => String.ofList name

/-- A name without its extension. A dot in front does not begin an extension. -/
def stem (name : List Char) : List Char :=
  match name.reverse.dropWhile (· ≠ '.') with
  | [] => name
  | _ :: before => if before.isEmpty then name else before.reverse

/-- Whether the last part of a path is the given one. -/
def endsIn (path : String) (part : List Char) : Bool :=
  (parts path.toList).getLast? == some part

/-- A name with another extension in place of its own. -/
def replaceExtension (name : List Char) (extension : String) : List Char :=
  stem name ++ '.' :: extension.toList

/-- The path with another extension in place of what follows the last dot of the name.
Where two dots remain of the whole name, they lead to the folder around and take no
extension. -/
def withExtension (path extension : String) : String :=
  match splitLast? path with
  | none => path
  | some (before, name) =>
    let replaced :=
      if stem name = ['.'] ∧ endsIn path name then outward else replaceExtension name extension
    String.ofList (joinParts (before ++ [replaced]))

end Stencil.FileName
