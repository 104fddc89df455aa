import Stencil.FileName

/-!
# Places

Where a path leads, by the names on the way from the root or from the current folder.
A step to the folder around undoes the name before it, so such steps remain only in
front of a place outside of the current folder.
-/

namespace Stencil

open FileName

structure Place where
  /-- The way starts at the root. -/
  rooted : Bool
  names : List (List Char)
deriving DecidableEq, Repr

namespace Place

/-- Where the way of a path starts. -/
def origin (path : String) : Place := ⟨path.toList.head? = some '/', []⟩

def child (p : Place) (name : List Char) : Place := { p with names := p.names ++ [name] }

/-- The folder around a place; the root has none but itself. -/
def parent (p : Place) : Place :=
  match p.names.getLast? with
  | some name =>
    if name = outward then p.child outward else { p with names := p.names.dropLast }
  | none => if p.rooted then p else p.child outward

/-- Follow one part of a path. -/
def step (p : Place) (part : List Char) : Place :=
  if isSilent part then p else if part = outward then p.parent else p.child part

def ofPath (path : String) : Place := (parts path.toList).foldl step (origin path)

/-- The shortest path to the place; it is empty for the current folder. -/
def text (p : Place) : String :=
  String.ofList ((if p.rooted then ['/'] else []) ++ joinParts p.names)

/-- The root, the current folder, or one of the folders around it. -/
def isAround (p : Place) : Bool := p.names.all (· == outward)

/-- Whether the place lies in the current folder. -/
def isWithin (p : Place) : Bool := !p.rooted && p.names.head? != some outward

/-- The folders on the way. -/
def folders (p : Place) : List Place :=
  (List.range p.names.length).map fun n => { p with names := p.names.take n }

end Place

end Stencil
