/-!
# Brace groups

What the initializer of an array stands for: a value, or members in braces with commas between
them, each of which initializes the part of the array at its position. The text is read character
by character, with the groups that are still open on a stack.
-/

namespace Stencil.C

inductive BraceTree where
  | value (text : String)
  | group (members : List BraceTree)
deriving Repr

namespace BraceTree

/-! ## Trees -/

mutual

/-- The values, from left to right. -/
def leaves : BraceTree → List String
  | value text => [text]
  | group members => leavesOf members

def leavesOf : List BraceTree → List String
  | [] => []
  | t :: ts => t.leaves ++ leavesOf ts

end

mutual

/-- The number of groups around the innermost value or group. -/
def depth : BraceTree → Nat
  | value _ => 0
  | group members => depthOf members + 1

def depthOf : List BraceTree → Nat
  | [] => 0
  | t :: ts => max t.depth (depthOf ts)

end

/-- The groups of each level have as many members as the dimension of the level says, and what
stands below the last level are values. -/
def HasShape : List Nat → BraceTree → Prop
  | [], value _ => True
  | size :: sizes, group members => members.length = size ∧ ∀ t ∈ members, HasShape sizes t
  | _, _ => False

/-- The value that initializes the element at an index of every dimension. -/
def element? : BraceTree → List Nat → Option String
  | value text, [] => some text
  | group members, i :: is => members[i]?.bind fun t => t.element? is
  | _, _ => none

/-! ## Reading -/

/-- What has been read of a member. -/
inductive Item where
  | absent
  /-- A value to which further characters may belong. -/
  | word (text : List Char)
  | complete (t : BraceTree)

namespace Item

def tree? : Item → Option BraceTree
  | absent => none
  | word text => some (.value (String.ofList text))
  | complete t => some t

/-- A blank ends a value. -/
def blank : Item → Item
  | word text => complete (.value (String.ofList text))
  | item => item

/-- A character of a value. -/
def char? (c : Char) : Item → Option Item
  | absent => some (word [c])
  | word text => some (word (text ++ [c]))
  | complete _ => none

end Item

/-- How far a text has been read: the members of the open groups, the innermost group first, and the
member that comes next. -/
structure Reading where
  opened : List (List BraceTree) := []
  item : Item := .absent

namespace Reading

def step? (r : Reading) (c : Char) : Option Reading :=
  match c with
  | ' ' => some { r with item := r.item.blank }
  | '{' =>
    match r.item with
    | .absent => some ⟨[] :: r.opened, .absent⟩
    | _ => none
  | ',' =>
    match r.opened, r.item.tree? with
    | members :: around, some t => some ⟨(members ++ [t]) :: around, .absent⟩
    | _, _ => none
  | '}' =>
    match r.opened with
    | members :: around => some ⟨around, .complete (.group (members ++ r.item.tree?.toList))⟩
    | [] => none
  | c => (r.item.char? c).map fun item => { r with item }

/-- The tree, once no group is open. -/
def tree? (r : Reading) : Option BraceTree := if r.opened.isEmpty then r.item.tree? else none

end Reading

/-- The tree that a text stands for. -/
def ofText? (text : String) : Option BraceTree := (text.toList.foldlM Reading.step? {}).bind Reading.tree?

end BraceTree

end Stencil.C
