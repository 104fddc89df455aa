import Stencil.Text.Lines

/-!
# Listings

A listing is program text that grows line by line at a current indentation.
-/

namespace Stencil.C

structure Listing where
  text : String := ""
  indent : Nat := 0
deriving DecidableEq, Repr

namespace Listing

def empty : Listing := {}

/-- What stands before a line at the current indentation. -/
def margin (l : Listing) : String :=
  String.ofList (List.replicate (4 * l.indent) ' ')

def line (text : String) (l : Listing) : Listing :=
  { l with text := l.text ++ l.margin ++ text ++ "\n" }

def blank (l : Listing) : Listing :=
  { l with text := l.text ++ "\n" }

/-- A line that gets no margin if it is empty. -/
def blockLine (l : Listing) (text : String) : Listing :=
  if text.isEmpty then l.blank else l.line text

/-- The lines of a text at the current indentation. -/
def block (text : String) (l : Listing) : Listing :=
  (lines text).foldl blockLine l

/-- A line that opens a brace; what follows stands one level deeper. -/
def enter (text : String) (l : Listing) : Listing :=
  let opened := l.line (text ++ " \x7b")
  { opened with indent := opened.indent + 1 }

/-- One level back, at most to the margin, and then a line. -/
def leaveWith (text : String) (l : Listing) : Listing :=
  { l with indent := l.indent - 1 }.line text

def leave (l : Listing) : Listing := l.leaveWith "\x7d"

/-! ## Indentation -/

@[simp] theorem indent_line (text : String) (l : Listing) : (l.line text).indent = l.indent := rfl

@[simp] theorem indent_blank (l : Listing) : l.blank.indent = l.indent := rfl

@[simp] theorem indent_enter (text : String) (l : Listing) :
    (l.enter text).indent = l.indent + 1 := rfl

@[simp] theorem indent_leaveWith (text : String) (l : Listing) :
    (l.leaveWith text).indent = l.indent - 1 := rfl

@[simp] theorem indent_leave (l : Listing) : l.leave.indent = l.indent - 1 := rfl

@[simp] theorem indent_blockLine (l : Listing) (text : String) :
    (l.blockLine text).indent = l.indent := by
  unfold blockLine
  split <;> rfl

@[simp] theorem indent_block (text : String) (l : Listing) :
    (l.block text).indent = l.indent := by
  unfold block
  induction lines text generalizing l with
  | nil => rfl
  | cons t ts ih => simp [ih]

/-- One way to make a listing grow. -/
inductive Step where
  | line (text : String)
  | blank
  | block (text : String)
  | enter (text : String)
  | leave
  | leaveWith (text : String)
deriving DecidableEq, Repr

def apply (l : Listing) : Step → Listing
  | .line text => l.line text
  | .blank => l.blank
  | .block text => l.block text
  | .enter text => l.enter text
  | .leave => l.leave
  | .leaveWith text => l.leaveWith text

def applyAll (l : Listing) (steps : List Step) : Listing :=
  steps.foldl apply l

end Listing

end Stencil.C
