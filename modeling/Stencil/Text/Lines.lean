/-!
# Lines and lists of text

A line ends at a line feed, with or without a carriage return before it; a carriage
return elsewhere is text.
-/

namespace Stencil

/-- The lines of a text without their terminators. The end of the text ends a line
only if something stands on it. -/
def splitLines : List Char → List (List Char)
  | [] => []
  | '\n' :: rest => [] :: splitLines rest
  | '\r' :: '\n' :: rest => [] :: splitLines rest
  | c :: rest =>
    match splitLines rest with
    | [] => [[c]]
    | line :: lines => (c :: line) :: lines

def lines (text : String) : List String :=
  (splitLines text.toList).map String.ofList

def commaSeparated (items : List String) : String :=
  String.intercalate ", " items

/-- The items in square brackets, as lists stand in messages. -/
def bracketed (items : List String) : String :=
  "[" ++ commaSeparated items ++ "]"

end Stencil
