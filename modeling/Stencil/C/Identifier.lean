/-!
# C identifiers

Any name becomes a C identifier: what is neither an ASCII letter nor a digit turns
into an underscore, and an underscore goes in front if the result is empty or would
start with a digit.
-/

namespace Stencil.C

def replaceChar (c : Char) : Char := if c.isAlphanum then c else '_'

/-- Whether the characters can begin an identifier. -/
def startsIdentifier : List Char → Bool
  | [] => false
  | c :: _ => !c.isDigit

def identifierChars (name : List Char) : List Char :=
  let replaced := name.map replaceChar
  if startsIdentifier replaced then replaced else '_' :: replaced

def identifier (name : String) : String :=
  String.ofList (identifierChars name.toList)

end Stencil.C
