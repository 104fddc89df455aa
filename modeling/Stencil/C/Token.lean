import Mathlib.Data.List.SplitBy

/-!
# Tokens

C text falls into words, numbers and symbols. Characters that stand side by side form one
token if they can, and blanks and line feeds only keep tokens apart.
-/

namespace Stencil.C

inductive Symbol where
  | parenOpen
  | parenClose
  | bracketOpen
  | bracketClose
  | braceOpen
  | braceClose
  | semicolon
  | comma
  | question
  | colon
  | assign
  | addAssign
  | increment
  | plus
  | minus
  | times
  | divide
  | less
  | greater
  | notLess
  | or
deriving DecidableEq, Repr

namespace Symbol

def all : List Symbol :=
  [parenOpen, parenClose, bracketOpen, bracketClose, braceOpen, braceClose, semicolon, comma,
   question, colon, assign, addAssign, increment, plus, minus, times, divide, less, greater, notLess,
   or]

def chars : Symbol → List Char
  | parenOpen => ['(']
  | parenClose => [')']
  | bracketOpen => ['[']
  | bracketClose => [']']
  | braceOpen => ['\x7b']
  | braceClose => ['\x7d']
  | semicolon => [';']
  | comma => [',']
  | question => ['?']
  | colon => [':']
  | assign => ['=']
  | addAssign => ['+', '=']
  | increment => ['+', '+']
  | plus => ['+']
  | minus => ['-']
  | times => ['*']
  | divide => ['/']
  | less => ['<']
  | greater => ['>']
  | notLess => ['>', '=']
  | or => ['|', '|']

def ofChars? (chars : List Char) : Option Symbol := all.find? (·.chars = chars)

end Symbol

inductive Token where
  | word (text : String)
  | number (value : Nat)
  | symbol (symbol : Symbol)
deriving DecidableEq, Repr

/-- Whether the character can stand in an identifier. -/
def isNameChar (c : Char) : Bool := c.isAlphanum || c == '_'

/-- The pairs of characters that form an operator or begin a comment. -/
def operatorPairs : List (Char × Char) :=
  [('+', '+'), ('+', '='), ('-', '-'), ('-', '='), ('-', '>'), ('*', '='), ('/', '='), ('%', '='),
   ('<', '='), ('>', '='), ('=', '='), ('!', '='), ('&', '&'), ('|', '|'), ('<', '<'), ('>', '>'),
   ('&', '='), ('|', '='), ('^', '='), ('/', '/'), ('/', '*')]

/-- Whether two neighbouring characters belong to one token. -/
def joins (a b : Char) : Bool := (isNameChar a && isNameChar b) || operatorPairs.contains (a, b)

/-- A blank between tokens. -/
def isBlank (c : Char) : Bool := c == ' ' || c == '\n'

/-- The token that characters form. A number of several digits does not begin with zero,
since it would not be a decimal one. -/
def Token.ofChars? (chars : List Char) : Option Token :=
  match chars with
  | [] => none
  | c :: rest =>
    if c.isDigit then
      if chars.all Char.isDigit && (c != '0' || rest.isEmpty) then
        some (.number (Nat.ofDigitChars 10 chars 0))
      else none
    else if isNameChar c then some (.word (String.ofList chars))
    else (Symbol.ofChars? chars).map .symbol

/-- The tokens of a text, unless there is something else in it. -/
def tokens? (text : List Char) : Option (List Token) :=
  ((text.splitBy joins).filter fun piece => !piece.all isBlank).mapM Token.ofChars?

end Stencil.C
