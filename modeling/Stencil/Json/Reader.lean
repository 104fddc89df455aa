import Stencil.Json.Value
import Stencil.Number.Literal

/-!
# Reading JSON text

The strict grammar of JSON: nothing but blanks around the value, no leading zeros, no
control characters inside a text. Reading works on the characters that are left and
returns those that remain.
-/

namespace Stencil.Json

/-! ## Texts -/

/-- A piece of a text literal: a character, or a UTF-16 unit given by its number. -/
inductive Piece where
  | char (c : Char)
  | unit (code : Nat)
deriving DecidableEq, Repr

def hexDigit? (c : Char) : Option Nat :=
  if c.isDigit then some (c.toNat - '0'.toNat)
  else if 'a' ≤ c ∧ c ≤ 'f' then some (c.toNat - 'a'.toNat + 10)
  else if 'A' ≤ c ∧ c ≤ 'F' then some (c.toNat - 'A'.toNat + 10)
  else none

def hexUnit? (a b c d : Char) : Option Nat := do
  return (((← hexDigit? a) * 16 + (← hexDigit? b)) * 16 + (← hexDigit? c)) * 16 + (← hexDigit? d)

/-- The character after a backslash, and what the two stand for. -/
def escapes : List (Char × Char) :=
  [('"', '"'), ('\\', '\\'), ('/', '/'), ('b', '\x08'), ('f', '\x0c'), ('n', '\n'),
   ('r', '\r'), ('t', '\t')]

/-- Read a text literal after its opening quote. -/
def readPieces : List Char → Option (List Piece × List Char)
  | [] => none
  | '"' :: rest => some ([], rest)
  | '\\' :: 'u' :: a :: b :: c :: d :: rest => do
    let code ← hexUnit? a b c d
    let (pieces, rest) ← readPieces rest
    return (.unit code :: pieces, rest)
  | '\\' :: c :: rest => do
    let value ← escapes.lookup c
    let (pieces, rest) ← readPieces rest
    return (.char value :: pieces, rest)
  | c :: rest =>
    if c.toNat < 32 then none
    else do
      let (pieces, rest) ← readPieces rest
      return (.char c :: pieces, rest)

def isHighUnit (code : Nat) : Bool := 0xD800 ≤ code && code < 0xDC00

def isLowUnit (code : Nat) : Bool := 0xDC00 ≤ code && code < 0xE000

/-- The characters of a text literal. A unit that is half of a pair has no character
of its own. -/
def joinPieces : List Piece → Option (List Char)
  | [] => some []
  | .char c :: rest => (joinPieces rest).map (c :: ·)
  | [.unit code] =>
    if isHighUnit code || isLowUnit code then none else some [Char.ofNat code]
  | .unit code :: .char c :: rest =>
    if isHighUnit code || isLowUnit code then none
    else (joinPieces rest).map (Char.ofNat code :: c :: ·)
  | .unit code :: .unit next :: rest =>
    if isHighUnit code then
      if isLowUnit next then
        (joinPieces rest).map
          (Char.ofNat (0x10000 + (code - 0xD800) * 0x400 + (next - 0xDC00)) :: ·)
      else none
    else if isLowUnit code then none
    else (joinPieces (.unit next :: rest)).map (Char.ofNat code :: ·)

/-- Read a text after its opening quote; the text itself may be missing. -/
def readText (cs : List Char) : Option (Option String × List Char) := do
  let (pieces, rest) ← readPieces cs
  return ((joinPieces pieces).map String.ofList, rest)

/-! ## Numbers -/

/-- A number literal. -/
structure NumberLiteral where
  negative : Bool
  whole : List Nat
  fraction : Option (List Nat)
  exponent : Option Int
deriving DecidableEq, Repr

/-- The decimal digits at the front, and what follows them. -/
def readDigits (cs : List Char) : List Nat × List Char :=
  ((cs.takeWhile Char.isDigit).map fun c => c.toNat - '0'.toNat, cs.dropWhile Char.isDigit)

def ofDigits (digits : List Nat) : Nat :=
  digits.foldl (fun n d => n * 10 + d) 0

def readWhole (cs : List Char) : Option (List Nat × List Char) :=
  match readDigits cs with
  | ([], _) => none
  | (0 :: _ :: _, _) => none
  | (digits, rest) => some (digits, rest)

def readFraction (cs : List Char) : Option (Option (List Nat) × List Char) :=
  match cs with
  | '.' :: rest =>
    match readDigits rest with
    | ([], _) => none
    | (digits, rest) => some (some digits, rest)
  | _ => some (none, cs)

def readExponent (cs : List Char) : Option (Option Int × List Char) :=
  match cs with
  | c :: rest =>
    if c = 'e' ∨ c = 'E' then
      let (negative, rest) := match rest with
        | '-' :: rest => (true, rest)
        | '+' :: rest => (false, rest)
        | rest => (false, rest)
      match readDigits rest with
      | ([], _) => none
      | (digits, rest) =>
        let value : Int := ofDigits digits
        some (some (if negative then -value else value), rest)
    else some (none, cs)
  | [] => some (none, cs)

def readNumber (cs : List Char) : Option (NumberLiteral × List Char) := do
  let (negative, rest) := match cs with
    | '-' :: rest => (true, rest)
    | rest => (false, rest)
  let (whole, rest) ← readWhole rest
  let (fraction, rest) ← readFraction rest
  let (exponent, rest) ← readExponent rest
  return (⟨negative, whole, fraction, exponent⟩, rest)

/-- The value of a literal that is not an integer of 64 bits. -/
def NumberLiteral.floatValue (n : NumberLiteral) : Json :=
  match Double.ofLiteral n.negative n.whole (n.fraction.getD []) (n.exponent.getD 0) with
  | some value => .float value
  | none => .broken

/-- Digits alone make an integer, except for a negative zero. -/
def NumberLiteral.value (n : NumberLiteral) : Json :=
  let magnitude := ofDigits n.whole
  match n.fraction, n.exponent, n.negative with
  | none, none, false => if magnitude < 18446744073709551616 then .int magnitude else n.floatValue
  | none, none, true =>
    if 0 < magnitude ∧ magnitude ≤ 9223372036854775808 then .int (-magnitude) else n.floatValue
  | _, _, _ => n.floatValue

/-! ## Values -/

def isBlank (c : Char) : Bool := c = ' ' || c = '\t' || c = '\n' || c = '\r'

def skipBlanks (cs : List Char) : List Char := cs.dropWhile isBlank

/-- An object with its fields; without one of its names it is broken. -/
def ofNamedFields (fields : List (Option String × Json)) : Json :=
  match fields.mapM fun (name, value) => name.map (·, value) with
  | some fields => .object fields
  | none => .broken

mutual

/-- Read a value that begins with the first character. -/
def readValue : Nat → List Char → Option (Json × List Char)
  | 0, _ => none
  | fuel + 1, cs =>
    match cs with
    | 'n' :: 'u' :: 'l' :: 'l' :: rest => some (.null, rest)
    | 't' :: 'r' :: 'u' :: 'e' :: rest => some (.bool true, rest)
    | 'f' :: 'a' :: 'l' :: 's' :: 'e' :: rest => some (.bool false, rest)
    | '"' :: rest => do
      let (content, rest) ← readText rest
      return (content.elim .broken .text, rest)
    | '[' :: rest =>
      match skipBlanks rest with
      | ']' :: rest => some (.array [], rest)
      | rest => do
        let (items, rest) ← readItems fuel rest
        return (.array items, rest)
    | '{' :: rest =>
      match skipBlanks rest with
      | '}' :: rest => some (.object [], rest)
      | rest => do
        let (fields, rest) ← readFields fuel rest
        return (ofNamedFields fields, rest)
    | cs => do
      let (literal, rest) ← readNumber cs
      return (literal.value, rest)

/-- Read the items of an array up to its closing bracket. -/
def readItems : Nat → List Char → Option (List Json × List Char)
  | 0, _ => none
  | fuel + 1, cs => do
    let (item, rest) ← readValue fuel cs
    match skipBlanks rest with
    | ',' :: rest =>
      let (items, rest) ← readItems fuel (skipBlanks rest)
      return (item :: items, rest)
    | ']' :: rest => return ([item], rest)
    | _ => none

/-- Read the fields of an object up to its closing brace. -/
def readFields : Nat → List Char → Option (List (Option String × Json) × List Char)
  | 0, _ => none
  | fuel + 1, cs =>
    match cs with
    | '"' :: rest => do
      let (name, rest) ← readText rest
      match skipBlanks rest with
      | ':' :: rest =>
        let (value, rest) ← readValue fuel (skipBlanks rest)
        match skipBlanks rest with
        | ',' :: rest =>
          let (fields, rest) ← readFields fuel (skipBlanks rest)
          return ((name, value) :: fields, rest)
        | '}' :: rest => return ([(name, value)], rest)
        | _ => none
      | _ => none
    | _ => none

end

/-- The value that a text consists of. Every second call consumes a character. -/
def parse? (text : String) : Option Json :=
  let cs := text.toList
  match readValue (2 * cs.length + 2) (skipBlanks cs) with
  | some (value, rest) => if (skipBlanks rest).isEmpty then some value else none
  | none => none

end Stencil.Json
