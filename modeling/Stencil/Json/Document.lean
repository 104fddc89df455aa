import Stencil.Json.Reader

/-!
# JSON documents as they are written

The grammar of JSON as a relation between a document and the characters that spell it. A
document keeps what its value loses: every number stands in it as the literal that was
written. Blanks may stand around each value, and each character of a text may be escaped.
-/

namespace Stencil.Json

/-! ## Numbers -/

/-- The characters of decimal digits, at least one. -/
def DigitsSpelled (digits : List Nat) (cs : List Char) : Prop :=
  digits ≠ [] ∧ (∀ d ∈ digits, d < 10) ∧ cs = digits.map Nat.digitChar

inductive FractionSpelled : Option (List Nat) → List Char → Prop where
  | none : FractionSpelled none []
  | some {digits : List Nat} {cs : List Char} :
    DigitsSpelled digits cs → FractionSpelled (some digits) ('.' :: cs)

inductive SignSpelled : Bool → List Char → Prop where
  | none : SignSpelled false []
  | plus : SignSpelled false ['+']
  | minus : SignSpelled true ['-']

inductive ExponentSpelled : Option Int → List Char → Prop where
  | none : ExponentSpelled none []
  | some {mark : Char} {negative : Bool} {sign : List Char} {digits : List Nat} {cs : List Char} :
    mark = 'e' ∨ mark = 'E' → SignSpelled negative sign → DigitsSpelled digits cs →
    ExponentSpelled (some (if negative then -ofDigits digits else ofDigits digits)) (mark :: sign ++ cs)

namespace NumberLiteral

/-- Only a lone zero begins with a zero. -/
def Spelled (n : NumberLiteral) (cs : List Char) : Prop :=
  (n.whole.head? = some 0 → n.whole = [0]) ∧
    ∃ whole fraction exponent, DigitsSpelled n.whole whole ∧ FractionSpelled n.fraction fraction ∧
      ExponentSpelled n.exponent exponent ∧
      cs = (if n.negative then ['-'] else []) ++ whole ++ fraction ++ exponent

/-- The integer that the digits in front stand for. -/
def intValue (n : NumberLiteral) : Int :=
  if n.negative then -ofDigits n.whole else ofDigits n.whole

/-- Neither a fraction nor an exponent is written, and no sign in front of a zero. -/
def IsInteger (n : NumberLiteral) : Prop :=
  n.fraction = none ∧ n.exponent = none ∧ ¬(n.negative ∧ n.intValue = 0)

instance (n : NumberLiteral) : Decidable n.IsInteger :=
  inferInstanceAs (Decidable (_ ∧ _ ∧ ¬(_ ∧ _)))

end NumberLiteral

/-! ## Texts -/

/-- Every character may be written as a unit of four hexadecimal digits, some by a letter
behind a backslash, and all but quotes, backslashes and control characters as they are. -/
inductive PiecesSpelled : List Piece → List Char → Prop where
  | nil : PiecesSpelled [] []
  | char {c : Char} {pieces : List Piece} {cs : List Char} : c ≠ '"' → c ≠ '\\' → 32 ≤ c.toNat →
    PiecesSpelled pieces cs → PiecesSpelled (.char c :: pieces) (c :: cs)
  | escape {mark value : Char} {pieces : List Piece} {cs : List Char} : (mark, value) ∈ escapes →
    PiecesSpelled pieces cs → PiecesSpelled (.char value :: pieces) ('\\' :: mark :: cs)
  | unit {a b c d : Char} {code : Nat} {pieces : List Piece} {cs : List Char} :
    hexUnit? a b c d = some code →
    PiecesSpelled pieces cs → PiecesSpelled (.unit code :: pieces) ('\\' :: 'u' :: a :: b :: c :: d :: cs)

/-- A text in quotes; it has no content if half of a pair of units stands alone in it. -/
def TextSpelled (content : Option String) (cs : List Char) : Prop :=
  ∃ pieces inner, PiecesSpelled pieces inner ∧ (joinPieces pieces).map String.ofList = content ∧
    cs = '"' :: inner ++ ['"']

/-! ## Documents -/

end Json

inductive Document where
  | null
  | bool (value : Bool)
  | number (literal : Json.NumberLiteral)
  | text (content : Option String)
  | array (items : List Document)
  | object (fields : List (Option String × Document))

namespace Document

mutual

/-- The value that the document stands for. -/
def value : Document → Json
  | null => .null
  | bool value => .bool value
  | number literal => literal.value
  | text content => content.elim .broken .text
  | array items => .array (values items)
  | object fields => .ofNamedFields (fieldValues fields)

def values : List Document → List Json
  | [] => []
  | d :: ds => d.value :: values ds

def fieldValues : List (Option String × Document) → List (Option String × Json)
  | [] => []
  | (name, d) :: fields => (name, d.value) :: fieldValues fields

end

def Blank (cs : List Char) : Prop := ∀ c ∈ cs, Json.isBlank c

/-- Blanks may stand in front and behind. -/
def Padded (spelled : List Char → Prop) (cs : List Char) : Prop :=
  ∃ before body after, Blank before ∧ spelled body ∧ Blank after ∧ cs = before ++ body ++ after

mutual

/-- The characters that spell the document, with no blanks around it. -/
def Spelled : Document → List Char → Prop
  | null, cs => cs = "null".toList
  | bool true, cs => cs = "true".toList
  | bool false, cs => cs = "false".toList
  | number literal, cs => literal.Spelled cs
  | text content, cs => Json.TextSpelled content cs
  | array items, cs => ∃ inner, ItemsSpelled items inner ∧ cs = '[' :: inner ++ [']']
  | object fields, cs => ∃ inner, FieldsSpelled fields inner ∧ cs = '{' :: inner ++ ['}']

/-- Items with commas between them. -/
def ItemsSpelled : List Document → List Char → Prop
  | [], cs => Blank cs
  | [d], cs => Padded d.Spelled cs
  | d :: next :: ds, cs =>
    ∃ item rest, Padded d.Spelled item ∧ ItemsSpelled (next :: ds) rest ∧ cs = item ++ ',' :: rest

/-- Names and values with commas between them. -/
def FieldsSpelled : List (Option String × Document) → List Char → Prop
  | [], cs => Blank cs
  | [(name, d)], cs =>
    ∃ key item, Padded (Json.TextSpelled name) key ∧ Padded d.Spelled item ∧ cs = key ++ ':' :: item
  | (name, d) :: next :: fields, cs =>
    ∃ key item rest, Padded (Json.TextSpelled name) key ∧ Padded d.Spelled item ∧
      FieldsSpelled (next :: fields) rest ∧ cs = key ++ ':' :: item ++ ',' :: rest

end

/-- The text consists of the document. -/
def Written (d : Document) (text : String) : Prop := Padded d.Spelled text.toList

end Document

end Stencil
