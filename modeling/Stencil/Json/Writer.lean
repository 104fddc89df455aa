import Stencil.Json.Value

/-!
# Writing JSON text

The compact form of a value. A float is written by its shortest decimal, and one that
is not a number, like anything broken, as `null`.
-/

namespace Stencil.Json

/-- A character of a text literal. -/
def encodeChar (c : Char) : List Char :=
  match c with
  | '"' => ['\\', '"']
  | '\\' => ['\\', '\\']
  | '\n' => ['\\', 'n']
  | '\r' => ['\\', 'r']
  | '\t' => ['\\', 't']
  | '\x08' => ['\\', 'b']
  | '\x0c' => ['\\', 'f']
  | _ =>
    if c.toNat < 32 then
      ['\\', 'u', '0', '0', Nat.digitChar (c.toNat / 16), Nat.digitChar (c.toNat % 16)]
    else [c]

def encodeText (text : List Char) : List Char :=
  '"' :: text.flatMap encodeChar ++ ['"']

def encodeInt (i : Int) : List Char := (toString i).toList

mutual

def encode : Json → List Char
  | null => "null".toList
  | bool true => "true".toList
  | bool false => "false".toList
  | int value => encodeInt value
  | float value => if value.isFinite then (value.render .document).toList else "null".toList
  | text value => encodeText value.toList
  | array items => '[' :: encodeItems items ++ [']']
  | object fields => '{' :: encodeFields fields ++ ['}']
  | broken => "null".toList

def encodeItems : List Json → List Char
  | [] => []
  | [v] => v.encode
  | v :: vs => v.encode ++ ',' :: encodeItems vs

def encodeFields : List (String × Json) → List Char
  | [] => []
  | [(name, v)] => encodeText name.toList ++ ':' :: v.encode
  | (name, v) :: fields =>
    encodeText name.toList ++ ':' :: v.encode ++ ',' :: encodeFields fields

end

def render (v : Json) : String := String.ofList v.encode

end Stencil.Json
