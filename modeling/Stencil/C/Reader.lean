import Stencil.C.Meaning
import Stencil.C.Token

/-!
# Reading loop nests

The loop nest that C text stands for. An expression is read token by token, with a stack of
what waits for its last operand; an operand joins what binds it more tightly than the next
operator does. Text that is not of the emitted form is not read at all.
-/

namespace Stencil.C

def typeOfName? (text : String) : Option ElementType := ElementType.all.find? (typeName · = text)

/-- Whether a word has a meaning of its own, and so names no variable. -/
def isReserved (text : String) : Bool :=
  (typeOfName? text).isSome || ["uint32_t", "for", "if", "continue"].contains text

/-! ## Expressions -/

/-- What is still to be completed by an operand. -/
inductive Frame where
  | paren
  | cast (type : ElementType)
  | operate (operation : Operation) (left : Expr)
  | compare (comparison : Comparison) (left : Expr)
  | yes (comparison : Comparison) (left right : Expr)
  | no (comparison : Comparison) (left right yes : Expr)
deriving DecidableEq, Repr

/-- Complete everything that binds at least as tightly as asked. -/
def collapse (precedence : Nat) : List Frame → Expr → List Frame × Expr
  | .cast type :: stack, e => collapse precedence stack (.cast type e)
  | .operate operation left :: stack, e =>
    if precedence ≤ operation.precedence then
      collapse precedence stack (.operate operation left e)
    else (.operate operation left :: stack, e)
  | .no comparison left right yes :: stack, e =>
    if precedence = 0 then collapse precedence stack (.choose comparison left right yes e)
    else (.no comparison left right yes :: stack, e)
  | stack, e => (stack, e)

/-- How far an expression has been read. -/
inductive Reading where
  /-- An operand comes next. -/
  | operand (stack : List Frame)
  /-- The parenthesis behind the type of a cast comes next. -/
  | cast (stack : List Frame) (type : ElementType)
  /-- A number to be negated comes next. -/
  | minus (stack : List Frame)
  /-- An operand has been read. -/
  | complete (stack : List Frame) (e : Expr)
  /-- A subscript comes next. -/
  | subscript (stack : List Frame) (place : Place)
  /-- The bracket behind a subscript comes next. -/
  | subscripted (stack : List Frame) (place : Place)
deriving DecidableEq, Repr

def Symbol.operation? : Symbol → Option Operation
  | plus => some .add
  | minus => some .sub
  | times => some .mul
  | divide => some .div
  | _ => none

def Symbol.comparison? : Symbol → Option Comparison
  | less => some .less
  | greater => some .greater
  | _ => none

def Place.subscript (p : Place) (s : Subscript) : Place :=
  { p with subscripts := p.subscripts ++ [s] }

namespace Reading

/-- A word where an operand is expected: a variable, or the type of a cast. -/
def word? (stack : List Frame) (text : String) : Option Reading :=
  match stack, typeOfName? text with
  | .paren :: stack, some type => some (.cast stack type)
  | _, _ => if isReserved text then none else some (.complete stack (.read ⟨text, []⟩))

/-- A symbol behind an operand. -/
def symbol? (stack : List Frame) (e : Expr) (symbol : Symbol) : Option Reading :=
  match symbol with
  | .parenClose =>
    match collapse 0 stack e with
    | (.paren :: rest, e) => some (.complete rest e)
    | _ => none
  | .question =>
    match collapse 1 stack e with
    | (.compare comparison left :: rest, e) => some (.operand (.yes comparison left e :: rest))
    | _ => none
  | .colon =>
    match collapse 1 stack e with
    | (.yes comparison left right :: rest, e) =>
      some (.operand (.no comparison left right e :: rest))
    | _ => none
  | .bracketOpen =>
    match e with
    | .read place => some (.subscript stack place)
    | _ => none
  | symbol =>
    match symbol.operation?, symbol.comparison? with
    | some operation, _ =>
      let (stack, e) := collapse operation.precedence stack e
      some (.operand (.operate operation e :: stack))
    | none, some comparison =>
      let (stack, e) := collapse 1 stack e
      some (.operand (.compare comparison e :: stack))
    | none, none => none

def step? : Reading → Token → Option Reading
  | .operand stack, .number value => some (.complete stack (.int value))
  | .operand stack, .symbol .minus => some (.minus stack)
  | .operand stack, .symbol .parenOpen => some (.operand (.paren :: stack))
  | .operand stack, .word text => word? stack text
  | .cast stack type, .symbol .parenClose => some (.operand (.cast type :: stack))
  | .minus stack, .number value => some (.complete stack (.int (-value)))
  | .subscript stack place, .word text => some (.subscripted stack (place.subscript (.var text)))
  | .subscript stack place, .number value =>
    some (.subscripted stack (place.subscript (.number value)))
  | .subscripted stack place, .symbol .bracketClose => some (.complete stack (.read place))
  | .complete stack e, .symbol symbol => symbol? stack e symbol
  | _, _ => none

end Reading

/-- The expression that tokens stand for. -/
def Expr.ofTokens? (tokens : List Token) : Option Expr := do
  match ← tokens.foldlM Reading.step? (.operand []) with
  | .complete stack e =>
    match collapse 0 stack e with
    | ([], e) => some e
    | _ => none
  | _ => none

/-! ## Statements -/

/-- The subscripts at the front, and what follows them. -/
def takeSubscripts : List Token → List Subscript × List Token
  | .symbol .bracketOpen :: .word text :: .symbol .bracketClose :: rest =>
    let (subscripts, rest) := takeSubscripts rest
    (.var text :: subscripts, rest)
  | .symbol .bracketOpen :: .number value :: .symbol .bracketClose :: rest =>
    let (subscripts, rest) := takeSubscripts rest
    (.number value :: subscripts, rest)
  | rest => ([], rest)

/-- The expression in front of a semicolon that ends the tokens. -/
def Expr.beforeSemicolon? (tokens : List Token) : Option Expr :=
  if tokens.getLast? = some (.symbol .semicolon) then Expr.ofTokens? tokens.dropLast else none

/-- The statement that begins with a word. -/
def Stmt.ofTokens? (first : String) (rest : List Token) : Option Stmt :=
  match typeOfName? first, rest with
  | some type, .word name :: .symbol .assign :: value =>
    (Expr.beforeSemicolon? value).map (.declare type name)
  | some _, _ => none
  | none, rest =>
    let (subscripts, rest) := takeSubscripts rest
    match rest with
    | .symbol .assign :: value => (Expr.beforeSemicolon? value).map (.assign ⟨first, subscripts⟩)
    | .symbol .addAssign :: value => (Expr.beforeSemicolon? value).map (.addTo ⟨first, subscripts⟩)
    | _ => none

/-! ## Loops -/

def Token.word? : Token → Option String
  | word text => some text
  | _ => none

def Token.number? : Token → Option Nat
  | number value => some value
  | _ => none

/-- An integer, with a sign if it is negative. -/
def integerTokens (value : Int) : List Token :=
  if value < 0 then [.symbol .minus, .number value.natAbs] else [.number value.natAbs]

/-- What a header says of the follower before the condition. -/
def Follower.startTokens (f : Follower) : List Token :=
  [.symbol .comma, .word f.name, .symbol .assign] ++ integerTokens f.start

/-- What a header says of the follower behind the counter's step. -/
def Follower.stepTokens (f : Follower) : List Token :=
  [.symbol .comma, .word f.name, .symbol .addAssign, .number f.step]

/-- The header of a loop up to the brace that opens its body. -/
def Loop.headerTokens (l : Loop) : List Token :=
  [.word "for", .symbol .parenOpen, .word l.type.name, .word l.counter, .symbol .assign, .number 0]
    ++ l.follower.elim [] Follower.startTokens
    ++ [.symbol .semicolon, .word l.counter, .symbol .less, .number l.bound, .symbol .semicolon,
      .word l.counter, .symbol .increment]
    ++ l.follower.elim [] Follower.stepTokens
    ++ [.symbol .parenClose, .symbol .braceOpen]

/-- The condition that skips what is not an index below a size. -/
def skipTokens (name : String) (size : Nat) : List Token :=
  [.word "if", .symbol .parenOpen, .word name, .symbol .less, .number 0, .symbol .or, .word name,
    .symbol .notLess, .number size, .symbol .parenClose, .word "continue", .symbol .semicolon]

def CounterType.ofName? (text : String) : Option CounterType :=
  [int32, uint32].find? (·.name = text)

/-- The loop whose header the tokens are: its names and numbers determine it. -/
def Loop.ofTokens? (tokens : List Token) : Option Loop := do
  let loop ← match tokens.filterMap Token.word?, tokens.filterMap Token.number? with
    | [_, type, counter, _, _], [_, bound] => do
      some { type := ← CounterType.ofName? type, counter, bound }
    | [_, type, counter, name, _, _, _], [_, start, bound, step] => do
      let negative := tokens.contains (.symbol .minus)
      let follower := ⟨name, if negative then -start else start, step⟩
      some { type := ← CounterType.ofName? type, counter, bound, follower := some follower }
    | _, _ => none
  if loop.headerTokens = tokens then some loop else none

/-! ## Clauses -/

/-- A part of the text that ends with a semicolon or a brace. -/
inductive Clause where
  | enter (l : Loop)
  | skip (name : String) (size : Nat)
  | stmt (s : Stmt)
  | leave
deriving DecidableEq, Repr

def Clause.skip? (tokens : List Token) : Option Clause :=
  match tokens.filterMap Token.word?, tokens.filterMap Token.number? with
  | [_, name, _, _], [_, size] => if skipTokens name size = tokens then some (.skip name size) else none
  | _, _ => none

def Clause.ofTokens? (tokens : List Token) : Option Clause :=
  match tokens with
  | [.symbol .braceClose] => some .leave
  | .word first :: rest =>
    if first = "for" then (Loop.ofTokens? tokens).map .enter
    else if first = "if" then Clause.skip? tokens
    else (Stmt.ofTokens? first rest).map .stmt
  | _ => none

/-- The nesting of parentheses behind a token. -/
def Token.shift (depth : Nat) : Token → Nat
  | symbol .parenOpen => depth + 1
  | symbol .parenClose => depth - 1
  | _ => depth

/-- Whether a token outside all parentheses ends a clause. -/
def Token.isEnd : Token → Bool
  | symbol .semicolon | symbol .braceOpen | symbol .braceClose => true
  | _ => false

/-- Cut tokens into clauses. -/
def splitClauses (depth : Nat) : List Token → List (List Token)
  | [] => []
  | t :: rest =>
    if depth = 0 ∧ t.isEnd then [t] :: splitClauses 0 rest
    else
      match splitClauses (t.shift depth) rest with
      | [] => [[t]]
      | clause :: clauses => (t :: clause) :: clauses

/-! ## Nests -/

/-- The loop with the guard that a sum and the condition on it make. -/
def Loop.guardBy? (l : Loop) (sum : Stmt) (name : String) (size : Nat) : Option Loop :=
  match sum with
  | .declare .int32 summed (.operate .add (.read ⟨left, []⟩) (.read ⟨right, []⟩)) =>
    if summed = name then some { l with guard := some ⟨name, left, right, size⟩ } else none
  | _ => none

/-- The loops at the front with their guards, and what follows them. -/
def takeLoops : List Clause → List Loop × List Clause
  | .enter l :: .stmt sum :: .skip name size :: rest =>
    match l.guardBy? sum name size with
    | some l =>
      let (loops, rest) := takeLoops rest
      (l :: loops, rest)
    | none => ([], .enter l :: .stmt sum :: .skip name size :: rest)
  | .enter l :: rest =>
    let (loops, rest) := takeLoops rest
    (l :: loops, rest)
  | rest => ([], rest)

/-- The statements at the front, and what follows them. -/
def takeStmts : List Clause → List Stmt × List Clause
  | .stmt s :: rest =>
    let (stmts, rest) := takeStmts rest
    (s :: stmts, rest)
  | rest => ([], rest)

/-- What follows the ends of so many loops. -/
def dropLeaves? : Nat → List Clause → Option (List Clause)
  | 0, rest => some rest
  | count + 1, .leave :: rest => dropLeaves? count rest
  | _, _ => none

def Nest.ofClauses? (clauses : List Clause) : Option (Nest (List Stmt)) := do
  let (outer, rest) := takeLoops clauses
  let (before, rest) := takeStmts rest
  let (inner, rest) := takeLoops rest
  let (each, rest) := takeStmts rest
  let rest ← dropLeaves? inner.length rest
  let (after, rest) := takeStmts rest
  let rest ← dropLeaves? outer.length rest
  if rest.isEmpty then some ⟨outer, before, inner, each, after⟩ else none

/-- The nest that C text stands for. -/
def Nest.ofText? (text : String) : Option (Nest (List Stmt)) := do
  let clauses ← (splitClauses 0 (← tokens? text.toList)).mapM Clause.ofTokens?
  Nest.ofClauses? clauses

end Stencil.C
