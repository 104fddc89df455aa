import Stencil.Proofs.Tokens
import Stencil.Routine.Body

/-!
# Tokens of expressions and statements

What is printed of an expression, a statement or a loop header, token by token.
-/

namespace Stencil.C

/-! ## Places -/

theorem isName_of_isVariable {name : String} (h : isVariable name) : isName name :=
  (Bool.and_eq_true_iff.1 h).1

theorem isName_typeName (type : ElementType) : isName (typeName type) := by
  cases type <;> decide

def Subscript.isReadable : Subscript → Bool
  | var name => isVariable name
  | number _ => true

def Subscript.token : Subscript → Token
  | var name => .word name
  | number value => .number value

def Subscript.tokens (s : Subscript) : List Token :=
  [.symbol .bracketOpen, s.token, .symbol .bracketClose]

def Place.isReadable (p : Place) : Bool := isVariable p.name && p.subscripts.all (·.isReadable)

def Place.tokens (p : Place) : List Token := .word p.name :: p.subscripts.flatMap Subscript.tokens

theorem Subscript.lexes_render {s : Subscript} (h : s.isReadable) : Lexes s.render [s.token] := by
  cases s with
  | var name => exact lexes_name (isName_of_isVariable h)
  | number value => exact lexes_number value

theorem Subscript.lexes_bracketed {s : Subscript} (h : s.isReadable) :
    Lexes ("[" ++ s.render ++ "]") s.tokens := by
  have hopen : Separates "[" [.symbol .bracketOpen] := ⟨rfl, rfl, rfl⟩
  have hclose : Separates "]" [.symbol .bracketClose] := ⟨rfl, rfl, rfl⟩
  exact (hopen.append (lexes_render h)).before hclose

theorem lexes_subscripts {subscripts : List Subscript} (h : ∀ s ∈ subscripts, s.isReadable) :
    Lexes (String.join (subscripts.map fun s => "[" ++ s.render ++ "]"))
      (subscripts.flatMap Subscript.tokens) := by
  induction subscripts with
  | nil => exact rfl
  | cons s subscripts ih =>
    rw [List.map_cons, String.join_cons, List.flatMap_cons]
    have hclose : Separates "]" [.symbol .bracketClose] := ⟨rfl, rfl, rfl⟩
    exact (Subscript.lexes_bracketed (h s List.mem_cons_self)).append
      (ih fun s hs => h s (List.mem_cons_of_mem _ hs)) (hclose.apart_right _ _)

/-- Subscripts behind anything else. -/
theorem Lexes.subscripts {text : String} {tokens : List Token} (htext : Lexes text tokens)
    {subscripts : List Subscript} (h : ∀ s ∈ subscripts, s.isReadable) :
    Lexes (text ++ String.join (subscripts.map fun s => "[" ++ s.render ++ "]"))
      (tokens ++ subscripts.flatMap Subscript.tokens) := by
  refine htext.append (lexes_subscripts h) ?_
  cases subscripts with
  | nil => exact fun _ _ _ hy => nomatch hy
  | cons s subscripts =>
    have hopen : Separates "[" [.symbol .bracketOpen] := ⟨rfl, rfl, rfl⟩
    rw [List.map_cons, String.join_cons, String.append_assoc, String.append_assoc]
    exact hopen.apart_left _ _

theorem Place.lexes_render {p : Place} (h : p.isReadable) : Lexes p.render p.tokens := by
  obtain ⟨hname, hsubscripts⟩ := Bool.and_eq_true_iff.1 h
  rw [List.all_eq_true] at hsubscripts
  exact (lexes_name (isName_of_isVariable hname)).subscripts hsubscripts

/-! ## Expressions -/

def Operation.token : Operation → Token
  | add => .symbol .plus
  | sub => .symbol .minus
  | mul => .symbol .times
  | div => .symbol .divide

def Comparison.token : Comparison → Token
  | less => .symbol .less
  | greater => .symbol .greater

namespace Expr

/-- An expression over integers whose variables can be read back. -/
def isReadable : Expr → Bool
  | int _ => true
  | float _ => false
  | read place => place.isReadable
  | cast _ operand => operand.isReadable
  | operate _ left right => left.isReadable && right.isReadable
  | choose _ left right yes no =>
    left.isReadable && right.isReadable && yes.isReadable && no.isReadable

/-- The tokens, in parentheses unless the expression binds as tightly as the context asks. -/
def tokens (e : Expr) (context : Nat) : List Token :=
  let inner := match e with
    | int value => integerTokens value
    | float _ => []
    | read place => place.tokens
    | cast type operand =>
      [.symbol .parenOpen, .word (typeName type), .symbol .parenClose] ++ operand.tokens 3
    | operate operation left right =>
      left.tokens operation.precedence ++ [operation.token] ++ right.tokens (operation.precedence + 1)
    | choose comparison left right yes no =>
      left.tokens 1 ++ [comparison.token] ++ right.tokens 1 ++ [.symbol .question] ++ yes.tokens 1
        ++ [.symbol .colon] ++ no.tokens 1
  if e.precedence < context then [.symbol .parenOpen] ++ inner ++ [.symbol .parenClose] else inner

theorem separates_operation (operation : Operation) :
    Separates (" " ++ operation.symbol ++ " ") [operation.token] := by
  cases operation <;> exact ⟨rfl, rfl, rfl⟩

theorem separates_comparison (comparison : Comparison) :
    Separates (" " ++ comparison.symbol ++ " ") [comparison.token] := by
  cases comparison <;> exact ⟨rfl, rfl, rfl⟩

theorem lexes_inParens {text : String} {ts : List Token} (h : Lexes text ts) :
    Lexes ("(" ++ text ++ ")") ([Token.symbol .parenOpen] ++ ts ++ [Token.symbol .parenClose]) := by
  have hopen : Separates "(" [.symbol .parenOpen] := ⟨rfl, rfl, rfl⟩
  have hclose : Separates ")" [.symbol .parenClose] := ⟨rfl, rfl, rfl⟩
  exact (hopen.append h).before hclose

theorem lexes_parens {text : String} {ts : List Token} (h : Lexes text ts) (parens : Prop)
    [Decidable parens] :
    Lexes (if parens then "(" ++ text ++ ")" else text)
      (if parens then [Token.symbol .parenOpen] ++ ts ++ [Token.symbol .parenClose] else ts) := by
  split
  next => exact lexes_inParens h
  next => exact h

theorem lexes_render {e : Expr} (h : e.isReadable) (context : Nat) :
    Lexes (e.render context) (e.tokens context) := by
  induction e generalizing context with
  | int value => exact lexes_parens (lexes_integer value) _
  | float value => cases h
  | read place => exact lexes_parens (place.lexes_render h) _
  | cast type operand ih =>
    have htype := lexes_inParens (lexes_name (isName_typeName type))
    have hclose : Separates ")" [.symbol .parenClose] := ⟨rfl, rfl, rfl⟩
    exact lexes_parens (htype.append (ih h 3) (hclose.apart_right _ _)) _
  | operate operation left right ihl ihr =>
    obtain ⟨hl, hr⟩ := Bool.and_eq_true_iff.1 h
    have htext := (ihl hl operation.precedence).around (separates_operation operation)
      (ihr hr (operation.precedence + 1))
    exact lexes_parens (by simpa only [String.append_assoc] using htext) _
  | choose comparison left right yes no ihl ihr ihy ihn =>
    simp only [isReadable, Bool.and_eq_true] at h
    obtain ⟨⟨⟨hl, hr⟩, hy⟩, hn⟩ := h
    have hquestion : Separates " ? " [.symbol .question] := ⟨rfl, rfl, rfl⟩
    have hcolon : Separates " : " [.symbol .colon] := ⟨rfl, rfl, rfl⟩
    have hcondition := (ihl hl 1).around (separates_comparison comparison) (ihr hr 1)
    have htext := (hcondition.around hquestion (ihy hy 1)).around hcolon (ihn hn 1)
    exact lexes_parens (by simpa only [String.append_assoc] using htext) _

end Expr

/-! ## Statements -/

namespace Stmt

def isReadable : Stmt → Bool
  | declare _ name value => isVariable name && value.isReadable
  | assign target value | addTo target value => target.isReadable && value.isReadable

def tokens : Stmt → List Token
  | declare type name value =>
    [.word (typeName type), .word name, .symbol .assign] ++ value.tokens 0 ++ [.symbol .semicolon]
  | assign target value =>
    target.tokens ++ [.symbol .assign] ++ value.tokens 0 ++ [.symbol .semicolon]
  | addTo target value =>
    target.tokens ++ [.symbol .addAssign] ++ value.tokens 0 ++ [.symbol .semicolon]

theorem lexes_render {s : Stmt} (h : s.isReadable) : Lexes s.render s.tokens := by
  have hblank : Separates " " [] := ⟨rfl, rfl, rfl⟩
  have hassign : Separates " = " [.symbol .assign] := ⟨rfl, rfl, rfl⟩
  have haddAssign : Separates " += " [.symbol .addAssign] := ⟨rfl, rfl, rfl⟩
  have hend : Separates ";" [.symbol .semicolon] := ⟨rfl, rfl, rfl⟩
  cases s with
  | declare type name value =>
    obtain ⟨hname, hvalue⟩ := Bool.and_eq_true_iff.1 h
    have htarget := (lexes_name (isName_typeName type)).around hblank
      (lexes_name (isName_of_isVariable hname))
    exact (htarget.around hassign (Expr.lexes_render hvalue 0)).before hend
  | assign target value =>
    obtain ⟨htarget, hvalue⟩ := Bool.and_eq_true_iff.1 h
    exact ((Place.lexes_render htarget).around hassign (Expr.lexes_render hvalue 0)).before hend
  | addTo target value =>
    obtain ⟨htarget, hvalue⟩ := Bool.and_eq_true_iff.1 h
    exact ((Place.lexes_render htarget).around haddAssign (Expr.lexes_render hvalue 0)).before hend

end Stmt

/-! ## Headers and conditions -/

theorem isName_name (type : CounterType) : isName type.name := by
  cases type <;> decide

/-- A counter and the operator behind it do not join. -/
theorem lexes_increment {name : String} (h : isName name) :
    Lexes (name ++ "++") [.word name, .symbol .increment] := by
  have hincrement : Lexes "++" [.symbol .increment] := rfl
  refine (lexes_name h).append hincrement fun x hx y hy => joins_of_isNameChar_ne ?_
  obtain rfl : '+' = y := by simpa using hy
  rw [isNameChar_of_mem h x (List.mem_of_mem_getLast? hx)]
  decide

/-- What a header says of a follower before the condition. -/
def Follower.startText (f : Follower) : String := ", " ++ f.name ++ " = " ++ toString f.start

/-- What a header says of a follower behind the counter's step. -/
def Follower.stepText (f : Follower) : String := ", " ++ f.name ++ " += " ++ toString f.step

theorem Loop.header_eq (l : Loop) :
    l.header = "for (" ++ l.type.name ++ " " ++ l.counter ++ " = 0"
      ++ l.follower.elim "" Follower.startText ++ "; " ++ l.counter ++ " < " ++ toString l.bound
      ++ "; " ++ l.counter ++ "++" ++ l.follower.elim "" Follower.stepText ++ ")" := by
  unfold header
  cases l.follower with
  | none => rfl
  | some f => rfl

/-- A part of a header that begins with a comma. -/
theorem lexes_listed {name operator value : String} {us vs : List Token} (hname : isName name)
    (hoperator : Separates operator us) (hvalue : Lexes value vs) :
    Lexes (", " ++ name ++ operator ++ value) ([Token.symbol .comma] ++ [Token.word name] ++ us ++ vs) ∧
      ∀ a, Apart a (", " ++ name ++ operator ++ value) := by
  have hcomma : Separates ", " [.symbol .comma] := ⟨rfl, rfl, rfl⟩
  refine ⟨(hcomma.append (lexes_name hname)).around hoperator hvalue, fun a => ?_⟩
  rw [String.append_assoc, String.append_assoc]
  exact hcomma.apart_left a _

theorem lexes_start {follower : Option Follower} (h : ∀ f ∈ follower, isName f.name) :
    Lexes (follower.elim "" Follower.startText) (follower.elim [] Follower.startTokens) ∧
      ∀ a, Apart a (follower.elim "" Follower.startText) := by
  cases follower with
  | none => exact ⟨rfl, fun _ _ _ _ hy => nomatch hy⟩
  | some f =>
    have hassign : Separates " = " [.symbol .assign] := ⟨rfl, rfl, rfl⟩
    exact lexes_listed (h f rfl) hassign (lexes_integer f.start)

theorem lexes_step {follower : Option Follower} (h : ∀ f ∈ follower, isName f.name) :
    Lexes (follower.elim "" Follower.stepText) (follower.elim [] Follower.stepTokens) ∧
      ∀ a, Apart a (follower.elim "" Follower.stepText) := by
  cases follower with
  | none => exact ⟨rfl, fun _ _ _ _ hy => nomatch hy⟩
  | some f =>
    have haddAssign : Separates " += " [.symbol .addAssign] := ⟨rfl, rfl, rfl⟩
    exact lexes_listed (h f rfl) haddAssign (lexes_number f.step)

theorem Loop.lexes_header {l : Loop} (hcounter : isName l.counter)
    (hfollower : ∀ f ∈ l.follower, isName f.name) : Lexes (l.header ++ " \x7b") l.headerTokens := by
  have hfor : Lexes "for (" [.word "for", .symbol .parenOpen] := rfl
  have hblank : Separates " " [] := ⟨rfl, rfl, rfl⟩
  have hzero : Lexes " = 0" [.symbol .assign, .number 0] := rfl
  have hsemicolon : Separates "; " [.symbol .semicolon] := ⟨rfl, rfl, rfl⟩
  have hless : Separates " < " [.symbol .less] := ⟨rfl, rfl, rfl⟩
  have hbrace : Separates ") \x7b" [.symbol .parenClose, .symbol .braceOpen] := ⟨rfl, rfl, rfl⟩
  obtain ⟨hstart, hstartApart⟩ := lexes_start hfollower
  obtain ⟨hstep, hstepApart⟩ := lexes_step hfollower
  have htype := hfor.append (lexes_name (isName_name l.type)) (apart_of_getLast rfl _)
  have hdeclared := htype.around hblank (lexes_name hcounter)
  have hstarted := (hdeclared.append hzero (apart_of_head rfl _)).append hstart (hstartApart _)
  have hbounded := (hstarted.around hsemicolon (lexes_name hcounter)).around hless
    (lexes_number l.bound)
  have hstepped := hbounded.around hsemicolon (lexes_increment hcounter)
  have hheader := (hstepped.append hstep (hstepApart _)).before hbrace
  have htext : ") \x7b" = ")" ++ " \x7b" := rfl
  rw [htext, ← String.append_assoc, ← String.append_assoc] at hheader
  rw [header_eq, headerTokens]
  simpa using hheader

theorem lexes_skip {name : String} (h : isName name) (size : Nat) :
    Lexes ("if (" ++ name ++ " < 0 || " ++ name ++ " >= " ++ toString size ++ ") continue;")
      (skipTokens name size) := by
  have hif : Lexes "if (" [.word "if", .symbol .parenOpen] := rfl
  have hor : Separates " < 0 || " [.symbol .less, .number 0, .symbol .or] := ⟨rfl, rfl, rfl⟩
  have hnotLess : Separates " >= " [.symbol .notLess] := ⟨rfl, rfl, rfl⟩
  have hcontinue :
      Separates ") continue;" [.symbol .parenClose, .word "continue", .symbol .semicolon] :=
    ⟨rfl, rfl, rfl⟩
  have hname := lexes_name h
  have hlow := (hif.append hname (apart_of_getLast rfl name)).around hor hname
  exact (hlow.around hnotLess (lexes_number size)).before hcontinue

end Stencil.C
