import Stencil.Proofs.Printing

/-!
# Reading expressions back

The tokens of a printed expression stand for the expression. What has been read of it may
still wait for completion, but completing it gives what the whole expression would.
-/

namespace Stencil.C

/-! ## What is completed -/

theorem collapse_cast (q : Nat) (type : ElementType) (stack : List Frame) (e : Expr) :
    collapse q (.cast type :: stack) e = collapse q stack (.cast type e) :=
  rfl

theorem collapse_operate {q : Nat} {operation : Operation} (h : q ≤ operation.precedence) (left : Expr)
    (stack : List Frame) (e : Expr) :
    collapse q (.operate operation left :: stack) e = collapse q stack (.operate operation left e) :=
  if_pos h

theorem collapse_no (comparison : Comparison) (left right yes : Expr) (stack : List Frame) (e : Expr) :
    collapse 0 (.no comparison left right yes :: stack) e
      = collapse 0 stack (.choose comparison left right yes e) :=
  rfl

/-! ## What waits -/

/-- Nothing on top of the stack is completed at the precedence or above it. -/
def Loose (precedence : Nat) (stack : List Frame) : Prop :=
  ∀ q, precedence ≤ q → q ≤ 2 → ∀ e, collapse q stack e = (stack, e)

/-- Where an operand is expected, the tokens read as the expression for whatever comes next
and does not bind more tightly than the context. -/
def Reads (tokens : List Token) (e : Expr) (context : Nat) : Prop :=
  ∀ stack, Loose context stack →
    ∃ stack' e', tokens.foldlM Reading.step? (.operand stack) = some (.complete stack' e') ∧
      ∀ q ≤ context, collapse q stack' e' = collapse q stack e

theorem Loose.mono {p q : Nat} {stack : List Frame} (h : Loose p stack) (hle : p ≤ q) :
    Loose q stack :=
  fun k hk => h k (hle.trans hk)

theorem loose_nil (p : Nat) : Loose p [] :=
  fun _ _ _ _ => rfl

theorem loose_paren (p : Nat) (stack : List Frame) : Loose p (.paren :: stack) :=
  fun _ _ _ _ => rfl

theorem loose_compare (p : Nat) (comparison : Comparison) (left : Expr) (stack : List Frame) :
    Loose p (.compare comparison left :: stack) :=
  fun _ _ _ _ => rfl

theorem loose_yes (p : Nat) (comparison : Comparison) (left right : Expr) (stack : List Frame) :
    Loose p (.yes comparison left right :: stack) :=
  fun _ _ _ _ => rfl

theorem loose_no (comparison : Comparison) (left right yes : Expr) (stack : List Frame) :
    Loose 1 (.no comparison left right yes :: stack) := by
  intro q hq _ e
  have hpos : q ≠ 0 := by omega
  exact if_neg hpos

theorem loose_operate (operation : Operation) (left : Expr) (stack : List Frame) :
    Loose (operation.precedence + 1) (.operate operation left :: stack) := by
  intro q hq _ e
  have hlt : ¬q ≤ operation.precedence := by omega
  exact if_neg hlt

/-- A cast is completed by any operand. -/
theorem loose_cast (type : ElementType) (stack : List Frame) : Loose 3 (.cast type :: stack) := by
  intro q hq hle
  omega

/-! ## Symbols behind an operand -/

theorem step?_symbol (stack : List Frame) (e : Expr) (symbol : Symbol) :
    Reading.step? (.complete stack e) (.symbol symbol) = Reading.symbol? stack e symbol :=
  rfl

theorem step?_operation (operation : Operation) {stack stack' : List Frame} {e e' : Expr}
    (h : collapse operation.precedence stack e = (stack', e')) :
    Reading.step? (.complete stack e) operation.token
      = some (.operand (.operate operation e' :: stack')) := by
  have hstep : Reading.step? (.complete stack e) operation.token
      = some (.operand (.operate operation (collapse operation.precedence stack e).2 ::
          (collapse operation.precedence stack e).1)) := by
    cases operation <;> rfl
  rw [hstep, h]

theorem step?_comparison (comparison : Comparison) {stack stack' : List Frame} {e e' : Expr}
    (h : collapse 1 stack e = (stack', e')) :
    Reading.step? (.complete stack e) comparison.token
      = some (.operand (.compare comparison e' :: stack')) := by
  have hstep : Reading.step? (.complete stack e) comparison.token
      = some (.operand (.compare comparison (collapse 1 stack e).2 :: (collapse 1 stack e).1)) := by
    cases comparison <;> rfl
  rw [hstep, h]

theorem step?_parenClose {stack stack' : List Frame} {e e' : Expr}
    (h : collapse 0 stack e = (.paren :: stack', e')) :
    Reading.step? (.complete stack e) (.symbol .parenClose) = some (.complete stack' e') := by
  rw [step?_symbol]
  unfold Reading.symbol?
  rw [h]

theorem step?_question {stack stack' : List Frame} {comparison : Comparison} {left e e' : Expr}
    (h : collapse 1 stack e = (.compare comparison left :: stack', e')) :
    Reading.step? (.complete stack e) (.symbol .question)
      = some (.operand (.yes comparison left e' :: stack')) := by
  rw [step?_symbol]
  unfold Reading.symbol?
  rw [h]

theorem step?_colon {stack stack' : List Frame} {comparison : Comparison} {left right e e' : Expr}
    (h : collapse 1 stack e = (.yes comparison left right :: stack', e')) :
    Reading.step? (.complete stack e) (.symbol .colon)
      = some (.operand (.no comparison left right e' :: stack')) := by
  rw [step?_symbol]
  unfold Reading.symbol?
  rw [h]

/-! ## Expressions -/

/-- Tokens that are read as the expression at once. -/
theorem Reads.of_complete {tokens : List Token} {e : Expr}
    (h : ∀ stack, tokens.foldlM Reading.step? (.operand stack) = some (.complete stack e))
    (context : Nat) : Reads tokens e context :=
  fun stack _ => ⟨stack, e, h stack, fun _ _ => rfl⟩

theorem Reads.parens {tokens : List Token} {e : Expr} (h : Reads tokens e 0) (context : Nat) :
    Reads ([Token.symbol .parenOpen] ++ tokens ++ [Token.symbol .parenClose]) e context := by
  refine .of_complete (fun stack => ?_) context
  -- The parenthesis on the stack keeps what waits outside from being completed inside.
  obtain ⟨stack', e', hread, hcollapse⟩ := h (.paren :: stack) (loose_paren 0 stack)
  have hclosed : collapse 0 stack' e' = (.paren :: stack, e) := by
    rw [hcollapse 0 le_rfl, loose_paren 0 stack 0 le_rfl (by decide)]
  have hopen : Reading.step? (.operand stack) (.symbol .parenOpen)
      = some (.operand (.paren :: stack)) := rfl
  simp [hopen, hread, step?_parenClose hclosed]

theorem Reads.operate {operation : Operation} {ts us : List Token} {left right : Expr} {context : Nat}
    (hleft : Reads ts left operation.precedence) (hright : Reads us right (operation.precedence + 1))
    (hle : context ≤ operation.precedence) :
    Reads (ts ++ [operation.token] ++ us) (.operate operation left right) context := by
  intro stack hloose
  have hsmall : operation.precedence ≤ 2 := by cases operation <;> decide
  -- The operator completes the left operand. What completes the right one comes later and
  -- completes the whole operation with it.
  obtain ⟨stack₁, e₁, hread₁, hcollapse₁⟩ := hleft stack (hloose.mono hle)
  have hstep := step?_operation operation
    ((hcollapse₁ _ le_rfl).trans (hloose operation.precedence hle hsmall left))
  obtain ⟨stack₂, e₂, hread₂, hcollapse₂⟩ := hright _ (loose_operate operation left stack)
  refine ⟨stack₂, e₂, by simp [hread₁, hstep, hread₂], fun q hq => ?_⟩
  have hq' : q ≤ operation.precedence := hq.trans hle
  rw [hcollapse₂ q (Nat.le_succ_of_le hq'), collapse_operate hq']

theorem typeOfName?_typeName (type : ElementType) : typeOfName? (typeName type) = some type := by
  cases type <;> decide

theorem Reads.cast {type : ElementType} {tokens : List Token} {operand : Expr} {context : Nat}
    (h : Reads tokens operand 3) (hle : context ≤ 3) :
    Reads ([Token.symbol .parenOpen, .word (typeName type), .symbol .parenClose] ++ tokens)
      (.cast type operand) context := by
  intro stack _
  obtain ⟨stack', e', hread, hcollapse⟩ := h (.cast type :: stack) (loose_cast type stack)
  -- Between parentheses a type cannot be an operand, so these open a cast.
  have hopen : ([.symbol .parenOpen, .word (typeName type), .symbol .parenClose] : List Token).foldlM
      Reading.step? (.operand stack) = some (.operand (.cast type :: stack)) := by
    simp [Reading.step?, Reading.word?, typeOfName?_typeName]
  refine ⟨stack', e', by rw [List.foldlM_append, hopen]; exact hread, fun q hq => ?_⟩
  rw [hcollapse q (hq.trans hle), collapse_cast]

theorem Reads.choose {comparison : Comparison} {ls rs ys ns : List Token} {left right yes no : Expr}
    (hleft : Reads ls left 1) (hright : Reads rs right 1) (hyes : Reads ys yes 1)
    (hno : Reads ns no 1) :
    Reads (ls ++ [comparison.token] ++ rs ++ [Token.symbol .question] ++ ys ++ [Token.symbol .colon] ++ ns)
      (.choose comparison left right yes no) 0 := by
  intro stack hloose
  -- Each part is complete where the next symbol comes, and waits in a frame of its own.
  obtain ⟨stack₁, e₁, hread₁, hcollapse₁⟩ := hleft stack (hloose.mono (by decide))
  have hcompare := step?_comparison comparison
    ((hcollapse₁ 1 le_rfl).trans (hloose 1 (by decide) (by decide) left))
  have hloose₂ := loose_compare 1 comparison left stack
  obtain ⟨stack₂, e₂, hread₂, hcollapse₂⟩ := hright _ hloose₂
  have hquestion := step?_question ((hcollapse₂ 1 le_rfl).trans (hloose₂ 1 le_rfl (by decide) right))
  have hloose₃ := loose_yes 1 comparison left right stack
  obtain ⟨stack₃, e₃, hread₃, hcollapse₃⟩ := hyes _ hloose₃
  have hcolon := step?_colon ((hcollapse₃ 1 le_rfl).trans (hloose₃ 1 le_rfl (by decide) yes))
  obtain ⟨stack₄, e₄, hread₄, hcollapse₄⟩ := hno _ (loose_no comparison left right yes stack)
  refine ⟨stack₄, e₄, by simp [hread₁, hcompare, hread₂, hquestion, hread₃, hcolon, hread₄],
    fun q hq => ?_⟩
  obtain rfl : q = 0 := by omega
  rw [hcollapse₄ 0 (by decide), collapse_no]

theorem reads_integer (value : Int) (context : Nat) :
    Reads (integerTokens value) (.int value) context := by
  refine .of_complete (fun stack => ?_) context
  unfold integerTokens
  split
  next hneg =>
    have habs : -(value.natAbs : Int) = value := by omega
    change some (Reading.complete stack (.int (-(value.natAbs : Int)))) = _
    rw [habs]
  next hpos =>
    have habs : (value.natAbs : Int) = value := by omega
    change some (Reading.complete stack (.int (value.natAbs : Int))) = _
    rw [habs]

theorem isReserved_of_isVariable {name : String} (h : isVariable name) : isReserved name = false := by
  simpa using (Bool.and_eq_true_iff.1 h).2

theorem typeOfName?_of_isVariable {name : String} (h : isVariable name) : typeOfName? name = none := by
  have hreserved := isReserved_of_isVariable h
  rw [isReserved, Bool.or_eq_false_iff] at hreserved
  simpa using hreserved.1

theorem Reading.word?_of_isVariable {name : String} (h : isVariable name) (stack : List Frame) :
    word? stack name = some (.complete stack (.read ⟨name, []⟩)) := by
  unfold word?
  rw [typeOfName?_of_isVariable h, isReserved_of_isVariable h]
  cases stack with
  | nil => rfl
  | cons frame stack => cases frame <;> rfl

/-- Subscripts are added to the place read so far. -/
theorem foldlM_subscripts (subscripts : List Subscript) (stack : List Frame) (p : Place) :
    (subscripts.flatMap Subscript.tokens).foldlM Reading.step? (.complete stack (.read p))
      = some (.complete stack (.read ⟨p.name, p.subscripts ++ subscripts⟩)) := by
  induction subscripts generalizing p with
  | nil => simp
  | cons s subscripts ih =>
    have hone : s.tokens.foldlM Reading.step? (.complete stack (.read p))
        = some (.complete stack (.read (p.subscript s))) := by
      cases s <;> rfl
    rw [List.flatMap_cons, List.foldlM_append, hone]
    exact (ih (p.subscript s)).trans (by simp [Place.subscript])

theorem reads_place {p : Place} (h : p.isReadable) (context : Nat) :
    Reads p.tokens (.read p) context := by
  refine .of_complete (fun stack => ?_) context
  have hname := (Bool.and_eq_true_iff.1 h).1
  have hword : Reading.step? (.operand stack) (.word p.name)
      = some (.complete stack (.read ⟨p.name, []⟩)) :=
    Reading.word?_of_isVariable hname stack
  rw [Place.tokens, List.foldlM_cons, hword]
  exact foldlM_subscripts p.subscripts stack ⟨p.name, []⟩

/-- The tokens of an expression whose context asks for parentheses or not. -/
theorem reads_parens {tokens : List Token} {e : Expr}
    (h : ∀ context ≤ e.precedence, Reads tokens e context) (context : Nat) :
    Reads (if e.precedence < context then [Token.symbol .parenOpen] ++ tokens ++ [Token.symbol .parenClose]
      else tokens) e context := by
  split
  next => exact (h 0 (Nat.zero_le _)).parens context
  next hle => exact h context (Nat.le_of_not_lt hle)

theorem reads_tokens {e : Expr} (h : e.isReadable) (context : Nat) :
    Reads (e.tokens context) e context := by
  -- In every case the parts were printed for the contexts in which they are read.
  induction e generalizing context with
  | int value => exact reads_parens (fun context _ => reads_integer value context) context
  | float value => cases h
  | read place => exact reads_parens (fun context _ => reads_place h context) context
  | cast type operand ih => exact reads_parens (fun context hle => (ih h 3).cast hle) context
  | operate operation left right ihl ihr =>
    obtain ⟨hl, hr⟩ := Bool.and_eq_true_iff.1 h
    exact reads_parens (fun context hle => (ihl hl _).operate (ihr hr _) hle) context
  | choose comparison left right yes no ihl ihr ihy ihn =>
    simp only [Expr.isReadable, Bool.and_eq_true] at h
    obtain ⟨⟨⟨hl, hr⟩, hy⟩, hn⟩ := h
    refine reads_parens (fun context hle => ?_) context
    obtain rfl : context = 0 := Nat.le_zero.1 hle
    exact (ihl hl 1).choose (ihr hr 1) (ihy hy 1) (ihn hn 1)

theorem Expr.ofTokens?_tokens {e : Expr} (h : e.isReadable) : ofTokens? (e.tokens 0) = some e := by
  obtain ⟨stack, e', hread, hcollapse⟩ := reads_tokens h 0 [] (loose_nil 0)
  have hdone : collapse 0 stack e' = ([], e) := by
    rw [hcollapse 0 le_rfl, loose_nil 0 0 le_rfl (by decide)]
  simp [ofTokens?, hread, hdone]

end Stencil.C
