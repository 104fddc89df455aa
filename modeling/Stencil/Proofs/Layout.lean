import Stencil.Proofs.Clauses

/-!
# Printed nests

A nest is printed one clause to a line, and indentation separates tokens without being one.
The text is cut into clauses again at the braces and semicolons outside all parentheses, and so
stands for the nest.
-/

namespace Stencil.C

/-! ## Listings that grow by clauses -/

/-- A listing has grown by the tokens of readable clauses, and nothing joins what follows. -/
def Writes (clauses : List Clause) (l l' : Listing) : Prop :=
  (∀ c ∈ clauses, c.isReadable) ∧
    ∃ code, l'.text = l.text ++ code ∧ Lexes code (clauses.flatMap Clause.tokens) ∧
      code.toList.getLast?.all isAlone

theorem Writes.refl (l : Listing) : Writes [] l l :=
  ⟨List.forall_mem_nil _, "", by simp, rfl, rfl⟩

theorem Writes.trans {clauses clauses' : List Clause} {l l' l'' : Listing}
    (h : Writes clauses l l') (h' : Writes clauses' l' l'') : Writes (clauses ++ clauses') l l'' := by
  obtain ⟨hreadable, code, htext, hlexes, hlast⟩ := h
  obtain ⟨hreadable', code', htext', hlexes', hlast'⟩ := h'
  refine ⟨List.forall_mem_append.2 ⟨hreadable, hreadable'⟩, code ++ code', ?_, ?_, ?_⟩
  · rw [htext', htext, String.append_assoc]
  · rw [List.flatMap_append]
    exact hlexes.append hlexes' (apart_of_getLast hlast code')
  · rw [String.toList_append, List.getLast?_append]
    -- The last character is that of the second text, or of the first if the second is empty.
    cases hempty : code'.toList.getLast? with
    | none => exact hlast
    | some c => simpa [hempty] using hlast'

theorem lexes_blanks (count : Nat) : Lexes (String.ofList (List.replicate count ' ')) [] := by
  induction count with
  | zero => rfl
  | succ count ih =>
    have hblank : Separates " " [] := ⟨rfl, rfl, rfl⟩
    have htext : String.ofList (List.replicate (count + 1) ' ')
        = " " ++ String.ofList (List.replicate count ' ') :=
      String.toList_inj.1 (by simp [List.replicate_succ])
    rw [htext]
    exact hblank.append ih

theorem isAlone_getLast_blanks (count : Nat) :
    (String.ofList (List.replicate count ' ')).toList.getLast?.all isAlone := by
  cases count with
  | zero => rfl
  | succ count =>
    have hblank : isAlone ' ' := by decide
    simp [List.replicate_succ', hblank]

/-- A clause on a line of its own, whatever the indentation. -/
theorem writes_line {c : Clause} (h : c.isReadable) (l : Listing) : Writes [c] l (l.line c.render) := by
  have hend : Separates "\n" [] := ⟨rfl, rfl, rfl⟩
  have hmargin : Lexes l.margin [] := lexes_blanks (4 * l.indent)
  have hline := hmargin.append (Clause.lexes_render h) (apart_of_getLast (isAlone_getLast_blanks _) _)
  have halone : isAlone '\n' := by decide
  refine ⟨List.forall_mem_singleton.2 h, l.margin ++ c.render ++ "\n",
    by simp [Listing.line, String.append_assoc], ?_, ?_⟩
  · simpa using hline.before hend
  · simp [halone]

theorem writes_stmts {stmts : List Stmt} (h : ∀ s ∈ stmts, s.isReadable) (l : Listing) :
    Writes (stmts.map .stmt) l (printStmts stmts l) := by
  induction stmts generalizing l with
  | nil => exact .refl l
  | cons s stmts ih =>
    rw [List.forall_mem_cons] at h
    exact (writes_line (c := .stmt s) h.1 l).trans (ih h.2 _)

/-! ## Loops -/

theorem Guard.render_sum (g : Guard) :
    g.sum.render = "int32_t " ++ g.name ++ " = " ++ g.left ++ " + " ++ g.right ++ ";" := by
  have htype : typeName .int32 = "int32_t" := rfl
  have htext : "int32_t " = "int32_t" ++ " " := rfl
  simp [sum, Stmt.render, Expr.render, Expr.precedence, Operation.precedence, Operation.symbol,
    Place.render, htype, htext, String.append_assoc]

theorem writes_enter {l : Loop} (h : l.isReadable) (out : Listing) :
    Writes l.clauses out (l.enter out) := by
  obtain ⟨type, counter, bound, follower, guard⟩ := l
  have henter : Writes [.enter ⟨type, counter, bound, follower, none⟩] out
      (out.enter (Loop.header ⟨type, counter, bound, follower, guard⟩)) :=
    writes_line (c := .enter ⟨type, counter, bound, follower, none⟩)
      (by simpa [Clause.isReadable, Loop.isReadable] using (Bool.and_eq_true_iff.1 h).1) out
  cases guard with
  | none => exact henter
  | some g =>
    have hg : g.isReadable := (Bool.and_eq_true_iff.1 h).2
    have hsum : (Clause.stmt g.sum).isReadable := by
      simpa [Guard.isReadable, Clause.isReadable, Guard.sum, Stmt.isReadable, Expr.isReadable,
        Place.isReadable, and_assoc] using hg
    have hskip : (Clause.skip g.name g.size).isReadable := by
      simp only [Guard.isReadable, Bool.and_eq_true] at hg
      exact hg.1.1
    have hguard := (henter.trans (writes_line hsum _)).trans (writes_line hskip _)
    have hrender : (Clause.stmt g.sum).render = _ := g.render_sum
    rw [hrender] at hguard
    exact hguard

theorem writes_enterAll {loops : List Loop} (h : ∀ l ∈ loops, l.isReadable) (out : Listing) :
    Writes (loops.flatMap Loop.clauses) out (Nest.enterAll loops out) := by
  induction loops generalizing out with
  | nil => exact .refl out
  | cons l loops ih =>
    rw [List.forall_mem_cons] at h
    exact (writes_enter h.1 out).trans (ih h.2 _)

theorem writes_leave (out : Listing) : Writes [.leave] out out.leave :=
  writes_line (c := .leave) rfl { out with indent := out.indent - 1 }

theorem writes_leaveAll (loops : List Loop) (out : Listing) :
    Writes (List.replicate loops.length .leave) out (Nest.leaveAll loops out) := by
  induction loops generalizing out with
  | nil => exact .refl out
  | cons l loops ih => exact (writes_leave out).trans (ih _)

/-! ## Cutting tokens into clauses -/

/-- The nesting of parentheses behind a token that does not end a clause. -/
def Token.pass? (depth : Nat) (t : Token) : Option Nat :=
  if depth = 0 ∧ t.isEnd then none else some (t.shift depth)

/-- The tokens close the parentheses that they open, and do not end a clause. -/
def Balanced (tokens : List Token) : Prop :=
  ∀ depth, tokens.foldlM Token.pass? depth = some depth

theorem splitClauses_append {tokens : List Token} {last : Token} {depth : Nat}
    (h : tokens.foldlM Token.pass? depth = some 0) (hlast : last.isEnd) (rest : List Token) :
    splitClauses depth (tokens ++ last :: rest) = (tokens ++ [last]) :: splitClauses 0 rest := by
  -- Induction on the tokens in front of the end, at whatever depth they begin.
  induction tokens generalizing depth with
  | nil =>
    obtain rfl : depth = 0 := by simpa using h
    simp [splitClauses, hlast]
  | cons t tokens ih =>
    rw [List.foldlM_cons] at h
    by_cases hend : depth = 0 ∧ t.isEnd
    · simp [Token.pass?, hend] at h
    · have hpass : t.pass? depth = some (t.shift depth) := if_neg hend
      rw [hpass] at h
      rw [List.cons_append, splitClauses, if_neg hend, ih h]
      rfl

theorem Balanced.append {ts us : List Token} (ht : Balanced ts) (hu : Balanced us) :
    Balanced (ts ++ us) := by
  intro depth
  rw [List.foldlM_append, ht depth]
  exact hu depth

theorem balanced_nil : Balanced [] := fun _ => rfl

theorem Token.pass?_of_not_end {t : Token} (h : t.isEnd = false) (depth : Nat) :
    t.pass? depth = some (t.shift depth) := by
  unfold Token.pass?
  simp only [h, Bool.false_eq_true, and_false, if_false]

/-- A token that neither opens or closes a parenthesis nor ends a clause may stand in front. -/
theorem Balanced.cons {t : Token} {ts : List Token} (hshift : ∀ depth, t.shift depth = depth)
    (hend : t.isEnd = false) (h : Balanced ts) : Balanced (t :: ts) := by
  intro depth
  rw [List.foldlM_cons, Token.pass?_of_not_end hend, hshift]
  exact h depth

theorem balanced_singleton {t : Token} (hshift : ∀ depth, t.shift depth = depth) (hend : t.isEnd = false) :
    Balanced [t] :=
  balanced_nil.cons hshift hend

theorem balanced_word (text : String) : Balanced [.word text] := balanced_singleton (fun _ => rfl) rfl

theorem balanced_operation (operation : Operation) : Balanced [operation.token] := by
  cases operation <;> exact balanced_singleton (fun _ => rfl) rfl

theorem balanced_comparison (comparison : Comparison) : Balanced [comparison.token] := by
  cases comparison <;> exact balanced_singleton (fun _ => rfl) rfl

theorem Balanced.parens {tokens : List Token} (h : Balanced tokens) :
    Balanced ([Token.symbol .parenOpen] ++ tokens ++ [Token.symbol .parenClose]) := by
  intro depth
  have hopen : Token.pass? depth (.symbol .parenOpen) = some (depth + 1) :=
    Token.pass?_of_not_end rfl depth
  have hclose : Token.pass? (depth + 1) (.symbol .parenClose) = some depth :=
    Token.pass?_of_not_end rfl (depth + 1)
  simp [hopen, h (depth + 1), hclose]

theorem balanced_parens {tokens : List Token} (h : Balanced tokens) (parens : Prop) [Decidable parens] :
    Balanced (if parens then [Token.symbol .parenOpen] ++ tokens ++ [Token.symbol .parenClose] else tokens) := by
  split
  next => exact h.parens
  next => exact h

theorem balanced_integer (value : Int) : Balanced (integerTokens value) := by
  have hnumber : Balanced [.number value.natAbs] := balanced_singleton (fun _ => rfl) rfl
  unfold integerTokens
  split
  next => exact hnumber.cons (fun _ => rfl) rfl
  next => exact hnumber

theorem balanced_subscript (s : Subscript) : Balanced s.tokens := by
  have hclose : Balanced [.symbol .bracketClose] := balanced_singleton (fun _ => rfl) rfl
  have hinner : Balanced [s.token, .symbol .bracketClose] := by
    cases s <;> exact hclose.cons (fun _ => rfl) rfl
  exact hinner.cons (fun _ => rfl) rfl

theorem balanced_place (p : Place) : Balanced p.tokens := by
  have hsubscripts : Balanced (p.subscripts.flatMap Subscript.tokens) := by
    induction p.subscripts with
    | nil => exact balanced_nil
    | cons s subscripts ih => exact (balanced_subscript s).append ih
  exact (balanced_word p.name).append hsubscripts

theorem balanced_expr (e : Expr) (context : Nat) : Balanced (e.tokens context) := by
  have hquestion : Balanced [.symbol .question] := balanced_singleton (fun _ => rfl) rfl
  have hcolon : Balanced [.symbol .colon] := balanced_singleton (fun _ => rfl) rfl
  induction e generalizing context with
  | int value => exact balanced_parens (balanced_integer value) _
  | float value => exact balanced_parens balanced_nil _
  | read place => exact balanced_parens (balanced_place place) _
  | cast type operand ih =>
    exact balanced_parens ((balanced_word (typeName type)).parens.append (ih 3)) _
  | operate operation left right ihl ihr =>
    exact balanced_parens (((ihl _).append (balanced_operation operation)).append (ihr _)) _
  | choose comparison left right yes no ihl ihr ihy ihn =>
    have hcondition := ((ihl 1).append (balanced_comparison comparison)).append (ihr 1)
    exact balanced_parens
      ((((hcondition.append hquestion).append (ihy 1)).append hcolon).append (ihn 1)) _

theorem balanced_start (follower : Option Follower) :
    Balanced (follower.elim [] Follower.startTokens) := by
  cases follower with
  | none => exact balanced_nil
  | some f =>
    have hassign := (balanced_integer f.start).cons (t := .symbol .assign) (fun _ => rfl) rfl
    exact (hassign.cons (fun _ => rfl) rfl).cons (fun _ => rfl) rfl

theorem balanced_step (follower : Option Follower) :
    Balanced (follower.elim [] Follower.stepTokens) := by
  cases follower with
  | none => exact balanced_nil
  | some f =>
    have hstep : Balanced [.symbol .addAssign, .number f.step] :=
      (balanced_singleton (fun _ => rfl) rfl).cons (fun _ => rfl) rfl
    exact (hstep.cons (fun _ => rfl) rfl).cons (fun _ => rfl) rfl

/-- The semicolons of a header stand inside its parentheses. -/
theorem Loop.headerTokens_eq_append (l : Loop) :
    ∃ tokens, l.headerTokens = tokens ++ [Token.symbol .braceOpen] ∧
      tokens.foldlM Token.pass? 0 = some 0 := by
  -- Up to the parenthesis that closes the header the depth is one.
  refine ⟨[Token.word "for", .symbol .parenOpen, .word l.type.name, .word l.counter, .symbol .assign, .number 0]
    ++ l.follower.elim [] Follower.startTokens
    ++ [Token.symbol .semicolon, .word l.counter, .symbol .less, .number l.bound, .symbol .semicolon,
      .word l.counter, .symbol .increment]
    ++ l.follower.elim [] Follower.stepTokens ++ [Token.symbol .parenClose], ?_, ?_⟩
  · simp [headerTokens]
  · simp [Token.pass?, Token.isEnd, Token.shift, balanced_start l.follower 1, balanced_step l.follower 1]

theorem Stmt.tokens_eq_append (s : Stmt) :
    ∃ tokens, s.tokens = tokens ++ [Token.symbol .semicolon] ∧ Balanced tokens := by
  have hassign : Balanced [.symbol .assign] := balanced_singleton (fun _ => rfl) rfl
  have haddAssign : Balanced [.symbol .addAssign] := balanced_singleton (fun _ => rfl) rfl
  cases s with
  | declare type name value =>
    have htarget := ((balanced_word (typeName type)).append (balanced_word name)).append hassign
    exact ⟨_, rfl, htarget.append (balanced_expr value 0)⟩
  | assign target value =>
    exact ⟨_, rfl, ((balanced_place target).append hassign).append (balanced_expr value 0)⟩
  | addTo target value =>
    exact ⟨_, rfl, ((balanced_place target).append haddAssign).append (balanced_expr value 0)⟩

/-- The first token that can end a clause is its last one. -/
theorem Clause.tokens_eq_append (c : Clause) :
    ∃ tokens last, c.tokens = tokens ++ [last] ∧ tokens.foldlM Token.pass? 0 = some 0 ∧ last.isEnd := by
  cases c with
  | enter l =>
    obtain ⟨tokens, htokens, hpass⟩ := l.headerTokens_eq_append
    exact ⟨tokens, _, htokens, hpass, rfl⟩
  | skip name size =>
    exact ⟨(skipTokens name size).dropLast, .symbol .semicolon, rfl, rfl, rfl⟩
  | stmt s =>
    obtain ⟨tokens, htokens, hbalanced⟩ := s.tokens_eq_append
    exact ⟨tokens, _, htokens, hbalanced 0, rfl⟩
  | leave => exact ⟨[], .symbol .braceClose, rfl, rfl, rfl⟩

theorem splitClauses_flatMap (clauses : List Clause) :
    splitClauses 0 (clauses.flatMap Clause.tokens) = clauses.map Clause.tokens := by
  induction clauses with
  | nil => rfl
  | cons c clauses ih =>
    obtain ⟨tokens, last, htokens, hpass, hlast⟩ := c.tokens_eq_append
    rw [List.flatMap_cons, htokens, List.append_assoc, List.singleton_append,
      splitClauses_append hpass hlast, ih, List.map_cons, htokens]

/-! ## Nests -/

/-- The names of a nest can be read back, and its phases and loops told apart. -/
def Nest.isReadable (n : Nest (List Stmt)) : Bool :=
  n.outer.all (·.isReadable) && n.before.all (·.isReadable) && n.inner.all (·.isReadable)
    && n.each.all (·.isReadable) && n.after.all (·.isReadable)
    && !n.before.isEmpty && !n.inner.isEmpty

/-- The printed text stands for the nest. -/
theorem Nest.ofText?_print {n : Nest (List Stmt)} (h : n.isReadable) (out : Listing) :
    ∃ code, (n.print printStmts out).text = out.text ++ code ∧ ofText? code = some n := by
  simp only [isReadable, Bool.and_eq_true, List.all_eq_true, Bool.not_eq_true', List.isEmpty_eq_false_iff]
    at h
  obtain ⟨⟨⟨⟨⟨⟨houter, hbefore⟩, hinner⟩, heach⟩, hafter⟩, hbeforeNe⟩, hinnerNe⟩ := h
  have hstarted := (writes_enterAll houter out).trans (writes_stmts hbefore _)
  have hsummed := (hstarted.trans (writes_enterAll hinner _)).trans (writes_stmts heach _)
  have hfinished := (hsummed.trans (writes_leaveAll n.inner _)).trans (writes_stmts hafter _)
  have hwrites : Writes n.clauses out (n.print printStmts out) :=
    hfinished.trans (writes_leaveAll n.outer _)
  obtain ⟨hreadable, code, htext, hlexes, -⟩ := hwrites
  have htokens : tokens? code.toList = some (n.clauses.flatMap Clause.tokens) := hlexes
  refine ⟨code, htext, ?_⟩
  simp [ofText?, htokens, splitClauses_flatMap, mapM_ofTokens? hreadable,
    ofClauses?_clauses hbeforeNe hinnerNe]

/-! ## Convolutions -/

theorem Loop.isReadable_count {counter : String} (h : isVariable counter) (bound : Nat) :
    (count counter bound).isReadable := by
  simp [count, isReadable, h]

theorem Loop.isReadable_outputs {axis : String} (hcounter : isVariable ("o" ++ axis))
    (hfollower : isVariable ("i" ++ axis)) (w : Window) : (outputs axis w).isReadable := by
  simp [outputs, isReadable, hcounter, hfollower]

theorem Loop.isReadable_taps {axis : String} (hcounter : isVariable ("k" ++ axis))
    (hname : isVariable ("ii" ++ axis)) (hleft : isVariable ("i" ++ axis)) (w : Window) :
    (taps axis w).isReadable := by
  simp [taps, isReadable, Guard.isReadable, hcounter, hname, hleft]

/-- The loops of a convolution can be read back around any phases that can. -/
theorem Nest.isReadable_ofConvolution (c : Convolution) {before each after : List Stmt}
    (hbefore : ∀ s ∈ before, s.isReadable) (hne : before ≠ []) (heach : ∀ s ∈ each, s.isReadable)
    (hafter : ∀ s ∈ after, s.isReadable) : (ofConvolution c before each after).isReadable := by
  have hcount : ∀ counter ∈ ["b", "m", "c"], isVariable counter := by decide
  have hoffset : ∀ axis ∈ ["0", "1"], isVariable ("o" ++ axis) ∧ isVariable ("i" ++ axis) ∧
      isVariable ("k" ++ axis) ∧ isVariable ("ii" ++ axis) := by decide
  obtain ⟨ho, hi, hk, hii⟩ := hoffset "0" (by simp)
  obtain ⟨ho', hi', hk', hii'⟩ := hoffset "1" (by simp)
  have houter : (ofConvolution c before each after).outer.all (·.isReadable) := by
    simp only [ofConvolution, List.all_cons, List.all_nil, Loop.isReadable_count (hcount "b" (by simp)),
      Loop.isReadable_count (hcount "m" (by simp)), Loop.isReadable_outputs ho hi,
      Loop.isReadable_outputs ho' hi', Bool.and_true]
  have hinner : (ofConvolution c before each after).inner.all (·.isReadable) := by
    simp only [ofConvolution, List.all_cons, List.all_nil, Loop.isReadable_count (hcount "c" (by simp)),
      Loop.isReadable_taps hk hii hi, Loop.isReadable_taps hk' hii' hi', Bool.and_true]
  unfold isReadable
  rw [houter, hinner]
  simpa [ofConvolution, hne] using ⟨⟨hbefore, heach⟩, hafter⟩

end Stencil.C
