import Stencil.Proofs.Reading

/-!
# Clauses

A nest is printed as a list of clauses. Each of them is read back from its own tokens, and
the nest is found again by where loops begin and end among the clauses.
-/

namespace Stencil.C

/-! ## Clauses -/

/-- The statement that computes what a guard tests. -/
def Guard.sum (g : Guard) : Stmt :=
  .declare .int32 g.name (.operate .add (.read ⟨g.left, []⟩) (.read ⟨g.right, []⟩))

def Guard.clauses (g : Guard) : List Clause := [.stmt g.sum, .skip g.name g.size]

def Loop.clauses (l : Loop) : List Clause :=
  .enter { l with guard := none } :: l.guard.elim [] Guard.clauses

def Nest.clauses (n : Nest (List Stmt)) : List Clause :=
  n.outer.flatMap Loop.clauses ++ n.before.map .stmt ++ n.inner.flatMap Loop.clauses
    ++ n.each.map .stmt ++ List.replicate n.inner.length .leave ++ n.after.map .stmt
    ++ List.replicate n.outer.length .leave

def Guard.isReadable (g : Guard) : Bool := isVariable g.name && isVariable g.left && isVariable g.right

def Loop.isReadable (l : Loop) : Bool :=
  isVariable l.counter && l.follower.all (isVariable ·.name) && l.guard.all (·.isReadable)

namespace Clause

def render : Clause → String
  | enter l => l.header ++ " \x7b"
  | skip name size =>
    "if (" ++ name ++ " < 0 || " ++ name ++ " >= " ++ toString size ++ ") continue;"
  | stmt s => s.render
  | leave => "\x7d"

def tokens : Clause → List Token
  | enter l => l.headerTokens
  | skip name size => skipTokens name size
  | stmt s => s.tokens
  | leave => [.symbol .braceClose]

/-- A clause opens a loop without its guard, which has clauses of its own. -/
def isReadable : Clause → Bool
  | enter l => l.guard.isNone && l.isReadable
  | skip name _ => isVariable name
  | stmt s => s.isReadable
  | leave => true

theorem lexes_render {c : Clause} (h : c.isReadable) : Lexes c.render c.tokens := by
  cases c with
  | enter l =>
    simp only [isReadable, Loop.isReadable, Bool.and_eq_true] at h
    obtain ⟨-, ⟨hcounter, hfollower⟩, -⟩ := h
    refine Loop.lexes_header (isName_of_isVariable hcounter) fun f hf => isName_of_isVariable ?_
    rw [Option.mem_def.1 hf] at hfollower
    exact hfollower
  | skip name size => exact lexes_skip (isName_of_isVariable h) size
  | stmt s => exact Stmt.lexes_render h
  | leave => rfl

end Clause

/-! ## Statements -/

theorem Expr.beforeSemicolon?_tokens {e : Expr} (h : e.isReadable) :
    beforeSemicolon? (e.tokens 0 ++ [Token.symbol .semicolon]) = some e := by
  simp [beforeSemicolon?, ofTokens?_tokens h]

theorem takeSubscripts_flatMap (subscripts : List Subscript) {symbol : Symbol}
    (h : symbol ≠ .bracketOpen) (rest : List Token) :
    takeSubscripts (subscripts.flatMap Subscript.tokens ++ .symbol symbol :: rest)
      = (subscripts, .symbol symbol :: rest) := by
  induction subscripts with
  | nil =>
    rw [List.flatMap_nil, List.nil_append]
    cases symbol <;> first | rfl | exact absurd rfl h
  | cons s subscripts ih =>
    cases s <;>
      simp [Subscript.tokens, Subscript.token, takeSubscripts, ih]

theorem ne_of_isVariable {name word : String} (h : isVariable name) (hword : isReserved word) :
    name ≠ word := by
  rintro rfl
  rw [isReserved_of_isVariable h] at hword
  cases hword

theorem typeName_ne (type : ElementType) : typeName type ≠ "for" ∧ typeName type ≠ "if" := by
  cases type <;> decide

/-- A statement begins with a word that is no keyword, and is read back. -/
theorem Stmt.ofTokens?_tokens {s : Stmt} (h : s.isReadable) :
    ∃ first rest, s.tokens = .word first :: rest ∧ first ≠ "for" ∧ first ≠ "if" ∧
      ofTokens? first rest = some s := by
  cases s with
  | declare type name value =>
    obtain ⟨hname, hvalue⟩ := Bool.and_eq_true_iff.1 h
    refine ⟨_, _, rfl, (typeName_ne type).1, (typeName_ne type).2, ?_⟩
    simp [ofTokens?, typeOfName?_typeName, Expr.beforeSemicolon?_tokens hvalue]
  | assign target value | addTo target value =>
    obtain ⟨htarget, hvalue⟩ := Bool.and_eq_true_iff.1 h
    have hname : isVariable target.name := (Bool.and_eq_true_iff.1 htarget).1
    refine ⟨_, _, rfl, ne_of_isVariable hname rfl, ne_of_isVariable hname rfl, ?_⟩
    simp [ofTokens?, typeOfName?_of_isVariable hname, takeSubscripts_flatMap,
      Expr.beforeSemicolon?_tokens hvalue]

/-! ## Headers and conditions -/

theorem CounterType.ofName?_name (type : CounterType) : ofName? type.name = some type := by
  cases type <;> rfl

/-- The names and numbers of a header with a follower. Only its start may have a sign. -/
theorem Loop.words_headerTokens {l : Loop} {f : Follower} (h : l.follower = some f) :
    l.headerTokens.filterMap Token.word?
        = ["for", l.type.name, l.counter, f.name, l.counter, l.counter, f.name] ∧
      ∃ size : Nat, l.headerTokens.filterMap Token.number? = [0, size, l.bound, f.step] ∧
        (if .symbol .minus ∈ l.headerTokens then -(size : Int) else size) = f.start := by
  unfold headerTokens
  rw [h, Option.elim_some, Option.elim_some, Follower.startTokens, integerTokens]
  by_cases hneg : f.start < 0
  · rw [if_pos hneg]
    refine ⟨rfl, f.start.natAbs, rfl, ?_⟩
    rw [if_pos (by simp)]
    omega
  · rw [if_neg hneg]
    refine ⟨rfl, f.start.natAbs, rfl, ?_⟩
    rw [if_neg (by simp [Follower.stepTokens])]
    omega

/-- A header shows all of a loop but its guard. -/
theorem Loop.ofTokens?_headerTokens {l : Loop} (h : l.guard = none) :
    ofTokens? l.headerTokens = some l := by
  obtain ⟨type, counter, bound, follower, guard⟩ := l
  obtain rfl : guard = none := h
  cases follower with
  | none =>
    -- The names and numbers determine the loop, and its header is then compared with the tokens.
    have hwords : (headerTokens ⟨type, counter, bound, none, none⟩).filterMap Token.word?
        = ["for", type.name, counter, counter, counter] := rfl
    have hnumbers : (headerTokens ⟨type, counter, bound, none, none⟩).filterMap Token.number?
        = [0, bound] := rfl
    simp [ofTokens?, hwords, hnumbers, CounterType.ofName?_name]
  | some f =>
    obtain ⟨name, start, step⟩ := f
    obtain ⟨hwords, size, hnumbers, hstart⟩ :=
      words_headerTokens (l := ⟨type, counter, bound, some ⟨name, start, step⟩, none⟩) rfl
    simp [ofTokens?, hwords, hnumbers, CounterType.ofName?_name, hstart]

theorem Clause.skip?_skipTokens (name : String) (size : Nat) :
    skip? (skipTokens name size) = some (.skip name size) := by
  have hwords : (skipTokens name size).filterMap Token.word? = ["if", name, name, "continue"] := rfl
  have hnumbers : (skipTokens name size).filterMap Token.number? = [0, size] := rfl
  simp [skip?, hwords, hnumbers]

theorem Clause.ofTokens?_tokens {c : Clause} (h : c.isReadable) : ofTokens? c.tokens = some c := by
  cases c with
  | enter l =>
    have hguard : l.guard = none := Option.isNone_iff_eq_none.1 (Bool.and_eq_true_iff.1 h).1
    have hloop := Loop.ofTokens?_headerTokens hguard
    change (Loop.ofTokens? l.headerTokens).map Clause.enter = some (.enter l)
    rw [hloop, Option.map_some]
  | skip name size => exact skip?_skipTokens name size
  | stmt s =>
    obtain ⟨first, rest, htokens, hfor, hif, hread⟩ := Stmt.ofTokens?_tokens h
    simp [tokens, htokens, ofTokens?, hfor, hif, hread]
  | leave => rfl

theorem mapM_ofTokens? {clauses : List Clause} (h : ∀ c ∈ clauses, c.isReadable) :
    (clauses.map Clause.tokens).mapM Clause.ofTokens? = some clauses := by
  induction clauses with
  | nil => rfl
  | cons c clauses ih =>
    rw [List.forall_mem_cons] at h
    simp [Clause.ofTokens?_tokens h.1, ih h.2]

/-! ## Nests -/

/-- What cannot be taken for loops or for the guard of a loop in front. -/
def EndsLoops (clauses : List Clause) : Prop :=
  (∀ l, clauses.head? ≠ some (.enter l)) ∧ ∀ name size, clauses[1]? ≠ some (.skip name size)

/-- A loop without a guard. -/
theorem takeLoops_enter (l : Loop) {rest : List Clause}
    (h : ∀ sum name size rest', rest ≠ .stmt sum :: .skip name size :: rest') :
    takeLoops (.enter l :: rest) = (l :: (takeLoops rest).1, (takeLoops rest).2) := by
  rw [takeLoops]
  intro sum name size rest' hrest
  exact h sum name size rest' hrest

/-- A loop with a guard. -/
theorem takeLoops_guard {l l' : Loop} {g : Guard} (h : l.guardBy? g.sum g.name g.size = some l')
    (rest : List Clause) :
    takeLoops (.enter l :: .stmt g.sum :: .skip g.name g.size :: rest)
      = (l' :: (takeLoops rest).1, (takeLoops rest).2) := by
  rw [takeLoops, h]

theorem takeLoops_flatMap (loops : List Loop) {rest : List Clause} (h : EndsLoops rest) :
    takeLoops (loops.flatMap Loop.clauses ++ rest) = (loops, rest) := by
  induction loops with
  | nil =>
    cases rest with
    | nil => rfl
    | cons c rest =>
      cases c with
      | enter l => exact absurd rfl (h.1 l)
      | skip | stmt | leave => rfl
  | cons l loops ih =>
    obtain ⟨type, counter, bound, follower, guard⟩ := l
    cases guard with
    | some g =>
      have hguard : Loop.guardBy? ⟨type, counter, bound, follower, none⟩ g.sum g.name g.size
          = some ⟨type, counter, bound, follower, some g⟩ := by
        simp [Loop.guardBy?, Guard.sum]
      have htake := takeLoops_guard hguard (loops.flatMap Loop.clauses ++ rest)
      rwa [ih] at htake
    | none =>
      have hrest : ∀ sum name size rest',
          loops.flatMap Loop.clauses ++ rest ≠ .stmt sum :: .skip name size :: rest' := by
        intro sum name size rest' heq
        -- Behind the head stands either another head or what follows all loops.
        cases loops with
        | nil =>
          rw [List.flatMap_nil, List.nil_append] at heq
          exact h.2 name size (by rw [heq]; rfl)
        | cons next loops => cases heq
      have htake := takeLoops_enter ⟨type, counter, bound, follower, none⟩ hrest
      rwa [ih] at htake

theorem takeStmts_map (stmts : List Stmt) {rest : List Clause} (h : ∀ s, rest.head? ≠ some (.stmt s)) :
    takeStmts (stmts.map .stmt ++ rest) = (stmts, rest) := by
  induction stmts with
  | nil =>
    cases rest with
    | nil => rfl
    | cons c rest =>
      cases c with
      | stmt s => exact absurd rfl (h s)
      | enter | skip | leave => rfl
  | cons s stmts ih => simp [takeStmts, ih]

theorem dropLeaves?_replicate (count : Nat) (rest : List Clause) :
    dropLeaves? count (List.replicate count Clause.leave ++ rest) = some rest := by
  induction count with
  | zero => rfl
  | succ count ih => exact ih

theorem endsLoops_of_notMem {clauses : List Clause} (henter : ∀ l, .enter l ∉ clauses)
    (hskip : ∀ name size, .skip name size ∉ clauses) : EndsLoops clauses :=
  ⟨fun l hl => henter l (List.mem_of_mem_head? hl),
    fun name size hmem => hskip name size (List.mem_of_getElem? hmem)⟩

theorem endsLoops_before {before : List Stmt} (hbefore : before ≠ []) {inner : List Loop}
    (hinner : inner ≠ []) (rest : List Clause) :
    EndsLoops (before.map .stmt ++ (inner.flatMap Loop.clauses ++ rest)) := by
  obtain ⟨s, before, rfl⟩ := List.exists_cons_of_ne_nil hbefore
  obtain ⟨l, inner, rfl⟩ := List.exists_cons_of_ne_nil hinner
  refine ⟨fun l hl => (nomatch hl), fun name size hskip => ?_⟩
  cases before with
  | nil => cases hskip
  | cons s' before => cases hskip

/-- The clauses of a nest determine it, if its phases and loops can be told apart. -/
theorem Nest.ofClauses?_clauses {n : Nest (List Stmt)} (hbefore : n.before ≠ []) (hinner : n.inner ≠ []) :
    ofClauses? n.clauses = some n := by
  obtain ⟨outer, before, inner, each, after⟩ := n
  have hends : takeStmts (after.map .stmt ++ List.replicate outer.length .leave)
      = (after, List.replicate outer.length .leave) :=
    takeStmts_map after fun s hs => by
      have hmem := List.mem_of_mem_head? hs
      simp at hmem
  have hleave : dropLeaves? outer.length (List.replicate outer.length .leave) = some [] := by
    simpa using dropLeaves?_replicate outer.length []
  -- From the end to the front, what stands behind each part cannot be taken for more of it.
  set last := after.map Clause.stmt ++ List.replicate outer.length .leave with hlast
  have heach : takeStmts (each.map .stmt ++ (List.replicate inner.length .leave ++ last))
      = (each, List.replicate inner.length .leave ++ last) := by
    refine takeStmts_map each fun s hs => ?_
    obtain ⟨l, inner, rfl⟩ := List.exists_cons_of_ne_nil hinner
    cases hs
  set loopless := each.map Clause.stmt ++ (List.replicate inner.length .leave ++ last) with hloopless
  have hinnerLoops : takeLoops (inner.flatMap Loop.clauses ++ loopless) = (inner, loopless) := by
    refine takeLoops_flatMap inner (endsLoops_of_notMem ?_ ?_) <;> simp [hloopless, hlast]
  have hbeforeStmts : takeStmts (before.map .stmt ++ (inner.flatMap Loop.clauses ++ loopless))
      = (before, inner.flatMap Loop.clauses ++ loopless) := by
    refine takeStmts_map before fun s hs => ?_
    obtain ⟨l, inner, rfl⟩ := List.exists_cons_of_ne_nil hinner
    cases hs
  have houter := takeLoops_flatMap outer (endsLoops_before hbefore hinner loopless)
  have hclauses : clauses ⟨outer, before, inner, each, after⟩ = outer.flatMap Loop.clauses
      ++ (before.map .stmt ++ (inner.flatMap Loop.clauses ++ loopless)) := by
    simp [clauses, hloopless, hlast]
  simp [hclauses, ofClauses?, houter, hbeforeStmts, hinnerLoops, heach, dropLeaves?_replicate, hends,
    hleave]

end Stencil.C
