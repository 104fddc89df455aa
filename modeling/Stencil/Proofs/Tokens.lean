import Stencil.C.Reader

/-!
# Tokens of printed text

Names and numbers are read back as single tokens, and texts that nothing joins are read
one after the other.
-/

namespace Stencil.C

/-- The text consists of the given tokens. -/
def Lexes (text : String) (tokens : List Token) : Prop := tokens? text.toList = some tokens

instance (text : String) (tokens : List Token) : Decidable (Lexes text tokens) :=
  inferInstanceAs (Decidable (tokens? text.toList = some tokens))

/-! ## Texts one after the other -/

/-- No token reaches from one text into the other. -/
def Apart (a b : String) : Prop :=
  ∀ x ∈ a.toList.getLast?, ∀ y ∈ b.toList.head?, joins x y = false

/-- Whether no token of several characters contains the character. -/
def isAlone (c : Char) : Bool :=
  !isNameChar c && operatorPairs.all fun p => p.1 != c && p.2 != c

/-- A text that consists of the given tokens and keeps apart what stands around it. -/
structure Separates (s : String) (tokens : List Token) : Prop where
  lexes : Lexes s tokens
  head_isAlone : s.toList.head?.any isAlone
  getLast_isAlone : s.toList.getLast?.any isAlone

theorem joins_alone_left {c : Char} (h : isAlone c) (d : Char) : joins c d = false := by
  simp only [isAlone, Bool.and_eq_true, Bool.not_eq_true', List.all_eq_true, bne_iff_ne] at h
  simp only [joins, h.1, Bool.false_and, Bool.false_or, ← Bool.not_eq_true, List.contains_iff_mem]
  intro hmem
  exact (h.2 _ hmem).1 rfl

theorem joins_alone_right {d : Char} (h : isAlone d) (c : Char) : joins c d = false := by
  simp only [isAlone, Bool.and_eq_true, Bool.not_eq_true', List.all_eq_true, bne_iff_ne] at h
  simp only [joins, h.1, Bool.and_false, Bool.false_or, ← Bool.not_eq_true, List.contains_iff_mem]
  intro hmem
  exact (h.2 _ hmem).2 rfl

/-- Names and operators do not join. -/
theorem joins_of_isNameChar_ne {c d : Char} (h : isNameChar c ≠ isNameChar d) : joins c d = false := by
  have hpairs : ∀ p ∈ operatorPairs, isNameChar p.1 = isNameChar p.2 := by decide
  have hmem : (c, d) ∉ operatorPairs := fun hmem => h (hpairs (c, d) hmem)
  have hnames : (isNameChar c && isNameChar d) = false := by
    cases hc : isNameChar c <;> cases hd : isNameChar d <;> simp_all
  simp [joins, hnames, hmem]

theorem Lexes.append {a b : String} {ts us : List Token} (ha : Lexes a ts) (hb : Lexes b us)
    (h : Apart a b) : Lexes (a ++ b) (ts ++ us) := by
  unfold Lexes tokens? at *
  rw [String.toList_append, List.splitBy_append h, List.filter_append, List.mapM_append, ha, hb]
  rfl

theorem apart_of_head {b : String} (h : b.toList.head?.all isAlone) (a : String) : Apart a b :=
  fun x _ y hy => joins_alone_right ((Option.all_eq_true _ _).1 h y hy) x

theorem apart_of_getLast {a : String} (h : a.toList.getLast?.all isAlone) (b : String) : Apart a b :=
  fun x hx y _ => joins_alone_left ((Option.all_eq_true _ _).1 h x hx) y

section

variable {s : String} {us : List Token}

theorem Separates.ne_nil (h : Separates s us) : s.toList ≠ [] := by
  intro hnil
  have hhead := h.head_isAlone
  rw [hnil] at hhead
  cases hhead

theorem Separates.all_head (h : Separates s us) : s.toList.head?.all isAlone := by
  obtain ⟨c, hc, halone⟩ := (Option.any_eq_true _ _).1 h.head_isAlone
  simpa [hc] using halone

theorem Separates.all_getLast (h : Separates s us) : s.toList.getLast?.all isAlone := by
  obtain ⟨c, hc, halone⟩ := (Option.any_eq_true _ _).1 h.getLast_isAlone
  simpa [hc] using halone

theorem Separates.apart_left (h : Separates s us) (a b : String) : Apart a (s ++ b) := by
  refine apart_of_head ?_ a
  rw [String.toList_append, List.head?_append_of_ne_nil _ h.ne_nil]
  exact h.all_head

theorem Separates.apart_right (h : Separates s us) (a b : String) : Apart (a ++ s) b := by
  refine apart_of_getLast ?_ b
  rw [String.toList_append, List.getLast?_append_of_ne_nil _ h.ne_nil]
  exact h.all_getLast

/-- A text behind one that keeps it apart from what stands before. -/
theorem Separates.append {b : String} {ts : List Token} (hs : Separates s us) (hb : Lexes b ts) :
    Lexes (s ++ b) (us ++ ts) :=
  hs.lexes.append hb (apart_of_getLast hs.all_getLast b)

theorem Lexes.before {a : String} {ts : List Token} (ha : Lexes a ts) (hs : Separates s us) :
    Lexes (a ++ s) (ts ++ us) :=
  ha.append hs.lexes (apart_of_head hs.all_head a)

/-- Two texts with one between them that keeps them apart. -/
theorem Lexes.around {a b : String} {ts vs : List Token} (ha : Lexes a ts) (hs : Separates s us)
    (hb : Lexes b vs) : Lexes (a ++ s ++ b) (ts ++ us ++ vs) :=
  (ha.before hs).append hb (hs.apart_right a b)

end

/-! ## Names and numbers -/

/-- Whether a text is an identifier. -/
def isName (text : String) : Bool :=
  match text.toList with
  | [] => false
  | c :: rest => isNameChar c && !c.isDigit && rest.all isNameChar

/-- Whether a text can name a variable. -/
def isVariable (text : String) : Bool := isName text && !isReserved text

theorem isChain_of_isNameChar {cs : List Char} (h : ∀ c ∈ cs, isNameChar c) :
    cs.IsChain (joins · ·) := by
  induction cs with
  | nil => exact List.isChain_nil
  | cons c cs ih =>
    refine (ih fun d hd => h d (List.mem_cons_of_mem c hd)).cons fun d hd => ?_
    have hc : isNameChar c = true := h c List.mem_cons_self
    have hd : isNameChar d = true := h d (List.mem_cons_of_mem c (List.mem_of_mem_head? hd))
    simp [joins, hc, hd]

/-- Characters of names make up one token. -/
theorem tokens?_of_isNameChar {c : Char} {rest : List Char} (h : ∀ d ∈ c :: rest, isNameChar d)
    {t : Token} (ht : Token.ofChars? (c :: rest) = some t) : tokens? (c :: rest) = some [t] := by
  have hblank : isBlank c = false := by
    have hc : isNameChar c = true := h c List.mem_cons_self
    by_contra hblank
    rw [Bool.not_eq_false, isBlank, Bool.or_eq_true, beq_iff_eq, beq_iff_eq] at hblank
    rcases hblank with rfl | rfl <;> exact absurd hc (by decide)
  unfold tokens?
  rw [List.splitBy_of_isChain (List.cons_ne_nil c rest) (isChain_of_isNameChar h)]
  simp [hblank, ht]

theorem isNameChar_of_mem {name : String} (h : isName name) : ∀ c ∈ name.toList, isNameChar c := by
  unfold isName at h
  split at h
  next => cases h
  next c rest hchars =>
    simp only [Bool.and_eq_true, List.all_eq_true] at h
    rw [hchars]
    exact List.forall_mem_cons.2 ⟨h.1.1, h.2⟩

theorem lexes_name {name : String} (h : isName name) : Lexes name [.word name] := by
  have hall := isNameChar_of_mem h
  unfold isName at h
  unfold Lexes
  split at h
  next => cases h
  next c rest hchars =>
    rw [hchars] at hall ⊢
    refine tokens?_of_isNameChar hall ?_
    simp only [Bool.and_eq_true, Bool.not_eq_true'] at h
    simp [Token.ofChars?, h.1.2, h.1.1, ← hchars]

theorem isNameChar_of_isDigit {c : Char} (h : c.isDigit) : isNameChar c := by
  simp [isNameChar, Char.isAlphanum, h]

/-- Only zero is written with a zero in front. -/
theorem toDigits_eq_zero_cons {n : Nat} {rest : List Char} (h : Nat.toDigits 10 n = '0' :: rest) :
    rest = [] := by
  -- A zero in front would also stand in front of the number without its last digit.
  induction n using Nat.strong_induction_on generalizing rest with
  | _ n ih =>
    rw [Nat.toDigits_eq_if (by decide)] at h
    split at h
    next => exact (List.cons.inj h).2.symm
    next hn =>
      obtain ⟨c, cs, hcs⟩ := List.exists_cons_of_ne_nil (Nat.toDigits_ne_nil (b := 10) (n := n / 10))
      rw [hcs, List.cons_append] at h
      obtain ⟨rfl, -⟩ := List.cons.inj h
      obtain rfl := ih (n / 10) (by omega) hcs
      have hzero : n / 10 = 0 := by
        rw [← Nat.ofDigitChars_ten_toDigits (n := n / 10), hcs]
        rfl
      omega

theorem isDigit_of_mem_toString {n : Nat} {c : Char} (h : c ∈ (toString n).toList) : c.isDigit :=
  Nat.isDigit_of_mem_toDigits (b := 10) (n := n) (by decide) (by decide) (by simpa using h)

/-- The decimal digits of a number form its token. -/
theorem Token.ofChars?_toString (n : Nat) : ofChars? (toString n).toList = some (.number n) := by
  have hdigits : ∀ c ∈ (toString n).toList, c.isDigit := fun _ => isDigit_of_mem_toString
  have hchars : (toString n).toList = Nat.toDigits 10 n := by simp
  rw [hchars] at hdigits ⊢
  obtain ⟨c, rest, hcs⟩ := List.exists_cons_of_ne_nil (Nat.toDigits_ne_nil (b := 10) (n := n))
  have hzero : c != '0' || rest.isEmpty := by
    by_cases hc : c = '0'
    · subst hc
      rw [toDigits_eq_zero_cons hcs]
      rfl
    · simp [hc]
  rw [hcs] at hdigits ⊢
  have hall : (c :: rest).all Char.isDigit := List.all_eq_true.2 hdigits
  have hvalue : Nat.ofDigitChars 10 (c :: rest) 0 = n := by
    rw [← hcs]
    exact Nat.ofDigitChars_ten_toDigits
  simp only [ofChars?, hdigits c List.mem_cons_self, hall, hzero, hvalue, Bool.and_self, if_true]

theorem lexes_number (n : Nat) : Lexes (toString n) [.number n] := by
  have hdigits : ∀ c ∈ (toString n).toList, c.isDigit := fun _ => isDigit_of_mem_toString
  have htoken := Token.ofChars?_toString n
  unfold Lexes
  cases hchars : (toString n).toList with
  | nil =>
    rw [hchars] at htoken
    cases htoken
  | cons c rest =>
    rw [hchars] at hdigits htoken
    exact tokens?_of_isNameChar (fun d hd => isNameChar_of_isDigit (hdigits d hd)) htoken

theorem isNameChar_head_number (n : Nat) : ∀ c ∈ (toString n).toList.head?, isNameChar c := by
  intro c hc
  exact isNameChar_of_isDigit (isDigit_of_mem_toString (List.mem_of_mem_head? hc))

theorem lexes_integer (value : Int) : Lexes (toString value) (integerTokens value) := by
  cases value with
  | ofNat n =>
    have htokens : integerTokens (Int.ofNat n) = [.number n] := if_neg (by simp)
    rw [htokens]
    exact lexes_number n
  | negSucc n =>
    have htokens : integerTokens (Int.negSucc n) = [.symbol .minus] ++ [.number (n + 1)] :=
      if_pos (Int.negSucc_lt_zero n)
    rw [htokens]
    -- The sign is a token of its own, since no operator begins with it and goes on with a digit.
    change Lexes ("-" ++ toString (n + 1)) _
    refine Lexes.append (by decide) (lexes_number (n + 1)) fun x hx y hy => ?_
    obtain rfl : '-' = x := by simpa using hx
    refine joins_of_isNameChar_ne ?_
    rw [isNameChar_head_number _ y hy]
    decide

end Stencil.C
