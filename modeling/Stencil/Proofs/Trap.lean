import Stencil.C.Initializer
import Stencil.Number.Fault
import Stencil.Proofs.Outcome

/-!
# Traps

Some steps stop a program: an index beyond the end, a difference below zero, a division by
zero. Here they are taken in the open. A computation that may trap or else fail is compared
with one that can only fail: it performs it if it never traps and has its outcome.
-/

namespace Stencil

/-- Why a program stops in the middle of a step. -/
inductive Trap where
  | fault (f : Fault)
  | emptyChunks
  | assertion
deriving DecidableEq, Repr

/-- What comes of a computation that may trap. -/
inductive Trapping (ε α : Type) where
  | ok (a : α)
  | error (e : ε)
  | trap (reason : Trap)
deriving DecidableEq, Repr

namespace Trapping

variable {ε ε' α β : Type}

def bind (x : Trapping ε α) (f : α → Trapping ε β) : Trapping ε β :=
  match x with
  | ok a => f a
  | error e => .error e
  | trap reason => .trap reason

instance : Monad (Trapping ε) where
  pure := ok
  bind := bind

instance : LawfulMonad (Trapping ε) := LawfulMonad.mk' _ (fun x => by cases x <;> rfl) (fun _ _ => rfl)
  fun x _ _ => by cases x <;> rfl

def mapError (f : ε → ε') : Trapping ε α → Trapping ε' α
  | ok a => .ok a
  | error e => .error (f e)
  | trap reason => .trap reason

/-- A computation that never traps. -/
def ofExcept : Except ε α → Trapping ε α
  | .ok a => .ok a
  | .error e => .error e

instance : MonadLift (Except ε) (Trapping ε) := ⟨ofExcept⟩

/-- A step that traps or has a result. -/
def ofStep : Except Trap α → Trapping ε α
  | .ok a => .ok a
  | .error reason => .trap reason

instance : MonadLift (Except Trap) (Trapping ε) := ⟨ofStep⟩

end Trapping

/-! ## Steps that may trap -/

namespace Trap

variable {α : Type}

def elementAt (l : List α) (i : Nat) : Except Trap α :=
  match l[i]? with
  | some a => .ok a
  | none => .error (.fault .indexOutOfRange)

/-- Change the element at an index. -/
def modifyAt (l : List α) (i : Nat) (f : α → α) : Except Trap (List α) :=
  if i < l.length then .ok (l.modify i f) else .error (.fault .indexOutOfRange)

def minus (a b : Nat) : Except Trap Nat :=
  if b ≤ a then .ok (a - b) else .error (.fault .subtractOverflow)

def divide (a b : Nat) : Except Trap Nat :=
  if b = 0 then .error (.fault .divideByZero) else .ok (a / b)

/-- The quotient, rounded up. -/
def divideUp (a b : Nat) : Except Trap Nat :=
  if b = 0 then .error (.fault .divideByZero) else .ok ((a + b - 1) / b)

def chunksOf (size : Nat) (l : List α) : Except Trap (List (List α)) :=
  if size = 0 then .error .emptyChunks else .ok (C.chunks size l)

def assert (p : Prop) [Decidable p] : Except Trap Unit :=
  if p then .ok () else .error .assertion

theorem elementAt_eq_ok {l : List α} {i : Nat} {a : α} : elementAt l i = .ok a ↔ l[i]? = some a := by
  unfold elementAt
  split <;> simp_all

theorem modifyAt_eq_ok {l : List α} {i : Nat} (h : i < l.length) (f : α → α) :
    modifyAt l i f = .ok (l.modify i f) := if_pos h

theorem minus_eq_ok {a b : Nat} (h : b ≤ a) : minus a b = .ok (a - b) := if_pos h

theorem divide_eq_ok {b : Nat} (h : 0 < b) (a : Nat) : divide a b = .ok (a / b) :=
  if_neg (Nat.ne_of_gt h)

theorem divideUp_eq_ok {b : Nat} (h : 0 < b) (a : Nat) : divideUp a b = .ok ((a + b - 1) / b) :=
  if_neg (Nat.ne_of_gt h)

theorem chunksOf_eq_ok {size : Nat} (h : 0 < size) (l : List α) :
    chunksOf size l = .ok (C.chunks size l) := if_neg (Nat.ne_of_gt h)

theorem assert_eq_ok {p : Prop} [Decidable p] (h : p) : assert p = .ok () := if_pos h

end Trap

/-! ## Computations that never trap -/

/-- The computation never traps, and it has the given outcome. -/
def Performs {ε α : Type} (x : Trapping ε α) (y : Except ε α) : Prop := x = .ofExcept y

namespace Performs

variable {ε ε' α β γ : Type} {x : Trapping ε α} {y : Except ε α}

theorem ok (a : α) : Performs (.ok a : Trapping ε α) (.ok a) := rfl

theorem error (e : ε) : Performs (.error e : Trapping ε α) (.error e) := rfl

theorem lift (y : Except ε α) : Performs (liftM y) y := rfl

/-- The continuation needs to perform on the result that there is. -/
theorem bind {f : α → Trapping ε β} {g : α → Except ε β} (h : Performs x y)
    (hfg : ∀ a, y = .ok a → Performs (f a) (g a)) : Performs (x >>= f) (y >>= g) := by
  obtain rfl := h
  cases y with
  | ok a => exact hfg a rfl
  | error e => rfl

/-- The result is worked on in another form. -/
theorem bind_map {φ : α → γ} {x : Trapping ε γ} {f : γ → Trapping ε β} {g : α → Except ε β}
    (h : Performs x (φ <$> y)) (hfg : ∀ a, y = .ok a → Performs (f (φ a)) (g a)) :
    Performs (x >>= f) (y >>= g) := by
  obtain rfl := h
  cases y with
  | ok a => exact hfg a rfl
  | error e => rfl

theorem map (f : α → β) (h : Performs x y) : Performs (f <$> x) (f <$> y) := by
  obtain rfl := h
  cases y <;> rfl

/-- A step that does not trap. -/
theorem step {c : Except Trap α} {a : α} {f : α → Trapping ε β} {y : Except ε β} (hc : c = .ok a)
    (hf : Performs (f a) y) : Performs ((liftM c : Trapping ε α) >>= f) y := by
  subst hc
  exact hf

theorem mapError (f : ε → ε') (h : Performs x y) : Performs (x.mapError f) (y.mapError f) := by
  obtain rfl := h
  cases y <;> rfl

theorem mapM {f : α → Trapping ε β} {g : α → Except ε β} {l : List α}
    (h : ∀ a ∈ l, Performs (f a) (g a)) : Performs (l.mapM f) (l.mapM g) := by
  induction l with
  | nil => exact ok []
  | cons a l ih =>
    rw [List.mapM_cons, List.mapM_cons]
    refine (h a List.mem_cons_self).bind fun b _ => ?_
    exact (ih fun c hc => h c (List.mem_cons_of_mem a hc)).bind fun bs _ => ok (b :: bs)

theorem forM {f : α → Trapping ε PUnit} {g : α → Except ε PUnit} {l : List α}
    (h : ∀ a ∈ l, Performs (f a) (g a)) : Performs (l.forM f) (l.forM g) := by
  induction l with
  | nil => exact ok ()
  | cons a l ih =>
    refine (h a List.mem_cons_self).bind fun _ _ => ?_
    exact ih fun c hc => h c (List.mem_cons_of_mem a hc)

/-- A fold whose steps perform in every state that keeps an invariant. -/
theorem foldlM {f : β → α → Trapping ε β} {g : β → α → Except ε β} {l : List α} {b : β} (P : β → Prop)
    (hstep : ∀ b, P b → ∀ a ∈ l, Performs (f b a) (g b a) ∧ ∀ b', g b a = .ok b' → P b') (hb : P b) :
    Performs (l.foldlM f b) (l.foldlM g b) := by
  induction l generalizing b with
  | nil => exact ok b
  | cons a l ih =>
    rw [List.foldlM_cons, List.foldlM_cons]
    obtain ⟨hperforms, hkept⟩ := hstep b hb a List.mem_cons_self
    refine hperforms.bind fun b' hb' => ?_
    exact ih (fun b hb a' ha' => hstep b hb a' (List.mem_cons_of_mem a ha')) (hkept b' hb')

end Performs

end Stencil
