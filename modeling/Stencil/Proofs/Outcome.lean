import Mathlib.Data.List.Forall2

/-!
# Outcomes of failing computations

A computation in `Except` succeeds exactly when each of its steps does, and otherwise has
the error of the first that fails. These laws take a computation apart, step by step, and
compare two computations that take the same steps.
-/

namespace Except

variable {ε ε' α β : Type}

@[simp] theorem pure_eq_ok {a b : α} : (pure a : Except ε α) = .ok b ↔ a = b := by
  simp [pure, Except.pure]

@[simp] theorem ok_bind (a : α) (f : α → Except ε β) : (Except.ok a >>= f) = f a := rfl

theorem error_bind (e : ε) (f : α → Except ε β) : (Except.error e >>= f) = .error e := rfl

theorem bind_eq_ok {x : Except ε α} {f : α → Except ε β} {b : β} :
    (x >>= f) = .ok b ↔ ∃ a, x = .ok a ∧ f a = .ok b := by
  cases x <;> simp [bind, Except.bind]

theorem exists_bind_eq_ok {x : Except ε α} {f : α → Except ε β} :
    (∃ b, (x >>= f) = .ok b) ↔ ∃ a, x = .ok a ∧ ∃ b, f a = .ok b := by
  cases x <;> simp [bind, Except.bind]

theorem map_eq_ok {x : Except ε α} {f : α → β} {b : β} :
    f <$> x = .ok b ↔ ∃ a, x = .ok a ∧ f a = b := by
  cases x <;> simp [Functor.map, Except.map]

theorem mapError_eq_ok {x : Except ε α} {f : ε → ε'} {a : α} :
    x.mapError f = .ok a ↔ x = .ok a := by
  cases x <;> simp [Except.mapError]

/-- A traversal succeeds with the images if every element has one. -/
theorem mapM_eq_ok_map {f : α → Except ε β} {g : α → β} {l : List α} (h : ∀ a ∈ l, f a = .ok (g a)) :
    l.mapM f = .ok (l.map g) := by
  induction l with
  | nil => rfl
  | cons a l ih =>
    rw [List.mapM_cons, h a List.mem_cons_self, ih fun b hb => h b (List.mem_cons_of_mem a hb)]
    rfl

/-- A traversal that undoes what was done to each element succeeds with the elements. -/
theorem mapM_map_eq_ok {f : β → Except ε α} {g : α → β} {l : List α} (h : ∀ a ∈ l, f (g a) = .ok a) :
    (l.map g).mapM f = .ok l := by
  have h : ∀ a ∈ l, (f ∘ g) a = .ok (id a) := h
  rw [List.mapM_map, mapM_eq_ok_map h, List.map_id]

/-- A fold succeeds if each step does. -/
theorem foldlM_eq_ok_foldl {f : β → α → Except ε β} {g : β → α → β} {l : List α}
    (h : ∀ b, ∀ a ∈ l, f b a = .ok (g b a)) (b : β) : l.foldlM f b = .ok (l.foldl g b) := by
  induction l generalizing b with
  | nil => rfl
  | cons a l ih =>
    rw [List.foldlM_cons, h b a List.mem_cons_self]
    exact ih (fun b a' ha' => h b a' (List.mem_cons_of_mem a ha')) _

/-- A change of the state that each step carries along is carried along by the fold. -/
theorem foldlM_map {f : β → α → Except ε β} {g : β → β} {l : List α} (P : β → Prop)
    (hstep : ∀ b a, P b → f (g b) a = g <$> f b a) (hP : ∀ b a b', P b → f b a = .ok b' → P b')
    {b : β} (hb : P b) : l.foldlM f (g b) = g <$> l.foldlM f b := by
  induction l generalizing b with
  | nil => rfl
  | cons a l ih =>
    rw [List.foldlM_cons, List.foldlM_cons, hstep b a hb]
    cases h : f b a with
    | error e => rfl
    | ok b' => exact ih (hP b a b' hb h)

/-- A traversal depends on an element in the middle only through its own result. -/
theorem mapM_middle_eq_ok {f : α → Except ε β} {before after : List α} {x : α} {bs : List β}
    (h : (before ++ x :: after).mapM f = .ok bs) :
    ∃ b, f x = .ok b ∧ bs[before.length]? = some b ∧
      ∀ y bs', (before ++ y :: after).mapM f = .ok bs' ↔ ∃ c, f y = .ok c ∧ bs' = bs.set before.length c := by
  induction before generalizing bs with
  | nil =>
    rw [List.nil_append, List.mapM_cons] at h
    obtain ⟨b, hb, h⟩ := bind_eq_ok.1 h
    obtain ⟨rest, hrest, h⟩ := bind_eq_ok.1 h
    obtain rfl := pure_eq_ok.1 h
    refine ⟨b, hb, rfl, fun y bs' => ?_⟩
    rw [List.nil_append, List.mapM_cons, bind_eq_ok]
    refine exists_congr fun c => and_congr_right fun _ => ?_
    rw [hrest, ok_bind, pure_eq_ok]
    exact eq_comm
  | cons a before ih =>
    rw [List.cons_append, List.mapM_cons] at h
    obtain ⟨b₀, hb₀, h⟩ := bind_eq_ok.1 h
    obtain ⟨rest, hrest, h⟩ := bind_eq_ok.1 h
    obtain rfl := pure_eq_ok.1 h
    obtain ⟨b, hb, hget, hother⟩ := ih hrest
    refine ⟨b, hb, hget, fun y bs' => ?_⟩
    simp only [List.cons_append, List.mapM_cons, hb₀, ok_bind, bind_eq_ok, pure_eq_ok, hother,
      List.length_cons, List.set_cons_succ]
    constructor
    · rintro ⟨_, ⟨c, hc, rfl⟩, rfl⟩
      exact ⟨c, hc, rfl⟩
    · rintro ⟨c, hc, rfl⟩
      exact ⟨_, ⟨c, hc, rfl⟩, rfl⟩

/-- A fold in which one element fills a slot depends on that element only through what it puts
there: the steps behind it carry the slot along. -/
theorem foldlM_middle_eq_ok {γ δ : Type} {f : β → α → Except ε β} {x : γ → α} {c : β → Except ε Unit}
    {r : γ → Except ε δ} {g : δ → β → β} {P : β → Prop} {before after : List α} {v₀ : γ}
    {b b₀ : β} (hx : ∀ b v, f b (x v) = do c b; return g (← r v) b)
    (hfilled : ∀ d b, P (g d b)) (hfill : ∀ d d' b, g d (g d' b) = g d b)
    (hstep : ∀ d b a, P b → f (g d b) a = g d <$> f b a)
    (hsame : ∀ b, P b → ∃ d, g d b = b)
    (h : (before ++ x v₀ :: after).foldlM f b = .ok b₀) (v : γ) (b' : β) :
    (before ++ x v :: after).foldlM f b = .ok b' ↔ ∃ d, r v = .ok d ∧ b' = g d b₀ := by
  rw [List.foldlM_append] at h
  obtain ⟨b₁, hbefore, h⟩ := bind_eq_ok.1 h
  rw [List.foldlM_cons, hx] at h
  obtain ⟨b₂, hb₂, hafter⟩ := bind_eq_ok.1 h
  obtain ⟨_, hguard, hb₂⟩ := bind_eq_ok.1 hb₂
  obtain ⟨d₀, -, hb₂⟩ := bind_eq_ok.1 hb₂
  obtain rfl := pure_eq_ok.1 hb₂
  rw [List.foldlM_append, hbefore, ok_bind, List.foldlM_cons, hx, hguard, ok_bind]
  -- What fills the slot may as well be put there again, so a step cannot empty it.
  have hkeep : ∀ b a b', P b → f b a = .ok b' → P b' := by
    intro b a b' hb hf
    obtain ⟨d, hd⟩ := hsame b hb
    have hkept := hstep d b a hb
    rw [hd, hf] at hkept
    rw [Except.ok.inj hkept]
    exact hfilled d b'
  have hrest : ∀ d, after.foldlM f (g d b₁) = .ok (g d b₀) := by
    intro d
    have hcarried := foldlM_map P (hstep d) hkeep (hfilled d₀ b₁) (l := after)
    rw [hfill, hafter] at hcarried
    exact hcarried
  cases r v with
  | error e => simp [bind, Except.bind]
  | ok d =>
    change after.foldlM f (g d b₁) = .ok b' ↔ _
    simp [hrest, eq_comm]

/-- The results of a successful traversal are those of its elements. -/
theorem mapM_eq_ok {f : α → Except ε β} {l : List α} {bs : List β} (h : l.mapM f = .ok bs) :
    (∀ a ∈ l, ∃ b ∈ bs, f a = .ok b) ∧ ∀ b ∈ bs, ∃ a ∈ l, f a = .ok b := by
  induction l generalizing bs with
  | nil =>
    obtain rfl := pure_eq_ok.1 h
    exact ⟨nofun, nofun⟩
  | cons a l ih =>
    rw [List.mapM_cons] at h
    obtain ⟨b, hb, h⟩ := bind_eq_ok.1 h
    obtain ⟨bs', hbs, h⟩ := bind_eq_ok.1 h
    obtain rfl := pure_eq_ok.1 h
    obtain ⟨hto, hfrom⟩ := ih hbs
    constructor
    · intro a' ha'
      rcases List.mem_cons.1 ha' with rfl | ha'
      · exact ⟨b, List.mem_cons_self, hb⟩
      · obtain ⟨b', hb', hf⟩ := hto a' ha'
        exact ⟨b', List.mem_cons_of_mem b hb', hf⟩
    · intro b' hb'
      rcases List.mem_cons.1 hb' with rfl | hb'
      · exact ⟨a, List.mem_cons_self, hb⟩
      · obtain ⟨a', ha', hf⟩ := hfrom b' hb'
        exact ⟨a', List.mem_cons_of_mem a ha', hf⟩

theorem forM_eq_ok {f : α → Except ε PUnit} {l : List α} {u : PUnit} :
    l.forM f = .ok u ↔ ∀ a ∈ l, f a = .ok () := by
  induction l with
  | nil => simp [pure, Except.pure]
  | cons a l ih => cases h : f a <;> simp_all [bind, Except.bind]

/-! ## Errors -/

theorem bind_eq_error {x : Except ε α} {f : α → Except ε β} {e : ε} :
    (x >>= f) = .error e ↔ x = .error e ∨ ∃ a, x = .ok a ∧ f a = .error e := by
  cases x <;> simp [bind, Except.bind]

theorem bind_pure_eq_error {x : Except ε α} {f : α → β} {e : ε} :
    (x >>= fun a => pure (f a)) = .error e ↔ x = .error e := by
  cases x <;> simp [bind, Except.bind, pure, Except.pure]

theorem map_eq_error {x : Except ε α} {f : α → β} {e : ε} : f <$> x = .error e ↔ x = .error e := by
  cases x <;> simp [Functor.map, Except.map]

theorem mapError_eq_error {x : Except ε α} {f : ε → ε'} {e : ε'} :
    x.mapError f = .error e ↔ ∃ e', x = .error e' ∧ f e' = e := by
  cases x <;> simp [Except.mapError]

theorem mapM_eq_error {f : α → Except ε β} {l : List α} {e : ε} (h : l.mapM f = .error e) :
    ∃ a ∈ l, f a = .error e := by
  induction l with
  | nil => cases h
  | cons a l ih =>
    rw [List.mapM_cons, bind_eq_error] at h
    rcases h with h | ⟨b, -, h⟩
    · exact ⟨a, List.mem_cons_self, h⟩
    · rcases bind_eq_error.1 h with h | ⟨bs, -, h⟩
      · obtain ⟨a', ha', h⟩ := ih h
        exact ⟨a', List.mem_cons_of_mem a ha', h⟩
      · cases h

theorem forM_eq_error {f : α → Except ε Unit} {l : List α} {e : ε} (h : l.forM f = .error e) :
    ∃ a ∈ l, f a = .error e := by
  induction l with
  | nil => cases h
  | cons a l ih =>
    rcases bind_eq_error.1 h with h | ⟨_, -, h⟩
    · exact ⟨a, List.mem_cons_self, h⟩
    · obtain ⟨a', ha', h⟩ := ih h
      exact ⟨a', List.mem_cons_of_mem a ha', h⟩

/-- A fold that fails does so at one of the elements, in a state that keeps what the elements
before it kept. -/
theorem foldlM_eq_error {f : β → α → Except ε β} {l : List α} {b : β} {e : ε} (P : β → Prop)
    (hstep : ∀ b, P b → ∀ a ∈ l, ∀ b', f b a = .ok b' → P b') (hb : P b)
    (h : l.foldlM f b = .error e) : ∃ b', P b' ∧ ∃ a ∈ l, f b' a = .error e := by
  induction l generalizing b with
  | nil => cases h
  | cons a l ih =>
    rw [List.foldlM_cons, bind_eq_error] at h
    rcases h with h | ⟨b', hb', h⟩
    · exact ⟨b, hb, a, List.mem_cons_self, h⟩
    · have hkept := hstep b hb a List.mem_cons_self b' hb'
      obtain ⟨b'', hb'', a', ha', h⟩ :=
        ih (fun b hb a' ha' => hstep b hb a' (List.mem_cons_of_mem a ha')) hkept h
      exact ⟨b'', hb'', a', List.mem_cons_of_mem a ha', h⟩

/-- The computation does not fail with any of the given errors. -/
def Avoids {ι : Type} (errors : ι → ε) (x : Except ε α) : Prop := ∀ i, x ≠ .error (errors i)

namespace Avoids

variable {ι : Type} {errors : ι → ε} {x : Except ε α}

theorem ok (a : α) : Avoids errors (.ok a) := nofun

theorem bind {f : α → Except ε β} (h : x.Avoids errors) (hf : ∀ a, x = .ok a → (f a).Avoids errors) :
    (x >>= f).Avoids errors := by
  intro i herror
  rcases bind_eq_error.1 herror with hx | ⟨a, ha, herror⟩
  · exact h i hx
  · exact hf a ha i herror

/-- No error of the computation is taken to one to be avoided. -/
theorem mapError {f : ε' → ε} {x : Except ε' α} (h : ∀ i e, f e = errors i → x ≠ .error e) :
    (x.mapError f).Avoids errors := by
  intro i herror
  obtain ⟨e, he, hmap⟩ := mapError_eq_error.1 herror
  exact h i e hmap he

theorem forM {f : α → Except ε Unit} {l : List α} (h : ∀ a ∈ l, (f a).Avoids errors) :
    (l.forM f).Avoids errors := by
  intro i herror
  obtain ⟨a, ha, herror⟩ := forM_eq_error herror
  exact h a ha i herror

theorem foldlM {f : β → α → Except ε β} {l : List α} (h : ∀ b, ∀ a ∈ l, (f b a).Avoids errors) (b : β) :
    (l.foldlM f b).Avoids errors := by
  intro i herror
  obtain ⟨b', -, a, ha, herror⟩ :=
    foldlM_eq_error (fun _ => True) (fun _ _ _ _ _ _ => trivial) trivial herror
  exact h b' a ha i herror

end Avoids

/-! ## Checks in order -/

/-- A computation makes checks, one after the other: it succeeds, with a result as given, if they all
pass, and otherwise its error is owed to the first that does not. -/
def Judged {ι : Type} (x : Except ε α) (passes : ι → Prop) (explains : ι → ε → Prop) (checks : List ι)
    (result : α → Prop) : Prop :=
  match x with
  | .ok a => (∀ q ∈ checks, passes q) ∧ result a
  | .error e => ∃ before q after, checks = before ++ q :: after ∧ (∀ p ∈ before, passes p) ∧
      ¬ passes q ∧ explains q e

namespace Judged

variable {ι : Type} {passes : ι → Prop} {explains : ι → ε → Prop} {q : ι} {before qs qs' : List ι}
variable {x : Except ε α} {result : α → Prop} {result' : β → Prop}

theorem ok {a : α} (h : result a) : (Except.ok a : Except ε α).Judged passes explains [] result := ⟨nofun, h⟩

/-- A check that passes leaves the verdict to the others. -/
theorem cons (hq : passes q) (h : x.Judged passes explains qs result) :
    x.Judged passes explains (q :: qs) result := by
  cases x with
  | ok a => exact ⟨List.forall_mem_cons.2 ⟨hq, h.1⟩, h.2⟩
  | error e =>
    obtain ⟨before, p, after, rfl, hbefore, hp, hexplains⟩ := h
    exact ⟨q :: before, p, after, rfl, List.forall_mem_cons.2 ⟨hq, hbefore⟩, hp, hexplains⟩

/-- A check that does not pass decides the verdict. -/
theorem error {e : ε} (hq : ¬ passes q) (h : explains q e) :
    (Except.error e : Except ε α).Judged passes explains (q :: qs) result :=
  ⟨[], q, qs, rfl, nofun, hq, h⟩

/-- Some checks and then others. -/
theorem bind {f : α → Except ε β} (h : x.Judged passes explains qs result)
    (hf : ∀ a, (∀ q ∈ qs, passes q) → result a → (f a).Judged passes explains qs' result') :
    (x >>= f).Judged passes explains (qs ++ qs') result' := by
  cases x with
  | ok a =>
    obtain ⟨hqs, ha⟩ := h
    have hrest := hf a hqs ha
    clear hf
    induction qs with
    | nil => exact hrest
    | cons q qs ih =>
      exact (ih (fun p hp => hqs p (List.mem_cons_of_mem q hp))).cons (hqs q List.mem_cons_self)
  | error e =>
    obtain ⟨before, q, after, rfl, hbefore, hq, hexplains⟩ := h
    exact ⟨before, q, after ++ qs', by simp, hbefore, hq, hexplains⟩

/-- A step behind the checks that cannot fail. -/
theorem map {f : α → β} (h : x.Judged passes explains qs result) (hf : ∀ a, result a → result' (f a)) :
    (x >>= fun a => pure (f a)).Judged passes explains qs result' := by
  cases x with
  | ok a => exact ⟨h.1, hf a h.2⟩
  | error e => exact h

/-- One check for each element of a list. -/
theorem mapM {γ : Type} {f : γ → Except ε α} {g : γ → α} {check : γ → ι} {l : List γ}
    (h : ∀ c ∈ l, (f c).Judged passes explains [check c] (· = g c)) :
    (l.mapM f).Judged passes explains (l.map check) (· = l.map g) := by
  induction l with
  | nil => exact .ok rfl
  | cons c l ih =>
    rw [List.mapM_cons]
    refine (h c List.mem_cons_self).bind fun a _ ha => ?_
    refine (ih fun d hd => h d (List.mem_cons_of_mem c hd)).map fun as has => ?_
    rw [ha, has, List.map_cons]

theorem exists_ok_iff (h : x.Judged passes explains qs result) : (∃ a, x = .ok a) ↔ ∀ q ∈ qs, passes q := by
  cases x with
  | ok a => exact iff_of_true ⟨a, rfl⟩ h.1
  | error e =>
    obtain ⟨before, q, after, rfl, -, hq, -⟩ := h
    refine iff_of_false (by simp) fun hall => hq (hall q ?_)
    exact List.mem_append_right before List.mem_cons_self

theorem tail (h : x.Judged passes explains (q :: qs) result) (hq : passes q) :
    x.Judged passes explains qs result := by
  cases x with
  | ok a => exact ⟨fun p hp => h.1 p (List.mem_cons_of_mem q hp), h.2⟩
  | error e =>
    obtain ⟨before, p, after, heq, hbefore, hp, hexplains⟩ := h
    cases before with
    | nil =>
      obtain ⟨rfl, -⟩ := List.cons.inj heq
      exact absurd hq hp
    | cons q' before =>
      obtain ⟨rfl, rfl⟩ := List.cons.inj heq
      exact ⟨before, p, after, rfl, fun p hp => hbefore p (List.mem_cons_of_mem q hp), hp, hexplains⟩

/-- The first check that does not pass has the error, whatever else does not. -/
theorem exists_error (h : x.Judged passes explains (before ++ q :: qs) result)
    (hbefore : ∀ p ∈ before, passes p) (hq : ¬ passes q) : ∃ e, x = .error e ∧ explains q e := by
  induction before with
  | nil =>
    cases x with
    | ok a => exact absurd (h.1 q List.mem_cons_self) hq
    | error e =>
      obtain ⟨before, p, after, heq, hbefore, hp, hexplains⟩ := h
      cases before with
      | nil =>
        obtain ⟨rfl, -⟩ := List.cons.inj heq
        exact ⟨e, rfl, hexplains⟩
      | cons q' before =>
        obtain ⟨rfl, -⟩ := List.cons.inj heq
        exact absurd (hbefore q List.mem_cons_self) hq
  | cons p before ih =>
    have hp : passes p := hbefore p List.mem_cons_self
    exact ih (h.tail hp) fun p' hp' => hbefore p' (List.mem_cons_of_mem p hp')

variable {fault? : ι → Option ε} {e : ε}

/-- Where a check passes unless it finds a fault, a fault decides the verdict. -/
theorem fault (h : fault? q = some e) :
    (Except.error e : Except ε α).Judged (fault? · = none) (fault? · = some ·) (q :: qs) result :=
  .error (by simp [h]) h

/-- The error is the first fault that is found. -/
theorem eq_error_iff
    (h : x.Judged (fault? · = none) (fault? · = some ·) qs result) :
    x = .error e ↔ qs.findSome? fault? = some e := by
  cases x with
  | ok a => simp [List.findSome?_eq_none_iff.2 h.1]
  | error e' =>
    obtain ⟨before, q, after, rfl, hbefore, -, hq⟩ := h
    simp [List.findSome?_append, List.findSome?_eq_none_iff.2 hbefore, hq]

end Judged

/-! ## Two computations side by side -/

/-- Both computations succeed, with related results, or both fail. -/
inductive Agrees (R : α → β → Prop) : Except ε α → Except ε' β → Prop where
  | ok {a : α} {b : β} : R a b → Agrees R (.ok a) (.ok b)
  | error (e : ε) (e' : ε') : Agrees R (.error e) (.error e')

namespace Agrees

variable {γ δ ε₁ ε₁' : Type} {R : α → β → Prop} {S : γ → δ → Prop} {x : Except ε α} {y : Except ε' β}

theorem exists_ok (h : Agrees R x y) {a : α} (hx : x = .ok a) : ∃ b, y = .ok b ∧ R a b := by
  cases h with
  | ok hab =>
    obtain rfl := Except.ok.inj hx
    exact ⟨_, rfl, hab⟩
  | error => cases hx

theorem of_eq {x y : Except ε α} (h : x = y) : Agrees Eq x y := by
  subst h
  cases x with
  | ok a => exact .ok rfl
  | error e => exact .error e e

theorem of_map_eq {f : α → γ} {g : β → γ} {x : Except ε α} {y : Except ε β}
    (h : f <$> x = g <$> y) : Agrees (fun a b => f a = g b) x y := by
  cases x with
  | error e =>
    cases y with
    | error e' => exact .error e e'
    | ok b => cases h
  | ok a =>
    cases y with
    | error e' => cases h
    | ok b => exact .ok (Except.ok.inj h)

/-- The continuations need to agree on the results that there are. -/
theorem bind {f : α → Except ε γ} {g : β → Except ε' δ} (h : Agrees R x y)
    (hfg : ∀ a b, x = .ok a → y = .ok b → R a b → Agrees S (f a) (g b)) :
    Agrees S (x >>= f) (y >>= g) := by
  cases h with
  | ok hab => exact hfg _ _ rfl rfl hab
  | error e e' => exact .error e e'

/-- Continuations of the same result. -/
theorem bind_eq {x : Except ε α} {y : Except ε' α} {f : α → Except ε γ} {g : α → Except ε' δ}
    (h : Agrees Eq x y) (hfg : ∀ a, x = .ok a → Agrees S (f a) (g a)) : Agrees S (x >>= f) (y >>= g) :=
  h.bind fun a _ hx _ hab => hab ▸ hfg a hx

theorem map {f : α → γ} {g : β → δ} (h : Agrees R x y) (hfg : ∀ a b, R a b → S (f a) (g b)) :
    Agrees S (f <$> x) (g <$> y) := by
  cases h with
  | ok hab => exact .ok (hfg _ _ hab)
  | error e e' => exact .error e e'

theorem mapError (h : Agrees R x y) (f : ε → ε₁) (g : ε' → ε₁') :
    Agrees R (x.mapError f) (y.mapError g) := by
  cases h with
  | ok hab => exact .ok hab
  | error e e' => exact .error (f e) (g e')

theorem mapM {f : γ → Except ε α} {g : γ → Except ε' β} {l : List γ}
    (h : ∀ c ∈ l, Agrees R (f c) (g c)) : Agrees (List.Forall₂ R) (l.mapM f) (l.mapM g) := by
  induction l with
  | nil => exact .ok .nil
  | cons c l ih =>
    rw [List.mapM_cons, List.mapM_cons]
    refine (h c List.mem_cons_self).bind fun a b _ _ hab => ?_
    refine (ih fun d hd => h d (List.mem_cons_of_mem c hd)).bind fun as bs _ _ hall => ?_
    exact .ok (.cons hab hall)

theorem forM {f : γ → Except ε Unit} {g : δ → Except ε' Unit} {l : List γ} {k : List δ}
    (hS : List.Forall₂ S l k) (h : ∀ c d, S c d → Agrees Eq (f c) (g d)) :
    Agrees Eq (l.forM f) (k.forM g) := by
  induction hS with
  | nil => exact .ok rfl
  | cons hcd _ ih => exact (h _ _ hcd).bind_eq fun _ _ => ih

end Agrees

end Except
