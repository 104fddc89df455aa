import Mathlib.Data.List.Nodup
import Stencil.C.Meaning
import Stencil.Proofs.Geometry
import Stencil.Proofs.RowMajor

/-!
# Running loop nests

A loop runs as a fold over its iterations, as long as its body keeps the loop variables
around it. Where the iterations take items in turn, from one condition on memory to the next,
the whole loop takes the items of all its iterations.
-/

namespace Stencil.C

/-! ## Scopes -/

/-- The given loop variables have the given values. -/
def State.Scope (vars : List (String × Int)) (s : State) : Prop :=
  ∀ v ∈ vars, s.counters v.1 = some v.2

namespace State

variable {s : State} {vars : List (String × Int)}

theorem Scope.mono {vars' : List (String × Int)} (h : s.Scope vars) (hsub : vars' ⊆ vars) :
    s.Scope vars' :=
  fun v hv => h v (hsub hv)

@[simp] theorem toMemory_assign (type : CounterType) (name : String) (value : Int) :
    (s.assign type name value).toMemory = s.toMemory := rfl

/-- A new variable joins the scope. -/
theorem Scope.assign (h : s.Scope vars) {name : String} (hfresh : name ∉ vars.map Prod.fst)
    (type : CounterType) (value : Int) : (s.assign type name value).Scope ((name, value) :: vars) := by
  intro v hv
  rcases List.mem_cons.1 hv with rfl | hv
  · exact Env.set_same _ _ _
  · have hne : v.1 ≠ name := fun heq => hfresh (heq ▸ List.mem_map_of_mem hv)
    rw [← h v hv]
    exact Env.set_other _ _ hne

/-- A run from a state ends, the loop variables around it have kept their values, and memory
satisfies a condition. -/
def Ends (run : State → Option State) (s : State) (vars : List (String × Int)) (Q : Memory → Prop) :
    Prop :=
  ∃ t, run s = some t ∧ t.Scope vars ∧ Q t.toMemory

theorem Ends.mono {run : State → Option State} {vars' : List (String × Int)} {Q : Memory → Prop}
    (h : Ends run s vars Q) (hsub : vars' ⊆ vars) : Ends run s vars' Q := by
  obtain ⟨t, ht, hscope, hQ⟩ := h
  exact ⟨t, ht, hscope.mono hsub, hQ⟩

/-- One run after another. -/
theorem Ends.bind {run next : State → Option State} {vars' : List (String × Int)} {Q R : Memory → Prop}
    (h : Ends run s vars Q) (hnext : ∀ t, t.Scope vars → Q t.toMemory → Ends next t vars' R) :
    Ends (fun s => run s >>= next) s vars' R := by
  obtain ⟨t, ht, hscope, hQ⟩ := h
  obtain ⟨u, hu, huscope, hR⟩ := hnext t hscope hQ
  exact ⟨u, by simp [ht, hu], huscope, hR⟩

/-- A run from a state takes items in turn: a condition that each step carries on over one more of them
holds in the end, and the loop variables around the run have kept their values. -/
def Takes {β : Type} (run : State → Option State) (s : State) (vars : List (String × Int)) (items : List β)
    (Step : β → (Memory → Prop) → (Memory → Prop) → Prop) : Prop :=
  ∀ P : Memory → List β → Prop,
    (∀ done item, done ++ [item] <+: items → Step item (P · done) (P · (done ++ [item]))) →
      P s.toMemory [] → Ends run s vars (P · items)

theorem Takes.mono {β : Type} {run : State → Option State} {vars' : List (String × Int)} {items : List β}
    {Step : β → (Memory → Prop) → (Memory → Prop) → Prop} (h : Takes run s vars items Step) (hsub : vars' ⊆ vars) :
    Takes run s vars' items Step :=
  fun P hstep hP => (h P hstep hP).mono hsub

end State

/-! ## Loops -/

namespace Loop

variable {l : Loop}

/-- The names that the loop gives values to when an iteration begins. -/
def names (l : Loop) : List String := l.counter :: (l.follower.map Follower.name).toList

@[simp] theorem toMemory_enterState (iteration : Nat) (s : State) :
    (l.enterState iteration s).toMemory = s.toMemory := by
  cases h : l.follower <;> simp [enterState, valuesAt, h]

/-- On entry the loop's own variables join those around it. -/
theorem enterState_scope {s : State} {vars : List (String × Int)} (h : s.Scope vars)
    (hfresh : ∀ name ∈ l.names, name ∉ vars.map Prod.fst) (hnodup : l.names.Nodup) (iteration : Nat) :
    (l.enterState iteration s).Scope ((l.valuesAt iteration).reverse ++ vars) := by
  have hcounter : l.counter ∉ vars.map Prod.fst := hfresh _ List.mem_cons_self
  cases hf : l.follower with
  | none =>
    simp only [enterState, valuesAt, hf, Option.map_none, Option.toList_none, List.foldl_cons,
      List.foldl_nil, List.reverse_singleton]
    exact h.assign hcounter _ _
  | some f =>
    have hname : f.name ∉ vars.map Prod.fst := hfresh _ (by simp [names, hf])
    have hne : l.counter ≠ f.name := by simpa [names, hf] using hnodup
    simp only [enterState, valuesAt, hf, Option.map_some, Option.toList_some, List.foldl_cons,
      List.foldl_nil, List.reverse_cons, List.reverse_nil, List.nil_append, List.singleton_append]
    refine (h.assign hcounter _ _).assign ?_ _ _
    rw [List.map_cons, List.mem_cons, not_or]
    exact ⟨hne.symm, hname⟩

variable {β : Type} {body : State → Option State} {vars : List (String × Int)} {s : State}
variable {Step : β → (Memory → Prop) → (Memory → Prop) → Prop}

/-- A loop takes the items of its iterations. The body may change its own variables, but none around it. -/
theorem takes_of_body {g : Nat → List β} (hfresh : ∀ name ∈ l.names, name ∉ vars.map Prod.fst)
    (hnodup : l.names.Nodup)
    (hbody : ∀ k < l.bound, ∀ s, s.Scope ((l.valuesAt k).reverse ++ vars) →
      State.Takes (guarded? l.guard body) s vars (g k) Step)
    (hs : s.Scope vars) : State.Takes (l.exec? body) s vars ((List.range l.bound).flatMap g) Step := by
  intro P hstep hP
  have hrun : ∀ n ≤ l.bound, ∃ t,
      (List.range n).foldlM (fun s k => guarded? l.guard body (l.enterState k s)) s = some t ∧
        t.Scope vars ∧ P t.toMemory ((List.range n).flatMap g) := by
    -- Induction on the number of iterations that have been done.
    intro n
    induction n with
    | zero => exact fun _ => ⟨s, rfl, hs, hP⟩
    | succ n ih =>
      intro hn
      obtain ⟨t, ht, hscope, hP⟩ := ih (Nat.le_of_succ_le hn)
      have hsucc : (List.range (n + 1)).flatMap g = (List.range n).flatMap g ++ g n := by
        simp [List.range_succ]
      -- What is taken up to the end of this iteration is a part of all items.
      have hitems : (List.range n).flatMap g ++ g n <+: (List.range l.bound).flatMap g := by
        rw [← hsucc]
        refine List.IsPrefix.flatMap ?_ g
        rw [List.prefix_iff_eq_take, List.length_range, List.take_range, Nat.min_eq_left hn]
      have hiteration := hbody n hn _ (enterState_scope hscope hfresh hnodup n)
        (fun m items => P m ((List.range n).flatMap g ++ items))
      obtain ⟨u, hu, huscope, huP⟩ : State.Ends (guarded? l.guard body) (l.enterState n t) vars
          (P · ((List.range n).flatMap g ++ g n)) := by
        refine hiteration (fun done item hdone => ?_) ?_
        · rw [← List.append_assoc]
          apply hstep
          rw [List.append_assoc]
          exact ((List.prefix_append_right_inj _).2 hdone).trans hitems
        · rwa [toMemory_enterState, List.append_nil]
      refine ⟨u, ?_, huscope, hsucc ▸ huP⟩
      simp [List.range_succ, List.foldlM_append, ht, hu]
  obtain ⟨t, ht, hscope, hP⟩ := hrun l.bound le_rfl
  refine ⟨l.enterState l.bound t, ?_, ?_, ?_⟩
  · simp [exec?, ht]
  · exact (enterState_scope hscope hfresh hnodup _).mono (List.subset_append_right _ _)
  · rwa [toMemory_enterState]

/-- A plain loop over indices. -/
theorem takes_count {counter : String} {bound : Nat} {g : Nat → List β} (hfresh : counter ∉ vars.map Prod.fst)
    (hbody : ∀ k < bound, ∀ s, s.Scope ((counter, (k : Int)) :: vars) → State.Takes body s vars (g k) Step)
    (hs : s.Scope vars) :
    State.Takes ((count counter bound).exec? body) s vars ((List.range bound).flatMap g) Step :=
  takes_of_body (by simpa [names, count] using hfresh) (List.nodup_singleton counter) hbody hs

theorem names_outputs (axis : String) (w : Window) :
    (outputs axis w).names = ["o" ++ axis, "i" ++ axis] := rfl

/-- The second variable is the place where the kernel begins. -/
theorem valuesAt_outputs (axis : String) (w : Window) (k : Nat) :
    (outputs axis w).valuesAt k = [("o" ++ axis, (k : Int)), ("i" ++ axis, w.start k)] := by
  have hstart : -(w.padBegin : Int) + k * w.stride = w.start k := by
    rw [Window.start]
    push_cast
    ring
  rw [← hstart]
  rfl

/-- The loop over the outputs of an axis, with the place where the kernel begins. -/
theorem takes_outputs {axis : String} {w : Window} {g : Nat → List β}
    (hcounter : "o" ++ axis ∉ vars.map Prod.fst) (hfollower : "i" ++ axis ∉ vars.map Prod.fst)
    (hbody : ∀ k < w.size, ∀ s, s.Scope (("i" ++ axis, w.start k) :: ("o" ++ axis, (k : Int)) :: vars) →
      State.Takes body s vars (g k) Step)
    (hs : s.Scope vars) :
    State.Takes ((outputs axis w).exec? body) s vars ((List.range w.size).flatMap g) Step := by
  refine takes_of_body ?_ ?_ ?_ hs
  · rw [names_outputs, List.forall_mem_cons, List.forall_mem_singleton]
    exact ⟨hcounter, hfollower⟩
  · simp [names_outputs]
  · intro k hk s hs
    rw [valuesAt_outputs] at hs
    exact hbody k hk s hs

/-- The guard tests the position of a tap in the unpadded input, and lets the taps pass that
cover data. -/
theorem guarded?_taps {axis : String} {w : Window} (hw : w.Regular) {o k : Nat}
    (hstart : s.counters ("i" ++ axis) = some (w.start o))
    (hcounter : s.counters ("k" ++ axis) = some (k : Int)) :
    guarded? (taps axis w).guard body s =
      let summed := s.assign .int32 ("ii" ++ axis) (w.position o k)
      match w.index? o k with
      | none => some summed
      | some _ => body summed := by
  have hposition : w.start o + k = w.position o k := by
    simp [Window.position, hw.dilation_eq]
  have hguard : guarded? (taps axis w).guard body s =
      let summed := s.assign .int32 ("ii" ++ axis) (w.position o k)
      if w.position o k < 0 ∨ (w.input : Int) ≤ w.position o k then some summed else body summed := by
    simp [guarded?, taps, hstart, hcounter, hposition]
  rw [hguard]
  cases hindex : w.index? o k with
  | none => exact if_pos (Window.index?_eq_none.1 hindex)
  | some i =>
    obtain ⟨hi, hlt⟩ := Window.index?_eq_some.1 hindex
    exact if_neg (by omega)

/-- The loop over the kernel positions of an axis skips those in the padding. -/
theorem takes_taps {axis : String} {w : Window} (hw : w.Regular) {o : Nat} {g : Nat → Nat → List β}
    (hcounter : "k" ++ axis ∉ vars.map Prod.fst) (hsum : "ii" ++ axis ∉ vars.map Prod.fst)
    (hstart : ("i" ++ axis, w.start o) ∈ vars)
    (hbody : ∀ k < w.kernel, ∀ i, w.index? o k = some i → ∀ s,
      s.Scope (("ii" ++ axis, (i : Int)) :: ("k" ++ axis, (k : Int)) :: vars) →
      State.Takes body s vars (g k i) Step)
    (hs : s.Scope vars) :
    State.Takes ((taps axis w).exec? body) s vars
      ((List.range w.kernel).flatMap fun k => match w.index? o k with | none => [] | some i => g k i) Step := by
  refine takes_of_body (by simpa [names, taps] using hcounter) (List.nodup_singleton _) ?_ hs
  intro k hk s hs P hstep hP
  have hfresh : "ii" ++ axis ∉ ((("k" ++ axis, (k : Int)) :: vars).map Prod.fst) := by
    simpa using hsum
  have hscope := State.Scope.assign hs hfresh .int32 (w.position o k)
  unfold State.Ends
  rw [guarded?_taps hw (hs _ (List.mem_cons_of_mem _ hstart)) (hs _ List.mem_cons_self)]
  cases hindex : w.index? o k with
  | none =>
    -- The iteration ends at the guard, and the sum goes out of scope.
    refine ⟨_, rfl, hscope.mono ?_, hP⟩
    exact fun v hv => List.mem_cons_of_mem _ (List.mem_cons_of_mem _ hv)
  | some i =>
    rw [hindex] at hstep
    rw [(Window.index?_eq_some.1 hindex).1] at hscope ⊢
    exact hbody k hk i hindex _ hscope P hstep hP

end Loop

end Stencil.C
