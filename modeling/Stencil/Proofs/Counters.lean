import Stencil.Proofs.Agreement

/-!
# Loop variables in range

How far the variables of an emitted nest run. Sizes, pads and strides are unbounded, but loop
variables have 32 bits, so a convolution can be accepted that its own loops cannot count.
Which ones stay within their types is decided by a few bounds on the geometry.
-/

namespace Stencil

/-! ## Bounds -/

namespace Window

variable (w : Window)

/-- The output indices of the axis and the places where the kernel begins have 32 bits, also
those one step past the last output. -/
structure OutputsFit : Prop where
  size_lt : w.size < 2 ^ 31
  padBegin_le : w.padBegin ≤ 2 ^ 31
  start_lt : w.start w.size < 2 ^ 31

/-- The kernel indices of the axis and the positions that they cover have 32 bits. -/
structure TapsFit : Prop where
  kernel_lt : w.kernel < 2 ^ 31
  position_lt : w.position (w.size - 1) (w.kernel - 1) < 2 ^ 31

/-- Somewhere along the axis the kernel covers data. -/
def Overlaps : Prop := ∃ output < w.size, ∃ tap < w.kernel, (w.index? output tap).isSome

/-- The loop over the kernel indices at one output can count them and add them up, and the
condition on its body holds if the kernel covers data there. -/
def SumsFit (output : Nat) (fits : Prop) : Prop :=
  w.kernel < 2 ^ 31 ∧ ∀ tap < w.kernel,
    C.CounterType.int32.holds (w.position output tap) ∧ ((w.index? output tap).isSome → fits)

instance : Decidable w.OutputsFit :=
  decidable_of_iff (w.size < 2 ^ 31 ∧ w.padBegin ≤ 2 ^ 31 ∧ w.start w.size < 2 ^ 31)
    ⟨fun ⟨hsize, hpad, hstart⟩ => ⟨hsize, hpad, hstart⟩, fun ⟨hsize, hpad, hstart⟩ => ⟨hsize, hpad, hstart⟩⟩

instance : Decidable w.TapsFit :=
  decidable_of_iff (w.kernel < 2 ^ 31 ∧ w.position (w.size - 1) (w.kernel - 1) < 2 ^ 31)
    ⟨fun ⟨hkernel, hlast⟩ => ⟨hkernel, hlast⟩, fun ⟨hkernel, hlast⟩ => ⟨hkernel, hlast⟩⟩

instance : Decidable w.Overlaps :=
  inferInstanceAs (Decidable (∃ output < w.size, ∃ tap < w.kernel, (w.index? output tap).isSome))

end Window

/-- The loops of the convolution can count, as far as they are reached at all. -/
structure Convolution.CountersFit (c : Convolution) : Prop where
  batch_lt : c.batch < 2 ^ 32
  channelsOut_lt : 0 < c.batch → c.channelsOut < 2 ^ 32
  outputs : 0 < c.batch → 0 < c.channelsOut →
    c.windows.height.OutputsFit ∧ c.windows.width.OutputsFit ∧ c.channelsIn < 2 ^ 32
  taps : 0 < c.batch → 0 < c.channelsOut → 0 < c.channelsIn →
    c.windows.height.TapsFit ∧ (c.windows.height.Overlaps → c.windows.width.TapsFit)

instance (c : Convolution) : Decidable c.CountersFit :=
  decidable_of_iff (c.batch < 2 ^ 32 ∧ (0 < c.batch → c.channelsOut < 2 ^ 32) ∧
      (0 < c.batch → 0 < c.channelsOut →
        c.windows.height.OutputsFit ∧ c.windows.width.OutputsFit ∧ c.channelsIn < 2 ^ 32) ∧
      (0 < c.batch → 0 < c.channelsOut → 0 < c.channelsIn →
        c.windows.height.TapsFit ∧ (c.windows.height.Overlaps → c.windows.width.TapsFit)))
    ⟨fun ⟨hbatch, hout, houtputs, htaps⟩ => ⟨hbatch, hout, houtputs, htaps⟩,
      fun ⟨hbatch, hout, houtputs, htaps⟩ => ⟨hbatch, hout, houtputs, htaps⟩⟩

@[simp] theorem C.CounterType.holds_int32 {value : Int} :
    CounterType.int32.holds value ↔ -2 ^ 31 ≤ value ∧ value < 2 ^ 31 := by
  simp [CounterType.holds]

@[simp] theorem C.CounterType.holds_uint32 {value : Int} :
    CounterType.uint32.holds value ↔ 0 ≤ value ∧ value < 2 ^ 32 := by
  simp [CounterType.holds]

namespace Window

variable {w : Window}

/-- The positions that the kernel covers lie between the first and the last. -/
theorem Regular.holds_position (hw : w.Regular) (hpad : w.padBegin ≤ 2 ^ 31)
    (hlast : w.position (w.size - 1) (w.kernel - 1) < 2 ^ 31) {o k : Nat} (ho : o < w.size)
    (hk : k < w.kernel) : C.CounterType.int32.holds (w.position o k) := by
  have hle : o * w.stride ≤ (w.size - 1) * w.stride := Nat.mul_le_mul_right _ (Nat.le_sub_one_of_lt ho)
  rw [hw.position_eq] at hlast ⊢
  rw [C.CounterType.holds_int32]
  omega

/-- What all outputs of two axes ask of their inner loops comes down to the last positions. -/
theorem forall_sumsFit_iff {height width : Window} (hheight : height.Regular) (hwidth : width.Regular)
    (hpads : height.padBegin ≤ 2 ^ 31 ∧ width.padBegin ≤ 2 ^ 31) :
    (∀ i < height.size, ∀ j < width.size, height.SumsFit i (width.SumsFit j True)) ↔
      height.TapsFit ∧ (height.Overlaps → width.TapsFit) := by
  have hi : height.size - 1 < height.size := Nat.sub_one_lt hheight.size_pos.ne'
  have hj : width.size - 1 < width.size := Nat.sub_one_lt hwidth.size_pos.ne'
  have hk₀ : height.kernel - 1 < height.kernel := Nat.sub_one_lt hheight.kernel_pos.ne'
  have hk₁ : width.kernel - 1 < width.kernel := Nat.sub_one_lt hwidth.kernel_pos.ne'
  constructor
  · intro h
    obtain ⟨hkernel, hsums⟩ := h _ hi _ hj
    have hlast := C.CounterType.holds_int32.1 (hsums _ hk₀).1
    refine ⟨⟨hkernel, hlast.2⟩, ?_⟩
    rintro ⟨i, hi, k, hk, hcovers⟩
    obtain ⟨hkernel', hsums'⟩ := ((h i hi _ hj).2 k hk).2 hcovers
    exact ⟨hkernel', (C.CounterType.holds_int32.1 (hsums' _ hk₁).1).2⟩
  · rintro ⟨htaps, hoverlaps⟩ i hi j hj
    refine ⟨htaps.kernel_lt, fun k hk => ⟨hheight.holds_position hpads.1 htaps.position_lt hi hk, ?_⟩⟩
    intro hcovers
    have htaps' := hoverlaps ⟨i, hi, k, hk, hcovers⟩
    exact ⟨htaps'.kernel_lt, fun k hk =>
      ⟨hwidth.holds_position hpads.2 htaps'.position_lt hj hk, fun _ => trivial⟩⟩

end Window

/-- The bounds of a convolution are what its loops ask for, one inside another. -/
theorem Convolution.Regular.countersFit_iff {c : Convolution} (h : c.Regular) :
    c.CountersFit ↔ c.batch < 2 ^ 32 ∧ (0 < c.batch → c.channelsOut < 2 ^ 32 ∧ (0 < c.channelsOut →
      c.windows.height.OutputsFit ∧ ∀ i < c.windows.height.size,
        c.windows.width.OutputsFit ∧ ∀ j < c.windows.width.size,
          c.channelsIn < 2 ^ 32 ∧ (0 < c.channelsIn →
            c.windows.height.SumsFit i (c.windows.width.SumsFit j True)))) := by
  have hi := h.height.size_pos
  have hj := h.width.size_pos
  constructor
  · rintro ⟨hbatch, hout, houtputs, htaps⟩
    refine ⟨hbatch, fun hb => ⟨hout hb, fun hm => ?_⟩⟩
    obtain ⟨hheight, hwidth, hin⟩ := houtputs hb hm
    refine ⟨hheight, fun i hi => ⟨hwidth, fun j hj => ⟨hin, fun hc => ?_⟩⟩⟩
    exact (Window.forall_sumsFit_iff h.height h.width ⟨hheight.padBegin_le, hwidth.padBegin_le⟩).2
      (htaps hb hm hc) i hi j hj
  · rintro ⟨hbatch, hrest⟩
    refine ⟨hbatch, fun hb => (hrest hb).1, fun hb hm => ?_, fun hb hm hc => ?_⟩
    · obtain ⟨hheight, hinner⟩ := (hrest hb).2 hm
      obtain ⟨hwidth, hcell⟩ := hinner 0 hi
      exact ⟨hheight, hwidth, (hcell 0 hj).1⟩
    · obtain ⟨hheight, hinner⟩ := (hrest hb).2 hm
      have hpads := And.intro hheight.padBegin_le (hinner 0 hi).1.padBegin_le
      refine (Window.forall_sumsFit_iff h.height h.width hpads).1 fun i hi j hj => ?_
      exact ((hinner i hi).2 j hj).2 hc

namespace C

/-! ## Runs -/

namespace State

variable {s : State} {vars vars' : List (String × Int)} {total p q : Prop}

@[simp] theorem inRange_assign {type : CounterType} {name : String} {value : Int} :
    (s.assign type name value).InRange ↔ s.InRange ∧ type.holds value := by
  simp [InRange, assign, or_imp, forall_and]

theorem inRange_congr {t : State} (h : t.taken = s.taken) : t.InRange ↔ s.InRange := by
  rw [InRange, InRange, h]

/-- A run from a state ends if the phases in it are total. Wherever it ends, the loop variables
around it have kept their values, and those in it have stayed in range if and only if the
condition holds. -/
structure Stays (run : State → Option State) (s : State) (vars : List (String × Int))
    (total condition : Prop) : Prop where
  ends : total → (run s).isSome
  keeps : ∀ t, run s = some t → t.Scope vars ∧ (t.InRange ↔ s.InRange ∧ condition)

theorem Stays.mono {run : State → Option State} (h : Stays run s vars total p) (hsub : vars' ⊆ vars) :
    Stays run s vars' total p := by
  refine ⟨h.ends, fun t ht => ?_⟩
  obtain ⟨hscope, hrange⟩ := h.keeps t ht
  exact ⟨hscope.mono hsub, hrange⟩

theorem Stays.congr {run : State → Option State} (h : Stays run s vars total p) (hpq : p ↔ q) :
    Stays run s vars total q := by
  rwa [← propext hpq]

/-- One run after another. -/
theorem Stays.bind {run next : State → Option State} (h : Stays run s vars total p)
    (hnext : ∀ t, t.Scope vars → Stays next t vars' total q) :
    Stays (fun s => run s >>= next) s vars' total (p ∧ q) where
  ends htotal := by
    obtain ⟨t, ht⟩ := Option.isSome_iff_exists.1 (h.ends htotal)
    have hnext := (hnext t (h.keeps t ht).1).ends htotal
    simpa [ht] using hnext
  keeps u hu := by
    obtain ⟨t, ht, hu⟩ := Option.bind_eq_some_iff.1 hu
    obtain ⟨hscope, hrange⟩ := h.keeps t ht
    obtain ⟨huscope, hurange⟩ := (hnext t hscope).keeps u hu
    exact ⟨huscope, by rw [hurange, hrange, and_assoc]⟩

/-- Where the run ends, no loop variable has a new value. -/
def LeavesCounters (run : State → Option State) : Prop :=
  ∀ s t, run s = some t → t.counters = s.counters ∧ t.taken = s.taken

theorem LeavesCounters.stays {run : State → Option State} (h : LeavesCounters run)
    (hends : total → (run s).isSome) (hs : s.Scope vars) : Stays run s vars total True := by
  refine ⟨hends, fun t ht => ?_⟩
  obtain ⟨hcounters, htaken⟩ := h s t ht
  refine ⟨?_, by rw [inRange_congr htaken, and_true]⟩
  intro v hv
  rw [hcounters]
  exact hs v hv

end State

theorem leavesCounters_write? (place : Place) (value : Int32) :
    State.LeavesCounters (·.write? place value) := by
  intro s t ht
  unfold State.write? at ht
  split at ht
  next =>
    obtain rfl := Option.some.inj ht
    exact ⟨rfl, rfl⟩
  next =>
    obtain ⟨⟨array, index⟩, -, ht⟩ := Option.bind_eq_some_iff.1 ht
    dsimp only at ht
    split at ht
    next =>
      obtain rfl := Option.some.inj ht
      exact ⟨rfl, rfl⟩
    next => cases ht

/-- Statements read loop variables, but do not write them. -/
theorem leavesCounters_exec? (stmt : Stmt) : State.LeavesCounters (stmt.exec? ·) := by
  intro s t ht
  cases stmt with
  | declare type name value =>
    obtain ⟨word, -, ht⟩ := Option.bind_eq_some_iff.1 ht
    obtain ⟨converted, -, ht⟩ := Option.bind_eq_some_iff.1 ht
    exact leavesCounters_write? _ _ s t ht
  | assign target value =>
    obtain ⟨word, -, ht⟩ := Option.bind_eq_some_iff.1 ht
    exact leavesCounters_write? _ _ s t ht
  | addTo target value =>
    obtain ⟨old, -, ht⟩ := Option.bind_eq_some_iff.1 ht
    obtain ⟨word, -, ht⟩ := Option.bind_eq_some_iff.1 ht
    exact leavesCounters_write? _ _ s t ht

theorem leavesCounters_execAll? (stmts : List Stmt) : State.LeavesCounters (execAll? stmts) := by
  induction stmts with
  | nil =>
    intro s t ht
    obtain rfl := Option.some.inj ht
    exact ⟨rfl, rfl⟩
  | cons stmt stmts ih =>
    intro s u hu
    obtain ⟨t, ht, hu⟩ := Option.bind_eq_some_iff.1 hu
    obtain ⟨hcounters, htaken⟩ := leavesCounters_exec? stmt s t ht
    obtain ⟨hcounters', htaken'⟩ := ih t u hu
    exact ⟨hcounters'.trans hcounters, htaken'.trans htaken⟩

/-! ## Loops -/

namespace Loop

variable {l : Loop} {body : State → Option State} {vars : List (String × Int)} {s : State}
variable {total fits : Prop}

/-- The variables of the loop can have their values in the iteration. -/
def Holds (l : Loop) (iteration : Nat) : Prop := ∀ v ∈ l.valuesAt iteration, l.type.holds v.2

@[simp] theorem inRange_enterState (iteration : Nat) (s : State) :
    (l.enterState iteration s).InRange ↔ s.InRange ∧ l.Holds iteration := by
  have hfoldl : ∀ (values : List (String × Int)) (s : State),
      (values.foldl (fun s v => s.assign l.type v.1 v.2) s).InRange ↔
        s.InRange ∧ ∀ v ∈ values, l.type.holds v.2 := by
    intro values
    induction values with
    | nil => simp
    | cons v values ih =>
      intro s
      rw [List.foldl_cons, ih, State.inRange_assign, and_assoc, List.forall_mem_cons]
  exact hfoldl (l.valuesAt iteration) s

/-- A loop stays in range if its variables can have their values in all iterations and one step past
the last, and every iteration stays in range. -/
theorem stays_exec? {fits : Nat → Prop} (hfresh : ∀ name ∈ l.names, name ∉ vars.map Prod.fst)
    (hnodup : l.names.Nodup)
    (hbody : ∀ k < l.bound, ∀ s, s.Scope ((l.valuesAt k).reverse ++ vars) →
      State.Stays (guarded? l.guard body) s vars total (fits k)) (hs : s.Scope vars) :
    State.Stays (l.exec? body) s vars total ((∀ k ≤ l.bound, l.Holds k) ∧ ∀ k < l.bound, fits k) := by
  let iterations (n : Nat) (s : State) : Option State :=
    (List.range n).foldlM (fun s k => guarded? l.guard body (l.enterState k s)) s
  have hrun : ∀ n ≤ l.bound,
      State.Stays (iterations n) s vars total ((∀ k < n, l.Holds k) ∧ ∀ k < n, fits k) := by
    -- Induction on the number of iterations that have been done.
    intro n
    induction n with
    | zero =>
      refine fun _ => ⟨fun _ => rfl, fun t ht => ?_⟩
      obtain rfl := Option.some.inj ht
      exact ⟨hs, by simp⟩
    | succ n ih =>
      intro hn
      have hstep : ∀ t, t.Scope vars →
          State.Stays (fun t => guarded? l.guard body (l.enterState n t)) t vars total (l.Holds n ∧ fits n) := by
        intro t ht
        have hiteration := hbody n hn _ (enterState_scope ht hfresh hnodup n)
        refine ⟨hiteration.ends, fun u hu => ?_⟩
        obtain ⟨hscope, hrange⟩ := hiteration.keeps u hu
        exact ⟨hscope, by rw [hrange, inRange_enterState, and_assoc]⟩
      have hsucc : iterations (n + 1) =
          fun s => iterations n s >>= fun t => guarded? l.guard body (l.enterState n t) := by
        funext s
        simp [iterations, List.range_succ]
      rw [hsucc]
      refine ((ih (Nat.le_of_succ_le hn)).bind hstep).congr ?_
      simp only [Nat.forall_lt_succ_right]
      tauto
  have hleave : ∀ t, t.Scope vars →
      State.Stays (fun t => some (l.enterState l.bound t)) t vars total (l.Holds l.bound) := by
    intro t ht
    refine ⟨fun _ => rfl, fun u hu => ?_⟩
    obtain rfl := Option.some.inj hu
    exact ⟨(enterState_scope ht hfresh hnodup _).mono (List.subset_append_right _ _), inRange_enterState _ _⟩
  refine ((hrun l.bound le_rfl).bind hleave).congr ?_
  simp only [← Nat.lt_succ_iff, Nat.forall_lt_succ_right]
  tauto

theorem forall_le_lt_iff {n m : Nat} : (∀ k ≤ n, k < m) ↔ n < m :=
  ⟨fun h => h n le_rfl, fun h _ hk => hk.trans_lt h⟩

/-- A plain loop, with iterations that are all alike. -/
theorem stays_count {counter : String} {bound : Nat} (hfresh : counter ∉ vars.map Prod.fst)
    (hbody : ∀ k < bound, ∀ s, s.Scope ((counter, (k : Int)) :: vars) → State.Stays body s vars total fits)
    (hs : s.Scope vars) :
    State.Stays ((count counter bound).exec? body) s vars total (bound < 2 ^ 32 ∧ (0 < bound → fits)) := by
  have hholds : ∀ k, (count counter bound).Holds k ↔ k < 2 ^ 32 := by
    intro k
    simp only [Holds, count, valuesAt, Option.map_none, Option.toList_none, List.forall_mem_singleton,
      CounterType.holds_uint32]
    omega
  have hstays : State.Stays ((count counter bound).exec? body) s vars total _ :=
    stays_exec? (by simpa [names, count] using hfresh) (List.nodup_singleton counter) hbody hs
  refine hstays.congr ?_
  simp only [hholds, forall_le_lt_iff]
  exact and_congr Iff.rfl ⟨fun h hpos => h 0 hpos, fun h k hk => h (Nat.zero_lt_of_lt hk)⟩

/-- The loop over the outputs of an axis. -/
theorem stays_outputs {axis : String} {w : Window} {fits : Nat → Prop}
    (hcounter : "o" ++ axis ∉ vars.map Prod.fst) (hfollower : "i" ++ axis ∉ vars.map Prod.fst)
    (hbody : ∀ k < w.size, ∀ s, s.Scope (("i" ++ axis, w.start k) :: ("o" ++ axis, (k : Int)) :: vars) →
      State.Stays body s vars total (fits k))
    (hs : s.Scope vars) :
    State.Stays ((outputs axis w).exec? body) s vars total (w.OutputsFit ∧ ∀ k < w.size, fits k) := by
  have hfresh : ∀ name ∈ (outputs axis w).names, name ∉ vars.map Prod.fst := by
    rw [names_outputs, List.forall_mem_cons, List.forall_mem_singleton]
    exact ⟨hcounter, hfollower⟩
  have hstays : State.Stays ((outputs axis w).exec? body) s vars total
      ((∀ k ≤ w.size, (outputs axis w).Holds k) ∧ ∀ k < w.size, fits k) := by
    refine stays_exec? hfresh (by simp [names_outputs]) ?_ hs
    intro k hk s hs
    rw [valuesAt_outputs] at hs
    exact hbody k hk s hs
  refine hstays.congr (and_congr_left' ?_)
  have hholds : ∀ k, (outputs axis w).Holds k ↔
      (k : Int) < 2 ^ 31 ∧ -2 ^ 31 ≤ w.start k ∧ w.start k < 2 ^ 31 := by
    intro k
    rw [Holds, valuesAt_outputs, List.forall_mem_cons, List.forall_mem_singleton]
    simp only [outputs, CounterType.holds_int32]
    omega
  simp only [hholds]
  constructor
  · intro h
    have hfirst := h 0 (Nat.zero_le _)
    have hlast := h w.size le_rfl
    exact ⟨by omega, by simp only [Window.start] at hfirst; omega, hlast.2.2⟩
  · intro h k hk
    have hle := Nat.mul_le_mul_right w.stride hk
    obtain ⟨hsize, hpad, hlast⟩ := h
    simp only [Window.start] at hlast ⊢
    omega

/-- The loop over the kernel indices of an axis. -/
theorem stays_taps {axis : String} {w : Window} (hw : w.Regular) {o : Nat}
    (hcounter : "k" ++ axis ∉ vars.map Prod.fst) (hsum : "ii" ++ axis ∉ vars.map Prod.fst)
    (hstart : ("i" ++ axis, w.start o) ∈ vars)
    (hbody : ∀ k < w.kernel, ∀ i, w.index? o k = some i → ∀ s,
      s.Scope (("ii" ++ axis, (i : Int)) :: ("k" ++ axis, (k : Int)) :: vars) →
      State.Stays body s vars total fits)
    (hs : s.Scope vars) :
    State.Stays ((taps axis w).exec? body) s vars total (w.SumsFit o fits) := by
  have hholds : ∀ k, (taps axis w).Holds k ↔ k < 2 ^ 31 := by
    intro k
    simp only [Holds, taps, valuesAt, Option.map_none, Option.toList_none, List.forall_mem_singleton,
      CounterType.holds_int32]
    omega
  have hstays : State.Stays ((taps axis w).exec? body) s vars total
      ((∀ k ≤ w.kernel, (taps axis w).Holds k) ∧ ∀ k < w.kernel,
        CounterType.int32.holds (w.position o k) ∧ ((w.index? o k).isSome → fits)) := by
    refine stays_exec? (by simpa [names, taps] using hcounter) (List.nodup_singleton _) ?_ hs
    intro k hk s hs
    have hfresh : "ii" ++ axis ∉ ((("k" ++ axis, (k : Int)) :: vars).map Prod.fst) := by
      simpa using hsum
    let summed := s.assign .int32 ("ii" ++ axis) (w.position o k)
    have hscope : summed.Scope _ := State.Scope.assign hs hfresh .int32 (w.position o k)
    have hguard : guarded? (taps axis w).guard body s = _ :=
      guarded?_taps hw (hs _ (List.mem_cons_of_mem _ hstart)) (hs _ List.mem_cons_self)
    cases hindex : w.index? o k with
    | none =>
      rw [hindex] at hguard
      refine ⟨fun _ => by simp [hguard], fun t ht => ?_⟩
      obtain rfl := Option.some.inj (hguard.symm.trans ht)
      refine ⟨hscope.mono ?_, by simp⟩
      exact fun v hv => List.mem_cons_of_mem _ (List.mem_cons_of_mem _ hv)
    | some i =>
      rw [hindex] at hguard
      rw [(Window.index?_eq_some.1 hindex).1] at hscope
      have hstays := hbody k hk i hindex summed hscope
      refine ⟨fun htotal => hguard ▸ hstays.ends htotal, fun t ht => ?_⟩
      obtain ⟨htscope, hrange⟩ := hstays.keeps t (hguard.symm.trans ht)
      refine ⟨htscope, ?_⟩
      rw [hrange, State.inRange_assign, and_assoc]
      simp
  refine hstays.congr ?_
  simp only [hholds, forall_le_lt_iff, Window.SumsFit]

end Loop

/-! ## Nests -/

namespace Nest

variable {c : Convolution} {α : Type} {phase : α → State → Option State} {s : State}

/-- A nest around phases that leave the loop variables alone stays in range under the bounds
of its convolution, and it ends if the phases always do. -/
theorem stays_exec? (hreg : c.Regular) (hphase : ∀ a, State.LeavesCounters (phase a))
    (before each after : α) (s : State) :
    State.Stays ((ofConvolution c before each after).exec? phase) s [] (∀ a s, (phase a s).isSome)
      c.CountersFit := by
  have hstays : ∀ a (vars : List (String × Int)) (s : State), s.Scope vars →
      State.Stays (phase a) s vars (∀ a s, (phase a s).isSome) True :=
    fun a _ s hs => (hphase a).stays (fun htotal => htotal a s) hs
  refine State.Stays.congr ?_ hreg.countersFit_iff.symm
  refine Loop.stays_count (by simp) ?_ (fun v hv => nomatch hv)
  intro b hb s hs
  refine (Loop.stays_count (by simp) ?_ hs).mono (List.subset_cons_self _ _)
  intro m hm s hs
  refine (Loop.stays_outputs (by simp) (by simp) ?_ hs).mono (List.subset_cons_self _ _)
  intro i hi s hs
  refine (Loop.stays_outputs (by simp) (by simp) ?_ hs).mono
    (List.subset_cons_of_subset _ (List.subset_cons_self _ _))
  intro j hj s hs
  have hinner : ∀ s : State, s.Scope (cellScope c b m i j) →
      State.Stays (execLoops? (ofConvolution c before each after).inner (phase each)) s (cellScope c b m i j)
        (∀ a s, (phase a s).isSome) (c.channelsIn < 2 ^ 32 ∧ (0 < c.channelsIn →
          c.windows.height.SumsFit i (c.windows.width.SumsFit j True))) := by
    intro s hs
    refine Loop.stays_count (by simp [cellScope]) ?_ hs
    intro channel hc s hs
    refine (Loop.stays_taps hreg.height (by simp [cellScope]) (by simp [cellScope])
      (by simp [cellScope]) ?_ hs).mono (List.subset_cons_self _ _)
    intro k₀ hk₀ i₀ hi₀ s hs
    refine (Loop.stays_taps hreg.width (by simp [cellScope]) (by simp [cellScope])
      (by simp [cellScope]) ?_ hs).mono (List.subset_cons_of_subset _ (List.subset_cons_self _ _))
    intro k₁ hk₁ i₁ hi₁ s hs
    exact (hstays each _ s hs).mono (List.subset_cons_of_subset _ (List.subset_cons_self _ _))
  have hcell := (hstays before _ s hs).bind fun s hs => (hinner s hs).bind fun s hs => hstays after _ s hs
  refine (hcell.mono (List.subset_cons_of_subset _ (List.subset_cons_self _ _))).congr ?_
  rw [true_and, and_true]

end Nest

end C

/-- The body of an integer routine can be run to its end if and only if its loops can count. -/
theorem Routine.run?_isSome_iff {n : Node} {quantize : Bool} {r : Routine}
    (h : n.integerRoutine quantize = .ok r)
    (hshape : ∀ t, n.input? 2 = some t → t.shape = [] ∨ t.shape = [1]) {data weights : List Int32}
    {zero : Int32} (hzero : n.input? 2 = none → zero = 0) {outputs : List Int32}
    (hdata : data.length = r.data.size) (hweights : weights.length = r.weights.size)
    (houtputs : outputs.length = r.output.size) :
    (r.nest.run? (r.start data weights zero outputs)).isSome ↔ r.convolution.CountersFit := by
  obtain ⟨hresolves, -⟩ := Node.integerRoutine_eq_ok h
  obtain ⟨hreg, -⟩ := Node.convolution_eq_ok hresolves.convolution_eq
  obtain ⟨values, t, -, hexec, -⟩ := exec?_nest_start h hshape hzero hdata hweights houtputs
  have hstays := C.Nest.stays_exec? hreg C.leavesCounters_execAll? r.arithmetic.before r.arithmetic.each
    r.arithmetic.after (r.start data weights zero outputs)
  obtain ⟨-, hrange⟩ := hstays.keeps t hexec
  have hstart : (r.start data weights zero outputs).InRange := fun v hv => nomatch hv
  rw [C.Nest.run?, hexec, Option.filter_some]
  simp [hrange, hstart]

example : offsetRoutine.convolution.CountersFit := by decide

/-- The printed loops of an accepted convolution end over exact integers, whatever is computed in
them. Every value that a loop variable or an index sum takes meanwhile fits its type if and only
if the bounds of the convolution are met; being accepted does not imply them. -/
theorem Node.loops_inRange_iff {n : Node} {c : Convolution} (h : n.convolution = .ok c) {α : Type}
    {phase : α → C.State → Option C.State} (hphase : ∀ a, C.State.LeavesCounters (phase a))
    (before each after : α) {s : C.State} (hs : s.InRange) :
    ((∀ a s, (phase a s).isSome) → ((C.Nest.ofConvolution c before each after).exec? phase s).isSome) ∧
      ∀ t, (C.Nest.ofConvolution c before each after).exec? phase s = some t →
        (t.InRange ↔ c.CountersFit) := by
  obtain ⟨hreg, -⟩ := Node.convolution_eq_ok h
  have hstays := C.Nest.stays_exec? hreg hphase before each after s
  refine ⟨hstays.ends, fun t ht => ?_⟩
  obtain ⟨-, hrange⟩ := hstays.keeps t ht
  rw [hrange, and_iff_right hs]

/-- Before anything has run. -/
def C.State.initial : C.State where
  words _ := none
  arrays _ := none
  counters _ := none

/-- One element behind so many rows of padding that a 32-bit counter never gets to the last one. -/
def deepPadNode : Node where
  operator := .convInteger
  name := "deep_pad"
  inputs := [some ⟨"x", .uint8, [1, 1, 1, 1]⟩, some ⟨"w", .int8, [1, 1, 1, 1]⟩]
  outputs := ["y"]
  attributes := [("pads", .ints [2147483648, 0, 0, 0])]

def deepPadConvolution : Convolution where
  batch := 1
  channelsIn := 1
  channelsOut := 1
  windows := ⟨⟨⟨1, 1, 1, 1⟩, 2147483648, 0⟩, ⟨⟨1, 1, 1, 1⟩, 0, 0⟩⟩
  group := 1
  autoPad := .notSet

theorem deepPadNode_leaves_range :
    deepPadNode.convolution = .ok deepPadConvolution ∧
      ∃ t, (C.Nest.ofConvolution deepPadConvolution () () ()).exec? (fun _ s => some s) .initial = some t ∧
        ¬ t.InRange := by
  have hnode : deepPadNode.convolution = .ok deepPadConvolution := rfl
  have hphase : ∀ _ : Unit, C.State.LeavesCounters some := by
    rintro - s t ⟨⟩
    exact ⟨rfl, rfl⟩
  obtain ⟨hends, hrange⟩ :=
    Node.loops_inRange_iff hnode hphase () () () (s := .initial) (fun v hv => nomatch hv)
  obtain ⟨t, ht⟩ := Option.isSome_iff_exists.1 (hends fun _ _ => rfl)
  have hcounters : ¬ deepPadConvolution.CountersFit := by
    intro h
    have hheight := (h.outputs (by decide) (by decide)).1
    exact absurd hheight.size_lt (by decide)
  exact ⟨hnode, t, ht, (hrange t ht).not.2 hcounters⟩

/-- One output, with a stride that leads from it past the 32-bit positions. -/
def longStrideNode : Node where
  operator := .convInteger
  name := "long_stride"
  inputs := [some ⟨"x", .uint8, [1, 1, 1, 1]⟩, some ⟨"w", .int8, [1, 1, 1, 1]⟩]
  outputs := ["y"]
  attributes := [("strides", .ints [2147483648, 1])]

def longStrideRoutine : Routine where
  name := "long_stride"
  data := ⟨"x", .uint8, [1, 1, 1, 1]⟩
  weights := ⟨"w", .int8, [1, 1, 1, 1]⟩
  convolution := ⟨1, 1, 1, ⟨⟨⟨1, 1, 2147483648, 1⟩, 0, 0⟩, ⟨⟨1, 1, 1, 1⟩, 0, 0⟩⟩, 1, .notSet⟩
  arithmetic := .integer (.literal 0) none
  output := ⟨"y", .int32, [1, 1, 1, 1]⟩

theorem longStrideRoutine_leaves_range :
    longStrideNode.integerRoutine false = .ok longStrideRoutine ∧
      ∃ t, longStrideRoutine.nest.exec? C.execAll? (longStrideRoutine.start [7] [3] 0 [0]) = some t ∧
        (.int32, 2147483648) ∈ t.taken ∧ ¬ t.InRange := by
  have hnode : longStrideNode.integerRoutine false = .ok longStrideRoutine := rfl
  have hrun : (longStrideRoutine.nest.exec? C.execAll? (longStrideRoutine.start [7] [3] 0 [0])).any
      fun t => (.int32, 2147483648) ∈ t.taken := by
    decide +kernel
  obtain ⟨t, ht, htaken⟩ := (Option.any_eq_true _ _).1 hrun
  have hmem := of_decide_eq_true htaken
  exact ⟨hnode, t, ht, hmem, fun hrange => absurd (hrange _ hmem) (by decide)⟩

end Stencil
