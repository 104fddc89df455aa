import Stencil.Proofs.Counters
import Stencil.Proofs.Attributes
import Stencil.Proofs.Padding

/-!
# What the windows cover

Under a `SAME` policy no window lies in the padding as a whole. Without padding all of every
window lies on the data: the evaluator then leaves out no tap, and the guards in the emitted
loops let every iteration pass.
-/

namespace Stencil

/-! ## Positions on the data -/

namespace Window

variable {w : Window}

/-- The kernel index at the output index lies on an element of the data. -/
def Inside (w : Window) (output tap : Nat) : Prop :=
  0 ≤ (output * w.stride - w.padBegin + tap : Int) ∧ (output * w.stride - w.padBegin + tap : Int) < w.input

/-- The pads are shorter than the kernel, and every window has an element of the data in it. -/
structure Covers (w : Window) : Prop where
  padBegin_le : w.padBegin ≤ w.kernel - 1
  padEnd_le : w.padEnd ≤ w.kernel - 1
  exists_inside : ∀ output < w.size, ∃ tap < w.kernel, w.Inside output tap

/-- All of every window lies on the data. -/
def Full (w : Window) : Prop := ∀ output < w.size, ∀ tap < w.kernel, w.Inside output tap

/-- An axis without pads has room for its windows only on the data. -/
theorem Regular.full (h : w.Regular) (hpads : w.padBegin = 0 ∧ w.padEnd = 0) : w.Full := by
  intro output houtput tap htap
  have hend := h.filled.end_le houtput
  have hcast : (output * w.stride : Int) = (output * w.stride : Nat) := by push_cast; rfl
  rw [Inside, hcast]
  omega

/-- Where all of every window lies on the data, the first one begins with it. -/
theorem Full.index?_eq (h : w.Full) (hreg : w.Regular) {output tap : Nat} (houtput : output < w.size)
    (htap : tap < w.kernel) : w.index? output tap = some (output * w.stride + tap) := by
  have hfirst := (h 0 hreg.size_pos 0 hreg.kernel_pos).1
  have hlt := (h output houtput tap htap).2
  rw [index?_eq_some, hreg.position_eq]
  push_cast
  omega

end Window

namespace Axis

variable {a : Axis} {padBegin padEnd : Nat}

/-- The padding of a `SAME` policy is less than a kernel, and the kernel index behind the pad at the
beginning is on the data at every output. -/
theorem covers_of_samePads {lower : Bool} (h : a.samePads lower = .ok (padBegin, padEnd))
    (hreg : (a.window padBegin padEnd).Regular) : (a.window padBegin padEnd).Covers := by
  have hkernel : 0 < a.kernel := hreg.kernel_pos
  have hstride : 0 < a.stride := hreg.stride_pos
  have hreach : a.reach = a.kernel := hreg.reach_eq
  have hsum : padBegin + padEnd = a.samePadding := by
    obtain ⟨small, large, hsum, -, -, hupper, hlower⟩ := samePads_eq_ok hkernel hstride
    cases lower with
    | false =>
      obtain ⟨rfl, rfl⟩ := Prod.mk.inj (Except.ok.inj (hupper.symm.trans h))
      exact hsum
    | true =>
      obtain ⟨rfl, rfl⟩ := Prod.mk.inj (Except.ok.inj (hlower.symm.trans h))
      exact (Nat.add_comm _ _).trans hsum
  have hinput : 0 < a.input := by
    -- An empty axis gets no padding, and then there is no room for the kernel.
    apply Nat.pos_of_ne_zero
    intro hempty
    have hnone : a.sameOutputs = 0 := by
      rw [sameOutputs, hempty, Nat.zero_add]
      exact Nat.div_eq_of_lt (Nat.sub_one_lt hstride.ne')
    rw [samePadding, if_pos hnone] at hsum
    have hle : a.reach ≤ a.input + padBegin + padEnd := hreg.reach_le
    omega
  have hproper : a.Proper := ⟨hinput, hkernel, hstride, hreg.dilation_eq.ge⟩
  have hsize : (a.window padBegin padEnd).size = a.input ⌈/⌉ a.stride := by
    rw [Window.size, (hproper.exact_of_add_eq hsum).size?_eq, Option.getD_some]
  obtain ⟨-, hlast, -⟩ := ceilDiv_bounds hinput hstride
  rw [hproper.samePadding_eq, hreach] at hsum
  have hbegin : padBegin ≤ a.kernel - 1 := by omega
  have hend : padEnd ≤ a.kernel - 1 := by omega
  refine ⟨hbegin, hend, fun output houtput => ⟨padBegin, show padBegin < a.kernel by omega, ?_⟩⟩
  have hle : output * a.stride ≤ (a.input ⌈/⌉ a.stride - 1) * a.stride :=
    Nat.mul_le_mul_right _ (Nat.le_sub_one_of_lt (hsize ▸ houtput))
  have hcast : (output * a.stride : Int) = (output * a.stride : Nat) := by push_cast; rfl
  show 0 ≤ (output * a.stride - padBegin + padBegin : Int) ∧
    (output * a.stride - padBegin + padBegin : Int) < a.input
  rw [hcast]
  omega

end Axis

namespace Convolution

variable (c : Convolution)

/-- The pairs of a data index and a weight index at all channels and kernel indices, as they are where
there is no padding. -/
def fullTaps (image output row column : Nat) : List (Nat × Nat) :=
  (List.range c.channelsIn).flatMap fun channel =>
    (List.range c.windows.height.kernel).flatMap fun k₀ =>
      (List.range c.windows.width.kernel).map fun k₁ =>
        (c.dataIndex image channel (row * c.windows.height.stride + k₀) (column * c.windows.width.stride + k₁),
          c.weightIndex output channel k₀ k₁)

variable {c}

theorem Regular.taps_eq_fullTaps (h : c.Regular) (hheight : c.windows.height.Full) (hwidth : c.windows.width.Full)
    (b m : Nat) {i j : Nat} (hi : i < c.outputSizes.height) (hj : j < c.outputSizes.width) :
    c.taps b m i j = c.fullTaps b m i j := by
  refine List.flatMap_congr fun channel _ => List.flatMap_congr fun k₀ hk₀ => ?_
  rw [hheight.index?_eq h.height hi (List.mem_range.1 hk₀)]
  dsimp only
  rw [← List.filterMap_eq_map]
  refine List.filterMap_congr fun k₁ hk₁ => ?_
  rw [hwidth.index?_eq h.width hj (List.mem_range.1 hk₁)]
  rfl

end Convolution

/-! ## Loops without guards -/

namespace C

namespace State

variable {s : State} {vars vars' : List (String × Int)}

/-- Two runs from a state do the same, and where they end, the loop variables around them have kept
their values. -/
structure Alike (run other : State → Option State) (s : State) (vars : List (String × Int)) : Prop where
  run_eq : run s = other s
  keeps : ∀ t, run s = some t → t.Scope vars

theorem Alike.mono {run other : State → Option State} (h : Alike run other s vars) (hsub : vars' ⊆ vars) :
    Alike run other s vars' :=
  ⟨h.run_eq, fun t ht => (h.keeps t ht).mono hsub⟩

/-- One run after another. -/
theorem Alike.bind {run other next next' : State → Option State} (h : Alike run other s vars)
    (hnext : ∀ t, t.Scope vars → Alike next next' t vars') :
    Alike (fun s => run s >>= next) (fun s => other s >>= next') s vars' := by
  constructor
  · rw [← h.run_eq]
    refine Option.bind_congr fun t ht => ?_
    exact (hnext t (h.keeps t ht)).run_eq
  · intro u hu
    obtain ⟨t, ht, hu⟩ := Option.bind_eq_some_iff.1 hu
    exact (hnext t (h.keeps t ht)).keeps u hu

theorem LeavesCounters.alike {run : State → Option State} (h : LeavesCounters run) (hs : s.Scope vars) :
    Alike run run s vars := by
  refine ⟨rfl, fun t ht v hv => ?_⟩
  rw [(h s t ht).1]
  exact hs v hv

end State

namespace Loop

/-- Sum up the position of the guard and run the body, wherever that is. -/
def unguarded? (guard : Option Guard) (body : State → Option State) (s : State) : Option State :=
  match guard with
  | none => body s
  | some g => do
    let position := (← s.counters g.left) + (← s.counters g.right)
    body (s.assign .int32 g.name position)

/-- Run the loop with a guard that lets every iteration pass. -/
def execUnguarded? (l : Loop) (body : State → Option State) (s : State) : Option State := do
  let last ← (List.range l.bound).foldlM
    (fun s iteration => unguarded? l.guard body (l.enterState iteration s)) s
  return l.enterState l.bound last

variable {l : Loop} {body body' : State → Option State} {vars : List (String × Int)} {s : State}

/-- The first iterations of the loop, given how its guard lets them into the body. -/
def iterations? (l : Loop) (enter : Option Guard → (State → Option State) → State → Option State)
    (body : State → Option State) (n : Nat) (s : State) : Option State :=
  (List.range n).foldlM (fun s k => enter l.guard body (l.enterState k s)) s

theorem iterations?_succ (enter : Option Guard → (State → Option State) → State → Option State) (n : Nat) :
    l.iterations? enter body (n + 1) =
      fun s => l.iterations? enter body n s >>= fun t => enter l.guard body (l.enterState n t) := by
  funext s
  simp [iterations?, List.range_succ]

/-- A loop needs no guard if none of its iterations does. -/
theorem alike_exec? (hfresh : ∀ name ∈ l.names, name ∉ vars.map Prod.fst) (hnodup : l.names.Nodup)
    (hbody : ∀ k < l.bound, ∀ s, s.Scope ((l.valuesAt k).reverse ++ vars) →
      State.Alike (guarded? l.guard body) (unguarded? l.guard body') s vars) (hs : s.Scope vars) :
    State.Alike (l.exec? body) (l.execUnguarded? body') s vars := by
  have hrun : ∀ n ≤ l.bound,
      State.Alike (l.iterations? guarded? body n) (l.iterations? unguarded? body' n) s vars := by
    -- Induction on the number of iterations that have been done.
    intro n
    induction n with
    | zero =>
      refine fun _ => ⟨rfl, fun t ht => ?_⟩
      obtain rfl := Option.some.inj ht
      exact hs
    | succ n ih =>
      intro hn
      rw [iterations?_succ, iterations?_succ]
      refine (ih (Nat.le_of_succ_le hn)).bind fun t ht => ?_
      have hiteration := hbody n hn _ (enterState_scope ht hfresh hnodup n)
      exact ⟨hiteration.run_eq, hiteration.keeps⟩
  refine (hrun l.bound le_rfl).bind fun t ht => ⟨rfl, fun u hu => ?_⟩
  obtain rfl := Option.some.inj hu
  exact (enterState_scope ht hfresh hnodup _).mono (List.subset_append_right _ _)

theorem alike_count {counter : String} {bound : Nat} (hfresh : counter ∉ vars.map Prod.fst)
    (hbody : ∀ k < bound, ∀ s, s.Scope ((counter, (k : Int)) :: vars) → State.Alike body body' s vars)
    (hs : s.Scope vars) :
    State.Alike ((count counter bound).exec? body) ((count counter bound).execUnguarded? body') s vars :=
  alike_exec? (by simpa [names, count] using hfresh) (List.nodup_singleton counter) hbody hs

theorem alike_outputs {axis : String} {w : Window} (hcounter : "o" ++ axis ∉ vars.map Prod.fst)
    (hfollower : "i" ++ axis ∉ vars.map Prod.fst)
    (hbody : ∀ k < w.size, ∀ s, s.Scope (("i" ++ axis, w.start k) :: ("o" ++ axis, (k : Int)) :: vars) →
      State.Alike body body' s vars)
    (hs : s.Scope vars) :
    State.Alike ((outputs axis w).exec? body) ((outputs axis w).execUnguarded? body') s vars := by
  refine alike_exec? ?_ (by simp [names_outputs]) ?_ hs
  · rw [names_outputs, List.forall_mem_cons, List.forall_mem_singleton]
    exact ⟨hcounter, hfollower⟩
  · intro k hk s hs
    rw [valuesAt_outputs] at hs
    exact hbody k hk s hs

/-- The loop over the kernel indices at an output needs no guard where all of its window lies on the data. -/
theorem alike_taps {axis : String} {w : Window} (hw : w.Regular) (hfull : w.Full) {o : Nat} (ho : o < w.size)
    (hcounter : "k" ++ axis ∉ vars.map Prod.fst) (hsum : "ii" ++ axis ∉ vars.map Prod.fst)
    (hstart : ("i" ++ axis, w.start o) ∈ vars)
    (hbody : ∀ s, s.Scope vars → State.Alike body body' s vars) (hs : s.Scope vars) :
    State.Alike ((taps axis w).exec? body) ((taps axis w).execUnguarded? body') s vars := by
  refine alike_exec? (by simpa [names, taps] using hcounter) (List.nodup_singleton _) ?_ hs
  intro k hk s hs
  have hfresh : "ii" ++ axis ∉ ((("k" ++ axis, (k : Int)) :: vars).map Prod.fst) := by
    simpa using hsum
  have hleft : s.counters ("i" ++ axis) = some (w.start o) := hs _ (List.mem_cons_of_mem _ hstart)
  have hright : s.counters ("k" ++ axis) = some (k : Int) := hs _ List.mem_cons_self
  let summed := s.assign .int32 ("ii" ++ axis) (w.position o k)
  have hscope : summed.Scope vars :=
    (State.Scope.assign hs hfresh .int32 (w.position o k)).mono
      (List.subset_cons_of_subset _ (List.subset_cons_self _ _))
  have hguarded : guarded? (taps axis w).guard body s = body summed := by
    rw [guarded?_taps hw hleft hright, hfull.index?_eq hw ho hk]
  have hunguarded : unguarded? (taps axis w).guard body' s = body' summed := by
    have hposition : w.start o + k = w.position o k := by simp [Window.position, hw.dilation_eq]
    simp [unguarded?, taps, hleft, hright, hposition, summed]
  have hsame := hbody summed hscope
  refine ⟨?_, fun t ht => hsame.keeps t (hguarded.symm.trans ht)⟩
  rw [hguarded, hunguarded, hsame.run_eq]

end Loop

namespace Nest

variable {α : Type}

/-- Run the nest with guards that let every iteration pass. -/
def execUnguarded? (phase : α → State → Option State) (n : Nest α) : State → Option State :=
  n.outer.foldr Loop.execUnguarded? fun s => do
    let started ← phase n.before s
    let summed ← n.inner.foldr Loop.execUnguarded? (phase n.each) started
    phase n.after summed

/-- The nest of a convolution needs no guards where all of its windows lie on the data, whatever its
phases are, as long as they leave the loop variables alone. -/
theorem exec?_eq_execUnguarded? {c : Convolution} (hreg : c.Regular) (hheight : c.windows.height.Full)
    (hwidth : c.windows.width.Full) {phase : α → State → Option State}
    (hphase : ∀ a, State.LeavesCounters (phase a)) (before each after : α) (s : State) :
    (ofConvolution c before each after).exec? phase s =
      (ofConvolution c before each after).execUnguarded? phase s := by
  refine (?_ : State.Alike _ _ s []).run_eq
  refine Loop.alike_count (by simp) ?_ (List.forall_mem_nil _)
  intro b hb s hs
  refine (Loop.alike_count (by simp) ?_ hs).mono (List.subset_cons_self _ _)
  intro m hm s hs
  refine (Loop.alike_outputs (by simp) (by simp) ?_ hs).mono (List.subset_cons_self _ _)
  intro i hi s hs
  refine (Loop.alike_outputs (by simp) (by simp) ?_ hs).mono
    (List.subset_cons_of_subset _ (List.subset_cons_self _ _))
  intro j hj s hs
  have hinner : ∀ s : State, s.Scope (cellScope c b m i j) →
      State.Alike (execLoops? (ofConvolution c before each after).inner (phase each))
        ((ofConvolution c before each after).inner.foldr Loop.execUnguarded? (phase each)) s
        (cellScope c b m i j) := by
    intro s hs
    refine Loop.alike_count (by simp [cellScope]) ?_ hs
    intro channel hc s hs
    refine (Loop.alike_taps hreg.height hheight hi (by simp [cellScope]) (by simp [cellScope])
      (by simp [cellScope]) ?_ hs).mono (List.subset_cons_self _ _)
    intro s hs
    exact Loop.alike_taps hreg.width hwidth hj (by simp [cellScope]) (by simp [cellScope])
      (by simp [cellScope]) (fun s hs => (hphase each).alike hs) hs
  have hcell := ((hphase before).alike hs).bind fun s hs => (hinner s hs).bind fun s hs => (hphase after).alike hs
  exact hcell.mono (List.subset_cons_of_subset _ (List.subset_cons_self _ _))

end Nest

end C

/-! ## Accepted convolutions -/

theorem Pads.samePads_of_same {axes : Spatial Axis} {lower : Bool} {p : Pads} (h : same axes lower = .ok p) :
    axes.height.samePads lower = .ok (p.begins.height, p.ends.height) ∧
      axes.width.samePads lower = .ok (p.begins.width, p.ends.width) := by
  obtain ⟨⟨top, bottom⟩, hheight, h⟩ := Except.bind_eq_ok.1 h
  obtain ⟨⟨left, right⟩, hwidth, h⟩ := Except.bind_eq_ok.1 h
  obtain rfl := Except.pure_eq_ok.1 h
  exact ⟨Except.mapError_eq_ok.1 hheight, Except.mapError_eq_ok.1 hwidth⟩

namespace Node

variable {n : Node} {c : Convolution}

/-- Under a `SAME` policy both axes have windows on the data only, up to pads shorter than the kernel. -/
theorem covers_of_same (h : n.convolution = .ok c) (hsame : c.autoPad = .sameUpper ∨ c.autoPad = .sameLower) :
    c.windows.height.Covers ∧ c.windows.width.Covers := by
  have hreg := (convolution_eq_ok h).1
  obtain ⟨data, weights, a, r, -, pads, hpads, -, -, -, rfl⟩ := convolution_eq_ok_iff.1 h
  obtain ⟨lower, hlower⟩ : ∃ lower, Pads.same r.axes lower = .ok pads := by
    rcases hsame with hpolicy | hpolicy
    · exact ⟨false, by simpa only [Pads.resolve, show r.autoPad = .sameUpper from hpolicy] using hpads⟩
    · exact ⟨true, by simpa only [Pads.resolve, show r.autoPad = .sameLower from hpolicy] using hpads⟩
  obtain ⟨hheight, hwidth⟩ := Pads.samePads_of_same hlower
  exact ⟨Axis.covers_of_samePads hheight hreg.height, Axis.covers_of_samePads hwidth hreg.width⟩

/-- Nothing is padded under the policy `VALID`, nor without a policy where no pads are given. -/
theorem pads_eq_zero (h : n.convolution = .ok c)
    (hnone : c.autoPad = .valid ∨ c.autoPad = .notSet ∧ n.attributes.find? "pads" = none) :
    c.pads = Pads.zero := by
  obtain ⟨data, weights, a, r, hrequests, pads, hpads, -, -, -, rfl⟩ := convolution_eq_ok_iff.1 h
  have hzero : Pads.zero = pads := by
    rcases hnone with hpolicy | ⟨hpolicy, hunset⟩
    · rw [show r.autoPad = .valid from hpolicy, Pads.resolve] at hpads
      exact Except.ok.inj hpads
    · have hunset := congrArg ConvAttributes.pads
        (ConvAttributes.without_of_find?_eq_none hrequests.attributes_eq hunset)
      rw [show r.autoPad = .notSet from hpolicy, hrequests.pads_eq, ← hunset] at hpads
      exact Except.ok.inj hpads
  rw [hzero]
  rfl

end Node

/-- A stride above the kernel on one axis, and half of it on the other one. -/
def leapingNode (policy : AutoPad) : Node where
  operator := .convInteger
  name := "leaping"
  inputs := [some ⟨"x", .uint8, [1, 1, 7, 5]⟩, some ⟨"w", .int8, [1, 1, 2, 4]⟩]
  outputs := ["y"]
  attributes := [("auto_pad", .text policy.name), ("strides", .ints [4, 2])]

def leapingConvolution (policy : AutoPad) (left right : Nat) : Convolution where
  batch := 1
  channelsIn := 1
  channelsOut := 1
  windows := ⟨⟨⟨7, 2, 4, 1⟩, 0, 0⟩, ⟨⟨5, 4, 2, 1⟩, left, right⟩⟩
  group := 1
  autoPad := policy

end Stencil
