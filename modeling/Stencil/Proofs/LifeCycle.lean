import Stencil.Proofs.Evaluation

/-!
# The life cycle of a cell

Calls on a cell may come in any order and number. What becomes of it depends on the products between
the first start and the first `finalize` behind that, and on nothing else: not on their order, and not on
the other calls.
-/

namespace Stencil.Cell

/-- Make calls on a cell, one after another. -/
def run (c : Cell) (steps : List Step) : Except Fault Cell := steps.foldlM apply c

/-- What a call adds to the sum. -/
def Step.product : Step → Int32
  | .accumulate x zero w => (x - zero) * w
  | _ => 0

/-- The sum of all products, modulo `2 ^ 32`. -/
def total (steps : List Step) : Int32 := (steps.map Step.product).sum

/-- The phase in which calls leave a new cell. A sum counts from the first start on, and the first
`finalize` behind that ends it. -/
inductive Reaches (divisor : Option Int32) : List Step → Phase → Prop where
  | blank {steps : List Step} : .start ∉ steps → Reaches divisor steps .blank
  | accumulating {before during : List Step} : .start ∉ before → .finalize ∉ during →
      Reaches divisor (before ++ .start :: during) (.accumulating (total during))
  | finalized {before during after : List Step} {value : Int32} : .start ∉ before → .finalize ∉ during →
      finish divisor (total during) = .ok value →
      Reaches divisor (before ++ .start :: (during ++ .finalize :: after)) (.finalized value)

/-- The calls that count, after the calls before them: the first start, and behind it products and the
first `finalize`. -/
inductive Counts : List Step → Step → Prop where
  | start {done : List Step} : .start ∉ done → Counts done .start
  | summing {before during : List Step} {s : Step} : .start ∉ before → .finalize ∉ during → s ≠ .start →
      Counts (before ++ .start :: during) s

variable {divisor : Option Int32} {steps before during during' after : List Step}

/-! ## Sums -/

theorem total_cons (s : Step) (steps : List Step) : total (s :: steps) = s.product + total steps :=
  List.sum_cons

/-- Words are added in any order. -/
theorem total_of_perm (h : during.Perm during') : total during = total during' :=
  (h.map Step.product).foldr_eq 0

/-! ## One call -/

theorem apply_blank {s : Step} (h : s ≠ .start) : apply ⟨.blank, divisor⟩ s = .ok ⟨.blank, divisor⟩ := by
  cases s with
  | start => exact absurd rfl h
  | accumulate x zero w => rfl
  | finalize => rfl

theorem apply_accumulating {s : Step} (h : s ≠ .finalize) (sum : Int32) :
    apply ⟨.accumulating sum, divisor⟩ s = .ok ⟨.accumulating (sum + s.product), divisor⟩ := by
  cases s with
  | start => simp [apply, start, Step.product]
  | accumulate x zero w => rfl
  | finalize => exact absurd rfl h

theorem apply_finalized (value : Int32) (s : Step) :
    apply ⟨.finalized value, divisor⟩ s = .ok ⟨.finalized value, divisor⟩ := by
  cases s <;> rfl

/-! ## Any number of calls -/

theorem run_append (c : Cell) (steps later : List Step) :
    run c (steps ++ later) = run c steps >>= fun next => run next later :=
  List.foldlM_append

theorem run_cons (c : Cell) (s : Step) (steps : List Step) :
    run c (s :: steps) = apply c s >>= fun next => run next steps :=
  List.foldlM_cons

theorem run_blank (h : .start ∉ steps) : run ⟨.blank, divisor⟩ steps = .ok ⟨.blank, divisor⟩ := by
  induction steps with
  | nil => rfl
  | cons s steps ih =>
    obtain ⟨hs, hsteps⟩ := not_or.1 (List.mem_cons.not.1 h)
    rw [run_cons, apply_blank (Ne.symm hs)]
    exact ih hsteps

theorem run_accumulating (h : .finalize ∉ steps) (sum : Int32) :
    run ⟨.accumulating sum, divisor⟩ steps = .ok ⟨.accumulating (sum + total steps), divisor⟩ := by
  -- Starting again adds zero to the sum, so each call adds its product, whichever it is.
  induction steps generalizing sum with
  | nil => simp [run, total, pure, Except.pure]
  | cons s steps ih =>
    obtain ⟨hs, hsteps⟩ := not_or.1 (List.mem_cons.not.1 h)
    rw [run_cons, apply_accumulating (Ne.symm hs), total_cons, ← Int32.add_assoc]
    exact ih hsteps (sum + s.product)

theorem run_finalized (value : Int32) (steps : List Step) :
    run ⟨.finalized value, divisor⟩ steps = .ok ⟨.finalized value, divisor⟩ := by
  induction steps with
  | nil => rfl
  | cons s steps ih =>
    rw [run_cons, apply_finalized]
    exact ih

/-! ## From the first start on -/

theorem run_start (h : .start ∉ before) (steps : List Step) :
    run (ofDivisor divisor) (before ++ .start :: steps) = run ⟨.accumulating 0, divisor⟩ steps := by
  rw [ofDivisor, run_append, run_blank h]
  rfl

theorem run_finalize (h : .finalize ∉ during) (sum : Int32) (after : List Step) :
    run ⟨.accumulating sum, divisor⟩ (during ++ .finalize :: after) =
      (finish divisor (sum + total during)).map fun value => ⟨.finalized value, divisor⟩ := by
  rw [run_append, run_accumulating h, Except.ok_bind, run_cons]
  cases hvalue : finish divisor (sum + total during) with
  | error fault => simp [apply, finalize, hvalue, bind, Except.bind, Except.map]
  | ok value =>
    have happly : apply ⟨.accumulating (sum + total during), divisor⟩ .finalize =
        .ok ⟨.finalized value, divisor⟩ := by
      simp [apply, finalize, hvalue]
    rw [happly]
    exact run_finalized value after

theorem Reaches.run_eq {phase : Phase} (h : Reaches divisor steps phase) :
    run (ofDivisor divisor) steps = .ok ⟨phase, divisor⟩ := by
  cases h with
  | blank hsteps => exact run_blank hsteps
  | accumulating hbefore hduring => rw [run_start hbefore, run_accumulating hduring, Int32.zero_add]
  | finalized hbefore hduring hvalue =>
    rw [run_start hbefore, run_finalize hduring, Int32.zero_add, hvalue]
    rfl

/-- With a divisor that can divide, calls always lead somewhere. -/
theorem exists_reaches (hd : ∀ d ∈ divisor, 0 < d.toInt) (steps : List Step) :
    ∃ phase, Reaches divisor steps phase := by
  by_cases hstart : .start ∈ steps
  · -- Both times the list is split where the call occurs first.
    obtain ⟨before, rest, rfl, hbefore⟩ := List.eq_append_cons_of_mem hstart
    by_cases hfinalize : .finalize ∈ rest
    · obtain ⟨during, after, rfl, hduring⟩ := List.eq_append_cons_of_mem hfinalize
      exact ⟨_, .finalized hbefore hduring (finish_eq_ok hd (total during))⟩
    · exact ⟨_, .accumulating hbefore hfinalize⟩
  · exact ⟨_, .blank hstart⟩

theorem reaches_iff (hd : ∀ d ∈ divisor, 0 < d.toInt) {phase : Phase} :
    Reaches divisor steps phase ↔ run (ofDivisor divisor) steps = .ok ⟨phase, divisor⟩ := by
  refine ⟨Reaches.run_eq, fun h => ?_⟩
  obtain ⟨phase', hreaches⟩ := exists_reaches hd steps
  obtain ⟨rfl, -⟩ := Cell.mk.inj (Except.ok.inj (hreaches.run_eq.symm.trans h))
  exact hreaches

/-! ## Calls without effect -/

theorem run_of_not_counts (hd : ∀ d ∈ divisor, 0 < d.toInt) {done : List Step} {s : Step}
    (h : ¬ Counts done s) (rest : List Step) :
    run (ofDivisor divisor) (done ++ s :: rest) = run (ofDivisor divisor) (done ++ rest) := by
  obtain ⟨phase, hreaches⟩ := exists_reaches hd done
  have hidle : apply ⟨phase, divisor⟩ s = .ok ⟨phase, divisor⟩ := by
    cases hreaches with
    | blank hdone =>
      refine apply_blank ?_
      rintro rfl
      exact h (.start hdone)
    | accumulating hbefore hduring =>
      -- While a sum counts, a call that does not can only be another start.
      obtain rfl : s = .start := by
        by_contra hs
        exact h (.summing hbefore hduring hs)
      rfl
    | finalized => exact apply_finalized _ s
  rw [run_append, run_append, hreaches.run_eq, Except.ok_bind, Except.ok_bind, run_cons, hidle]
  rfl

/-- What happens while a sum counts may happen in any order. -/
theorem run_of_perm (hbefore : .start ∉ before) (hduring : .finalize ∉ during) (h : during.Perm during')
    (after : List Step) :
    run (ofDivisor divisor) (before ++ .start :: (during ++ after)) =
      run (ofDivisor divisor) (before ++ .start :: (during' ++ after)) := by
  have hduring' : .finalize ∉ during' := h.mem_iff.not.1 hduring
  rw [run_start hbefore, run_start hbefore, run_append, run_append, run_accumulating hduring,
    run_accumulating hduring', total_of_perm h]

theorem value?_eq_some {c : Cell} {value : Int32} : c.value? = some value ↔ c.phase = .finalized value := by
  unfold value?
  split <;> simp_all

/-- After any calls a new cell is in the phase that the calls between the first start and the first
`finalize` behind it determine. Calls that do not count are without effect, those in between may come in
any order, and there is a value only in the last phase. -/
theorem lifeCycle (hd : ∀ d ∈ divisor, 0 < d.toInt) :
    (∀ steps, ∃ phase, Reaches divisor steps phase) ∧
      (∀ steps phase, Reaches divisor steps phase ↔ run (ofDivisor divisor) steps = .ok ⟨phase, divisor⟩) ∧
      (∀ done s rest, ¬ Counts done s →
        run (ofDivisor divisor) (done ++ s :: rest) = run (ofDivisor divisor) (done ++ rest)) ∧
      (∀ before during during' after, .start ∉ before → .finalize ∉ during → during.Perm during' →
        run (ofDivisor divisor) (before ++ .start :: (during ++ after)) =
          run (ofDivisor divisor) (before ++ .start :: (during' ++ after))) ∧
      ∀ (c : Cell) value, c.value? = some value ↔ c.phase = .finalized value := by
  refine ⟨exists_reaches hd, fun steps phase => reaches_iff hd, fun done s rest h => run_of_not_counts hd h rest,
    fun before during during' after hbefore hduring h => ?_, fun c value => value?_eq_some⟩
  exact run_of_perm hbefore hduring h after

/-- Two products count, 800 and -6. The calls around them come too early or too late. -/
theorem lifeCycle_rescaled :
    (∀ d ∈ some (16 : Int32), 0 < d.toInt) ∧
      run (ofDivisor (some 16)) [.accumulate 5 0 5, .finalize, .start, .accumulate 3 1 400, .start,
        .accumulate (-2) 1 2, .finalize, .accumulate 1 0 1, .start] = .ok ⟨.finalized 49, some 16⟩ := by
  have hd : ∀ d ∈ some (16 : Int32), 0 < d.toInt := by
    rintro d ⟨⟩
    decide
  have hreaches : Reaches (some 16) ([.accumulate 5 0 5, .finalize] ++ .start ::
      ([.accumulate 3 1 400, .start, .accumulate (-2) 1 2] ++ .finalize :: [.accumulate 1 0 1, .start]))
      (.finalized 49) :=
    .finalized (by decide) (by decide) (by decide +kernel)
  exact ⟨hd, ((lifeCycle hd).2.1 _ _).1 hreaches⟩

end Stencil.Cell
