import StringRewriting.Proofs.Exploration.Course

/-!
# Where the clock does not matter

The clock is looked at for a bound in time alone. If there is none, if it is over from the
beginning, or if it is not over before the end, then what the clock shows does not change an
exploration.

* `State.run_untimed`: a run that the time does not end is the one without a bound in time.
* `State.run_of_timeout_zero`: a run whose time is over from the beginning.
* `Grammar.ClockFree`, `Grammar.explore_eq_of_clockFree`: explorations by two clocks.
* `Grammar.SameTime`: explorations of two grammars by two clocks.
-/

namespace StringRewriting

universe u

/-- The same limits without a bound in time. -/
def Limits.untimed (l : Limits) : Limits := { l with timeout := none }

theorem Limits.refusesWord_untimed (l : Limits) : l.untimed.refusesWord = l.refusesWord := rfl

theorem Limits.isTimeOver_untimed (l : Limits) (elapsed : Nat) :
    l.untimed.isTimeOver elapsed = false := rfl

namespace State

variable {σ : Type u} {g : Grammar} {limits : Limits} {obs : Observer σ} {clock clock' : Clock}

/-! ## Steps -/

theorem expand_untimed (parent : Word) (depth : Nat) (ws : List Word) (s : State σ) :
    expand g limits.untimed obs parent depth ws s = expand g limits obs parent depth ws s := by
  induction ws generalizing s with
  | nil => rfl
  | cons w ws ih => rw [expand, expand, ih, ih, Limits.refusesWord_untimed]

/-- A step that the time does not end is the one without a bound in time. -/
theorem step_untimed {elapsed : Nat} {s : State σ} {p : Progress σ}
    (h : s.step g limits obs elapsed = p) (hp : ∀ s', p ≠ .ended .timeout s') (elapsed' : Nat) :
    s.step g limits.untimed obs elapsed' = p := by
  unfold step at h ⊢
  split at h
  · exact h
  · next w depth frontier _ =>
    split at h
    · next hdepth =>
      rw [if_pos (show limits.untimed.maxDepth ≤ depth from hdepth)]
      exact h
    · next hdepth =>
      rw [if_neg (show ¬ limits.untimed.maxDepth ≤ depth from hdepth), Limits.isTimeOver_untimed,
        if_neg Bool.false_ne_true, expand_untimed]
      split at h
      · exact absurd h.symm (hp s)
      · exact h

/-- A step depends on the clock only as far as the time is over or not. -/
theorem step_congr_elapsed {elapsed elapsed' : Nat}
    (h : limits.isTimeOver elapsed = limits.isTimeOver elapsed') (s : State σ) :
    s.step g limits obs elapsed = s.step g limits obs elapsed' := by
  rw [step, step, h]

/-! ## Runs -/

/-- A run that the time does not end is the one without a bound in time. -/
theorem run_untimed {n : Nat} {s : State σ} (h : (s.run g limits obs clock n).1 ≠ .timeout)
    (clock' : Clock) (n' : Nat) :
    s.run g limits obs clock n = s.run g limits.untimed obs clock' n' := by
  fun_induction State.run g limits obs clock n s generalizing n' with
  | case1 n s reason s' hstep =>
    have hreason : ∀ t, Progress.ended reason s' ≠ .ended .timeout t := by
      rintro t ⟨⟩
      exact h rfl
    rw [run_of_ended (step_untimed hstep hreason (clock' n'))]
  | case2 n s s' hstep _ ih =>
    have hgoes : ∀ t, Progress.continued s' ≠ .ended .timeout t := by simp
    rw [run_of_continued (step_untimed hstep hgoes (clock' n'))]
    exact ih h (n' + 1)

/-- What a clock shows does not matter to a run whose time is over from the beginning. -/
theorem run_of_timeout_zero (h : limits.timeout = some 0) (n n' : Nat) (s : State σ) :
    s.run g limits obs clock n = s.run g limits obs clock' n' := by
  have hstep' : ∀ (s : State σ) (elapsed elapsed' : Nat),
      s.step g limits obs elapsed' = s.step g limits obs elapsed := by
    intro s elapsed elapsed'
    exact step_congr_elapsed (by simp [Limits.isTimeOver, h]) s
  fun_induction State.run g limits obs clock n s generalizing n' with
  | case1 n s reason s' hstep =>
    rw [run_of_ended ((hstep' s (clock n) (clock' n')).trans hstep)]
  | case2 n s s' hstep _ ih =>
    rw [run_of_continued ((hstep' s (clock n) (clock' n')).trans hstep)]
    exact ih (n' + 1)

end State

namespace Grammar

variable {σ : Type u} {g : Grammar} {limits : Limits} {clock clock' : Clock}

/-- There is no bound in time, or the time is over from the beginning, or not before the end. -/
def ClockFree (g : Grammar) (limits : Limits) (clock : Clock) : Prop :=
  limits.timeout = none ∨ limits.timeout = some 0 ∨
    (g.explore limits .recorder clock).halt ≠ .timeout

/-- An exploration that the time does not end is the one without a bound in time. -/
theorem explore_untimed (h : (g.explore limits .recorder clock).halt ≠ .timeout) (obs : Observer σ)
    (clock' : Clock) : g.explore limits obs clock = g.explore limits.untimed obs clock' := by
  rw [← halt_explore g limits obs] at h
  rw [explore, explore, State.run_untimed h clock' 0]

/-- **Where the clock does not matter, explorations by two clocks are the same.** -/
theorem explore_eq_of_clockFree (h : g.ClockFree limits clock) (h' : g.ClockFree limits clock')
    (obs : Observer σ) : g.explore limits obs clock = g.explore limits obs clock' := by
  by_cases hzero : limits.timeout = some 0
  · rw [explore, explore, State.run_of_timeout_zero hzero 0 0]
  · have hends : ∀ clock, g.ClockFree limits clock →
        (g.explore limits .recorder clock).halt ≠ .timeout := by
      rintro clock (hnone | hzero' | hhalt)
      · exact g.halt_ne_timeout limits .recorder clock hnone
      · exact absurd hzero' hzero
      · exact hhalt
    rw [explore_untimed (hends clock h) obs .still, explore_untimed (hends clock' h') obs .still]

/-- The clocks of the explorations of two grammars do not tell them apart: it is one clock, or none
of the two matters. -/
def SameTime (g g' : Grammar) (limits : Limits) (clock clock' : Clock) : Prop :=
  clock' = clock ∨ g.ClockFree limits clock ∧ g'.ClockFree limits clock'

/-- If two explorations by the first clock end for one reason, the second may as well have its own
clock. -/
theorem explore_eq_of_sameTime {g' : Grammar} (h : g.SameTime g' limits clock clock')
    (hhalt : (g'.explore limits .recorder clock).halt = (g.explore limits .recorder clock).halt)
    (obs : Observer σ) : g'.explore limits obs clock' = g'.explore limits obs clock := by
  rcases h with rfl | ⟨h, h'⟩
  · rfl
  · refine explore_eq_of_clockFree h' (h.imp_right (Or.imp_right fun hne => ?_)) obs
    rwa [hhalt]

theorem trace_eq_of_sameTime {g' : Grammar} (h : g.SameTime g' limits clock clock')
    (hhalt : (g'.explore limits .recorder clock).halt = (g.explore limits .recorder clock).halt) :
    g'.trace limits clock' = g'.trace limits clock := by
  rw [trace, trace, explore_eq_of_sameTime h hhalt]

end Grammar

end StringRewriting
