import StringRewriting.Proofs.Exploration.Course

/-!
# Limits cut an exploration short

An exploration under all limits goes through the same states as one that is bounded in depth alone,
until it ends with it, or earlier because the time is over or a further word is refused. Then the
trace breaks off.

* `State.Cut`, `State.run_cut`: how a run relates to the one that is bounded in depth alone.
* `Grammar.explore_eq_of_isComplete`: a complete exploration is that one.
* `Grammar.trace_prefix_depth`, `Grammar.cut_of_wordLimit`: the trace of any other is a part of its
  trace.
-/

namespace StringRewriting

universe u

theorem Halt.isComplete_iff {h : Halt} : h.isComplete ↔ h ≠ .wordLimit ∧ h ≠ .timeout := by
  cases h <;> simp [isComplete]

namespace State

variable {σ : Type u} {g : Grammar} {limits : Limits} {obs : Observer σ}

theorem expand_depth_of_continued {parent : Word} {depth : Nat} {ws : List Word} {s s' : State σ}
    (h : expand g limits obs parent depth ws s = .continued s') (maxDepth : Nat) :
    expand g (.depth maxDepth) obs parent depth ws s = .continued s' := by
  induction ws generalizing s with
  | nil => exact h
  | cons w ws ih =>
    rw [expand] at h ⊢
    split at h
    · next hw =>
      rw [if_pos hw]
      exact ih h
    · next hw =>
      split at h
      · simp at h
      · rw [if_neg hw, if_neg (by simp [Limits.refusesWord, Limits.depth])]
        exact ih h

/-- A step that goes on does the same without bounds in words and time. -/
theorem step_depth_of_continued {elapsed : Nat} {s s' : State σ}
    (h : s.step g limits obs elapsed = .continued s') (elapsed' : Nat) :
    s.step g (.depth limits.maxDepth) obs elapsed' = .continued s' := by
  unfold step at h ⊢
  split at h
  · simp at h
  · split at h
    · simp at h
    · next hdepth =>
      split at h
      · simp at h
      · rw [if_neg (show ¬ (Limits.depth limits.maxDepth).maxDepth ≤ _ from hdepth),
          if_neg (by simp [Limits.isTimeOver, Limits.depth])]
        exact expand_depth_of_continued h limits.maxDepth

variable {clock clock' : Clock} {n₀ m₀ n : Nat} {s₀ s : State (Array Transition)}

theorem Reaches.depth (h : Reaches g limits clock n₀ s₀ n s) (clock' : Clock) (m₀ : Nat) :
    ∃ m, Reaches g (.depth limits.maxDepth) clock' m₀ s₀ m s := by
  induction h with
  | refl => exact ⟨m₀, .refl⟩
  | step _ hs' ih =>
    obtain ⟨m, hm⟩ := ih
    exact ⟨m + 1, .step hm (step_depth_of_continued hs' (clock' m))⟩

/-- How a run under limits relates to the run `full` that is bounded in depth alone: it is the same,
or it ends earlier. -/
inductive Cut (limits : Limits) (full : Halt × State (Array Transition)) :
    Halt × State (Array Transition) → Prop
  | complete (h : full.1.isComplete) : Cut limits full full
  | timeout {s : State (Array Transition)} (h : s.trace <+: full.2.trace) :
      Cut limits full (.timeout, s)
  | wordLimit {s : State (Array Transition)} (h : s.trace <+: full.2.trace)
      (hlt : s.trace.length < full.2.trace.length)
      (hfull : limits.refusesWord (s.trace.length + 1)) : Cut limits full (.wordLimit, s)

/-- **Limits in words and time cut a run short and do not change it otherwise.** -/
theorem run_cut (h₀ : s₀.Consistent g) (limits : Limits) (clock clock' : Clock) (n₀ m₀ : Nat) :
    Cut limits (s₀.run g (.depth limits.maxDepth) .recorder clock' m₀)
      (s₀.run g limits .recorder clock n₀) := by
  obtain ⟨n, s, hs, hend⟩ := exists_reaches_ended g limits clock n₀ s₀
  have hc := (hs.grows h₀).consistent
  -- without bounds in words and time the run reaches the same state, and goes on from there
  obtain ⟨m, hm⟩ := hs.depth clock' m₀
  rw [hm.run_eq]
  have hstepped := stepped hc limits (clock n)
  rw [hend] at hstepped
  generalize s₀.run g limits .recorder clock n₀ = r at hstepped ⊢
  obtain ⟨reason, s'⟩ := r
  cases hstepped with
  | exhausted hq =>
    rw [run_of_ended (step_of_nil hq _ (clock' m))]
    exact .complete rfl
  | depthBound hq hdepth =>
    rw [run_of_ended (step_of_deep hq (.depth limits.maxDepth) hdepth (clock' m))]
    exact .complete rfl
  | timeout => exact .timeout (run_grows hc _ clock' m).prefix_trace
  | wordLimit hq hdepth hk hext hfull =>
    obtain ⟨t, ht, htext⟩ := exists_step_depth hc hq hdepth (clock' m)
    rw [run_of_continued ht]
    have hgrows := run_grows htext.consistent (.depth limits.maxDepth) clock' (m + 1)
    have hlt : s'.trace.length < t.trace.length := by
      rw [hext.trace, htext.trace, List.length_append, List.length_append, List.length_take]
      omega
    have hpre : s'.trace <+: t.trace := by
      rw [hext.trace, htext.trace]
      exact (List.prefix_append_right_inj _).2 (List.take_prefix _ _)
    exact .wordLimit (hpre.trans hgrows.prefix_trace)
      (Nat.lt_of_lt_of_le hlt hgrows.prefix_trace.length_le) hfull

end State

namespace Grammar

variable {σ : Type u} {g : Grammar} {limits : Limits} {obs : Observer σ} {clock : Clock}

/-- **A complete exploration is the one that is bounded in depth alone.** -/
theorem explore_eq_of_isComplete (h : (g.explore limits obs clock).halt.isComplete)
    (clock' : Clock) :
    g.explore limits obs clock = g.explore (.depth limits.maxDepth) obs clock' := by
  have hcut := State.run_cut (State.consistent_initial g) limits clock clock' 0 0
  have hexplore : g.explore limits .recorder clock =
      g.explore (.depth limits.maxDepth) .recorder clock' := by
    rw [halt_explore] at h
    unfold explore at h ⊢
    generalize (State.initial g .recorder).run g limits .recorder clock 0 = r at hcut h ⊢
    cases hcut with
    | complete => rfl
    | timeout => simp [State.outcome, Halt.isComplete] at h
    | wordLimit => simp [State.outcome, Halt.isComplete] at h
  rw [explore_eq_watch, hexplore, ← explore_eq_watch]

/-- Limits only cut the trace. -/
theorem trace_prefix_depth (g : Grammar) (limits : Limits) (clock clock' : Clock) :
    g.trace limits clock <+: g.trace (.depth limits.maxDepth) clock' := by
  have hcut := State.run_cut (State.consistent_initial g) limits clock clock' 0 0
  change ((State.initial g .recorder).run g limits .recorder clock 0).2.trace <+:
    ((State.initial g .recorder).run g (.depth limits.maxDepth) .recorder clock' 0).2.trace
  generalize (State.initial g .recorder).run g limits .recorder clock 0 = r at hcut ⊢
  cases hcut with
  | complete => exact List.prefix_refl _
  | timeout h => exact h
  | wordLimit h => exact h

/-- Where the bound in words ends an exploration, a further word was left out. -/
theorem cut_of_wordLimit (h : (g.explore limits obs clock).halt = .wordLimit) (clock' : Clock) :
    (g.trace limits clock).length < (g.trace (.depth limits.maxDepth) clock').length ∧
      limits.refusesWord ((g.trace limits clock).length + 1) := by
  have hcut := State.run_cut (State.consistent_initial g) limits clock clock' 0 0
  rw [halt_explore] at h
  change ((State.initial g .recorder).run g limits .recorder clock 0).1 = .wordLimit at h
  change ((State.initial g .recorder).run g limits .recorder clock 0).2.trace.length <
    ((State.initial g .recorder).run g (.depth limits.maxDepth) .recorder clock' 0).2.trace.length ∧
      limits.refusesWord
        (((State.initial g .recorder).run g limits .recorder clock 0).2.trace.length + 1)
  generalize (State.initial g .recorder).run g limits .recorder clock 0 = r at hcut h ⊢
  cases hcut with
  | complete hc => simp [h, Halt.isComplete] at hc
  | timeout => simp at h
  | wordLimit _ hlt hfull => exact ⟨hlt, hfull⟩

theorem isComplete_of_maxWords_eq_none (h : limits.maxWords = none)
    (htime : (g.explore limits obs clock).halt ≠ .timeout) :
    (g.explore limits obs clock).halt.isComplete := by
  refine Halt.isComplete_iff.2 ⟨fun hend => ?_, htime⟩
  have hfull := (cut_of_wordLimit hend clock).2
  simp [Limits.refusesWord, h] at hfull

/-- Two complete explorations with one bound in depth are the same. -/
theorem explore_eq_explore {limits' : Limits} {clock' : Clock}
    (h : (g.explore limits obs clock).halt.isComplete)
    (h' : (g.explore limits' obs clock').halt.isComplete)
    (hdepth : limits.maxDepth = limits'.maxDepth) :
    g.explore limits obs clock = g.explore limits' obs clock' := by
  rw [explore_eq_of_isComplete h clock, explore_eq_of_isComplete h' clock, hdepth]

/-- A word was recorded only while the limits admitted a further one. -/
theorem refusesWord_eq_false (g : Grammar) (limits : Limits) (clock : Clock) {n : Nat}
    (hpos : 0 < n)
    (hn : n ≤ (g.trace limits clock).length) : limits.refusesWord n = false := by
  have hgrows := State.run_grows (State.consistent_initial g) limits clock 0
  refine hgrows.admitted n ?_ hn
  rw [State.trace_initial]
  exact hpos

end Grammar

end StringRewriting
