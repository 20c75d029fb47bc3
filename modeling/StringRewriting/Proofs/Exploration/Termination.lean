import Mathlib.Data.Set.Finite.List
import StringRewriting.Proofs.Exploration.Derivation
import StringRewriting.Proofs.Exploration.Frontier

/-!
# Why there is only finitely much to explore

A step makes a word longer by at most the growth of the grammar and puts in symbols of the right
sides only. So the words within a depth bound are finitely many. The loop takes each of them from
the frontier at most once, and it ends.

* `Grammar.growth`, `Grammar.length_le_of_chain`: how long a word gets.
* `Grammar.finite_recorded`: the words that can be recorded within a depth bound.
* `State.not_forall_step_continued`: no exploration goes on for ever.
* `Grammar.explore_terminates`: the work that an exploration does.
-/

namespace StringRewriting

universe u

/-- There are finitely many words of bounded length over given symbols. -/
theorem finite_words (symbols : Word) (n : Nat) :
    {w : Word | w.length ≤ n ∧ ∀ c ∈ w, c ∈ symbols}.Finite := by
  refine ((List.finite_length_le {c // c ∈ symbols} n).image (List.map Subtype.val)).subset ?_
  rintro w ⟨hlength, hsymbols⟩
  lift w to List {c // c ∈ symbols} using hsymbols
  exact ⟨w, by simpa using hlength, rfl⟩

namespace State

variable {σ : Type u}

/-- **No exploration goes on for ever**, from whatever state and whatever the clock shows. -/
theorem not_forall_step_continued (g : Grammar) (limits : Limits) (obs : Observer σ) (clock : Clock)
    (s : Nat → State σ) : ¬ ∀ n, (s n).step g limits obs (clock n) = .continued (s (n + 1)) := by
  intro h
  have hwork : ∀ n, (s n).workload g limits + n ≤ (s 0).workload g limits := by
    intro n
    induction n with
    | zero => exact Nat.le_refl _
    | succ n ih =>
      have hlt := workload_lt_of_step (h n)
      omega
  have hpast := hwork ((s 0).workload g limits + 1)
  omega

end State

namespace Grammar

variable {σ : Type u} {g : Grammar} {limits : Limits} {obs : Observer σ} {clock : Clock}

/-! ## The length of words -/

/-- The greatest number of symbols by which the right side of a rule is longer than its left side,
and zero if none is longer. -/
def growth (g : Grammar) : Nat :=
  g.rules.foldr (fun r n => max (r.rhs.length - r.lhs.length) n) 0

theorem length_rhs_le {r : Rule} (hr : r ∈ g.rules) :
    r.rhs.length ≤ r.lhs.length + g.growth := by
  unfold growth
  generalize g.rules = rules at hr
  induction rules with
  | nil => simp at hr
  | cons r' rules ih =>
    rw [List.foldr_cons]
    rcases List.mem_cons.1 hr with rfl | hr
    · omega
    · have hlater := ih hr
      omega

/-- A step makes a word longer by at most the growth. -/
theorem length_le_of_step {v w : Word} (h : Rewriting.Step g.rules v w) :
    w.length ≤ v.length + g.growth := by
  obtain ⟨r, hr, x, y, rfl, rfl⟩ := h
  have hrhs := length_rhs_le hr
  simp only [List.length_append]
  omega

theorem length_le_of_chain {p : Word → Prop} {v w : Word} {n : Nat}
    (h : Rewriting.Chain g.rules p v n w) : w.length ≤ v.length + n * g.growth := by
  induction h with
  | refl => simp
  | step _ _ hstep ih =>
    have hlast := length_le_of_step hstep
    rw [Nat.succ_mul]
    omega

/-- A recorded word is as short as its depth says, and made of symbols that were there or put in. -/
theorem length_and_symbols_of_record? {w : Word} {r : Record}
    (hr : (g.explore limits obs clock).record? w = some r) :
    w.length ≤ g.start.length + r.depth * g.growth ∧
      ∀ c ∈ w, c ∈ g.start ∨ ∃ rule ∈ g.rules, c ∈ rule.rhs := by
  have hw : w ∈ g.discoveries limits clock := exists_record?_explore_iff.1 ⟨r, hr⟩
  exact ⟨length_le_of_chain (admissible_of_mem_level (mem_level_of_record? hr)),
    fun c hc => symbol_of_mem_discoveries hw hc⟩

theorem depth_le_of_record? {w : Word} {r : Record}
    (hr : (g.explore limits obs clock).record? w = some r) : r.depth ≤ limits.maxDepth := by
  rcases record?_explore_eq_some_iff.1 hr with ⟨-, rfl⟩ | ⟨t, ht, -, rfl⟩
  · exact Nat.zero_le _
  · exact (child_mem_level_of_mem_chronicle ((g.trace_prefix_chronicle limits clock).subset ht)).1

/-- **Within a depth bound only finitely many words can ever be recorded**, whatever the other
limits are. -/
theorem finite_recorded (g : Grammar) (maxDepth : Nat) (obs : Observer σ) :
    {w | ∃ limits clock r, limits.maxDepth ≤ maxDepth ∧
      (g.explore limits obs clock).record? w = some r}.Finite := by
  refine (finite_words (g.start ++ g.rules.flatMap Rule.rhs)
    (g.start.length + maxDepth * g.growth)).subset ?_
  rintro w ⟨limits, clock, r, hdepth, hr⟩
  obtain ⟨hlength, hsymbols⟩ := length_and_symbols_of_record? hr
  have hgrown : r.depth * g.growth ≤ maxDepth * g.growth :=
    Nat.mul_le_mul_right _ ((depth_le_of_record? hr).trans hdepth)
  exact ⟨by omega, fun c hc => by simpa using hsymbols c hc⟩

/-- **Explorations end.** Under whatever limits, no sequence of states goes on for ever. The words
that the loop takes from the frontier are recorded and not final, none is taken twice, and so there
are at most as many as are recorded. A word recorded at depth `k` is longer than the start word by
at most `k` times the growth, and its symbols are those of the start word and of the right sides. So
within the depth bound only finitely many words can ever be recorded. -/
theorem explore_terminates (g : Grammar) (limits : Limits) (obs : Observer σ) (clock : Clock) :
    (∀ s : Nat → State σ, ¬ ∀ n, (s n).step g limits obs (clock n) = .continued (s (n + 1))) ∧
    (((State.initial g obs).taken g limits obs clock 0).Nodup ∧
      (∀ w ∈ (State.initial g obs).taken g limits obs clock 0, ¬ g.isFinal w ∧
        ∃ r, (g.explore limits obs clock).record? w = some r) ∧
      ((State.initial g obs).taken g limits obs clock 0).length ≤
        (g.explore limits obs clock).discovered) ∧
    (∀ w r, (g.explore limits obs clock).record? w = some r →
      w.length ≤ g.start.length + r.depth * g.growth ∧
        ∀ c ∈ w, c ∈ g.start ∨ ∃ rule ∈ g.rules, c ∈ rule.rhs) ∧
    {w | ∃ limits' clock' r, limits'.maxDepth ≤ limits.maxDepth ∧
      (g.explore limits' obs clock').record? w = some r}.Finite := by
  have hpre := g.taken_prefix_discoveries limits obs clock
  have hnodup := (g.nodup_discoveries limits clock).filter fun w => ¬ g.isFinal w
  refine ⟨State.not_forall_step_continued g limits obs clock, ⟨?_, ?_, ?_⟩, ?_,
    g.finite_recorded limits.maxDepth obs⟩
  · exact hnodup.sublist hpre.sublist
  · intro w hw
    obtain ⟨hfound, hfinal⟩ := mem_nonFinals.1 (hpre.subset hw)
    exact ⟨hfinal, exists_record?_explore_iff.2 hfound⟩
  · rw [discovered_explore]
    exact hpre.length_le.trans (List.length_filter_le _ _)
  · intro w r hr
    exact length_and_symbols_of_record? hr

end Grammar

end StringRewriting
