import Mathlib.Data.Nat.Init
import StringRewriting.Proofs.Exploration.Reachability

/-!
# The bound in depth

A deeper exploration discovers the words of a less deep one first and in the same way. If the less
deep one leaves nothing unexpanded, the deeper one finds nothing else.

* `Grammar.filter_depth_chronicle`, `Grammar.chronicle_of_nonFinals_eq_nil`: longer chronicles.
* `Grammar.explore_maxDepth_truncates`: explorations with two bounds in depth.
-/

namespace StringRewriting

universe u

namespace Grammar

variable {σ : Type u} {g : Grammar} {limits : Limits} {obs : Observer σ} {clock : Clock}

/-! ## Chronicles -/

theorem chronicle_prefix_chronicle {j k : Nat} (h : j ≤ k) : g.chronicle j <+: g.chronicle k := by
  induction k, h using Nat.le_induction with
  | base => exact List.prefix_refl _
  | succ k _ ih => exact ih.trans (List.prefix_append _ _)

/-- A chronicle is the part of any longer one with its depths. -/
theorem filter_depth_chronicle {j k : Nat} (h : j ≤ k) :
    (g.chronicle k).filter (fun t => t.depth ≤ j) = g.chronicle j := by
  induction k, h using Nat.le_induction with
  | base =>
    refine List.filter_eq_self.2 fun t ht => ?_
    exact decide_eq_true (child_mem_level_of_mem_chronicle ht).1
  | succ k hjk ih =>
    have hlate : (g.births (g.chronicle k) (k + 1) (g.nonFinals (g.level k))).filter
        (fun t => t.depth ≤ j) = [] := by
      refine List.filter_eq_nil_iff.2 fun t ht => ?_
      rw [depth_of_mem_births ht, decide_eq_true_eq]
      omega
    rw [chronicle, List.filter_append, ih, hlate, List.append_nil]

/-- Behind a level without words to expand nothing is discovered. -/
theorem chronicle_of_nonFinals_eq_nil {j k : Nat} (hj : g.nonFinals (g.level j) = []) (h : j ≤ k) :
    g.chronicle k = g.chronicle j ∧ g.nonFinals (g.level k) = [] := by
  induction k, h using Nat.le_induction with
  | base => exact ⟨rfl, hj⟩
  | succ k _ ih =>
    obtain ⟨hchronicle, hlevel⟩ := ih
    constructor
    · rw [chronicle, hlevel, births_nil, List.append_nil, hchronicle]
    · rw [level_succ, hlevel]
      rfl

/-! ## Ends -/

/-- A complete exploration ends at the depth bound exactly where it recorded a word there that is
not final. -/
theorem halt_eq_depthBound_iff (h : (g.explore limits obs clock).halt.isComplete) :
    (g.explore limits obs clock).halt = .depthBound ↔
      ∃ w, (g.explore limits obs clock).depth? w = some limits.maxDepth ∧ ¬ g.isFinal w := by
  have hexists : (∃ w, (g.explore limits obs clock).depth? w = some limits.maxDepth ∧
      ¬ g.isFinal w) ↔ g.nonFinals (g.level limits.maxDepth) ≠ [] := by
    simp [depth?_explore_eq_some_iff h, nonFinals, List.filter_eq_nil_iff]
  rw [hexists, halt_of_isComplete h]
  split <;> simp_all

theorem halt_eq_exhausted_iff (h : (g.explore limits obs clock).halt.isComplete) :
    (g.explore limits obs clock).halt = .exhausted ↔
      g.nonFinals (g.level limits.maxDepth) = [] := by
  rw [halt_of_isComplete h]
  split <;> simp_all

/-- **A bound in depth is exact truncation, and the end tells whether it mattered.** Take two
explorations without a bound in words, neither ended by the time. The trace, the records and the
results of the one that is less deep are those of the other one up to its depth. It ends at the
bound exactly where it recorded a word there that is not final; else all words are exhausted, and
then the deeper one is the same. -/
theorem explore_maxDepth_truncates (g : Grammar) (limits limits' : Limits) (obs : Observer σ)
    (clock clock' : Clock) (hwords : limits.maxWords = none) (hwords' : limits'.maxWords = none)
    (hdepth : limits.maxDepth ≤ limits'.maxDepth)
    (htime : (g.explore limits obs clock).halt ≠ .timeout)
    (htime' : (g.explore limits' obs clock').halt ≠ .timeout) :
    g.trace limits clock <+: g.trace limits' clock' ∧
    g.trace limits clock =
      (g.trace limits' clock').filter (fun t => t.depth ≤ limits.maxDepth) ∧
    (∀ w, (g.explore limits obs clock).record? w =
      ((g.explore limits' obs clock').record? w).filter (fun r => r.depth ≤ limits.maxDepth)) ∧
    (g.explore limits obs clock).words <+: (g.explore limits' obs clock').words ∧
    ((g.explore limits obs clock).halt = .depthBound ↔
      ∃ w, (g.explore limits obs clock).depth? w = some limits.maxDepth ∧ ¬ g.isFinal w) ∧
    ((g.explore limits obs clock).halt ≠ .depthBound →
      (g.explore limits obs clock).halt = .exhausted) ∧
    ((g.explore limits obs clock).halt = .exhausted →
      g.explore limits' obs clock' = g.explore limits obs clock) := by
  have hcomplete := isComplete_of_maxWords_eq_none hwords htime
  have hcomplete' := isComplete_of_maxWords_eq_none hwords' htime'
  have hpre : g.trace limits clock <+: g.trace limits' clock' := by
    rw [trace_of_isComplete hcomplete, trace_of_isComplete hcomplete']
    exact chronicle_prefix_chronicle hdepth
  have hfilter : g.trace limits clock =
      (g.trace limits' clock').filter (fun t => t.depth ≤ limits.maxDepth) := by
    rw [trace_of_isComplete hcomplete, trace_of_isComplete hcomplete',
      filter_depth_chronicle hdepth]
  have hends : (g.explore limits obs clock).halt = .exhausted ∨
      (g.explore limits obs clock).halt = .depthBound := by
    rw [halt_of_isComplete hcomplete]
    split <;> simp
  refine ⟨hpre, hfilter, ?_, ?_, halt_eq_depthBound_iff hcomplete, hends.resolve_right, ?_⟩
  · intro w
    ext r
    rw [Option.filter_eq_some_iff]
    constructor
    · intro hr
      have hdepth? : (g.explore limits obs clock).depth? w = some r.depth := by
        rw [Exploration.depth?, hr, Option.map_some]
      have hle := ((depth?_explore_eq_some_iff hcomplete).1 hdepth?).1
      exact ⟨record?_of_prefix_trace hpre hr, decide_eq_true hle⟩
    · rintro ⟨hr, hle⟩
      rw [record?_explore_eq_some_iff] at hr ⊢
      apply hr.imp_right
      rintro ⟨t, ht, hchild, rfl⟩
      exact ⟨t, hfilter ▸ List.mem_filter.2 ⟨ht, hle⟩, hchild, rfl⟩
  · rw [words_explore, words_explore]
    exact (discoveries_prefix_discoveries hpre).filter _
  · intro hend
    have hlevel := (halt_eq_exhausted_iff hcomplete).1 hend
    obtain ⟨hchronicle, hlevel'⟩ := chronicle_of_nonFinals_eq_nil hlevel hdepth
    have hend' := (halt_eq_exhausted_iff hcomplete').2 hlevel'
    rw [explore_eq_ofTrace g limits', explore_eq_ofTrace g limits, trace_of_isComplete hcomplete,
      trace_of_isComplete hcomplete', hchronicle, hend, hend']

theorem explore_rightLinear_truncates_depth :
    (rightLinear.explore (.depth 1) .recorder .still).halt = .depthBound ∧
      rightLinear.trace (.depth 1) .still =
        (rightLinear.trace (.depth 2) .still).filter (fun t => t.depth ≤ 1) ∧
      (rightLinear.explore (.depth 1) .recorder .still).words <+:
        (rightLinear.explore (.depth 2) .recorder .still).words := by
  have htime := rightLinear.halt_ne_timeout (.depth 1) .recorder .still rfl
  have htime' := rightLinear.halt_ne_timeout (.depth 2) .recorder .still rfl
  obtain ⟨-, htrace, -, hwords, hend, -, -⟩ := explore_maxDepth_truncates rightLinear (.depth 1)
    (.depth 2) .recorder .still .still rfl rfl (by decide) htime htime'
  have hdepth : (rightLinear.explore (.depth 1) .recorder .still).depth? ['a', 'S'] = some 1 :=
    (depth?_explore_eq_some_iff (isComplete_of_maxWords_eq_none rfl htime)).2
      ⟨Nat.le_refl 1, by simp [level_one_rightLinear]⟩
  exact ⟨hend.2 ⟨['a', 'S'], hdepth, by decide⟩, htrace, hwords⟩

end Grammar

end StringRewriting
