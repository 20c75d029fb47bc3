import StringRewriting.Proofs.Exploration.Levels

/-!
# What an exploration reaches

Only words that are not final are expanded, so an exploration follows the chains whose words but the
last are not final. The level of a word is the length of the shortest of them.

* `Grammar.Admissible`, `Grammar.Reachable`: the two kinds of chains from the start word.
* `Grammar.admissible_of_mem_level`, `Grammar.exists_mem_level_of_admissible`: chains and levels.
* `Grammar.explore_reaches`: the records and the results of an exploration.
-/

namespace StringRewriting

universe u

namespace Grammar

/-- A chain of `n` steps leads from the start word to `w`, and no word before the last is final. -/
def Admissible (g : Grammar) (n : Nat) (w : Word) : Prop :=
  Rewriting.Chain g.rules (fun w => ¬ g.isFinal w) g.start n w

/-- Any chain of `n` steps leads from the start word to `w`. -/
def Reachable (g : Grammar) (n : Nat) (w : Word) : Prop :=
  Rewriting.Chain g.rules (fun _ => True) g.start n w

variable {σ : Type u} {g : Grammar} {limits : Limits} {obs : Observer σ} {clock : Clock}

theorem Admissible.reachable {n : Nat} {w : Word} (h : g.Admissible n w) : g.Reachable n w :=
  h.imp fun _ _ _ _ => trivial

/-- Where every left side has a symbol that is no terminal, final words have no successors. -/
theorem Reachable.admissible (hlhs : ∀ r ∈ g.rules, ∃ c ∈ r.lhs, c ∉ g.terminals) {n : Nat}
    {w : Word} (h : g.Reachable n w) : g.Admissible n w := by
  refine h.imp fun v w hstep _ hfinal => ?_
  obtain ⟨r, hr, x, y, rfl, -⟩ := hstep
  obtain ⟨c, hc, hcg⟩ := hlhs r hr
  exact hcg (isFinal_iff.1 hfinal c (by simp [hc]))

/-! ## Chains and levels -/

theorem admissible_of_mem_level {k : Nat} {w : Word} (h : w ∈ g.level k) : g.Admissible k w := by
  induction k generalizing w with
  | zero =>
    rw [level_zero, List.mem_singleton] at h
    rw [h]
    exact .refl
  | succ k ih =>
    obtain ⟨p, hfind, -⟩ := exists_parent_of_mem_level h
    have hp : p ∈ g.level k ∧ ¬ g.isFinal p := mem_nonFinals.1 (List.mem_of_find?_eq_some hfind)
    have hstep : w ∈ successors g.rules p := by simpa using List.find?_some hfind
    exact .step (ih hp.1) hp.2 (mem_successors_iff_step.1 hstep)

/-- A successor of a word that is not final is in the next level or in an earlier one. -/
theorem exists_mem_level_of_step {k : Nat} {w w' : Word} (h : w ∈ g.level k)
    (hfinal : ¬ g.isFinal w) (hstep : Rewriting.Step g.rules w w') :
    ∃ j ≤ k + 1, w' ∈ g.level j := by
  have hcandidate : w' ∈ (g.candidates (k + 1) (g.nonFinals (g.level k))).map Transition.child := by
    rw [map_child_candidates, List.mem_flatMap]
    exact ⟨w, mem_nonFinals.2 ⟨h, hfinal⟩, mem_successors_iff_step.2 hstep⟩
  rw [← mem_found_chronicle, chronicle, found_append]
  exact (mem_append_map_freshBy _).2 (List.mem_append_right _ hcandidate)

theorem exists_mem_level_of_admissible {n : Nat} {w : Word} (h : g.Admissible n w) :
    ∃ k ≤ n, w ∈ g.level k := by
  induction h with
  | refl => exact ⟨0, Nat.le_refl 0, by simp⟩
  | step _ hw hstep ih =>
    obtain ⟨k, hk, hmem⟩ := ih
    obtain ⟨j, hj, hmem'⟩ := exists_mem_level_of_step hmem hw hstep
    exact ⟨j, by omega, hmem'⟩

/-- The words of the levels up to `k` are those at the ends of the chains of at most `k` steps. -/
theorem mem_found_chronicle_iff_admissible {k : Nat} {w : Word} :
    w ∈ g.found (g.chronicle k) ↔ ∃ n ≤ k, g.Admissible n w := by
  rw [mem_found_chronicle]
  constructor
  · rintro ⟨j, hj, hw⟩
    exact ⟨j, hj, admissible_of_mem_level hw⟩
  · rintro ⟨n, hn, hw⟩
    obtain ⟨j, hj, hmem⟩ := exists_mem_level_of_admissible hw
    exact ⟨j, by omega, hmem⟩

/-! ## Records -/

/-- The depth of a transition of the chronicle is the length of the shortest chain to its child. -/
theorem depth_of_mem_chronicle {k : Nat} {t : Transition} (h : t ∈ g.chronicle k) :
    t.depth ≤ k ∧ g.Admissible t.depth t.child ∧ ∀ n, g.Admissible n t.child → t.depth ≤ n := by
  obtain ⟨hle, hlevel⟩ := child_mem_level_of_mem_chronicle h
  refine ⟨hle, admissible_of_mem_level hlevel, fun n hn => ?_⟩
  obtain ⟨j, hj, ht⟩ := mem_chronicle.1 h
  obtain ⟨hnew, hdepth, -⟩ := parent_of_mem_births ht
  by_contra hlt
  exact hnew (mem_found_chronicle_iff_admissible.2 ⟨n, by omega, hn⟩)

theorem discoveries_of_isComplete (h : (g.explore limits obs clock).halt.isComplete) :
    g.discoveries limits clock = g.found (g.chronicle limits.maxDepth) := by
  rw [discoveries, trace_of_isComplete h]

/-- **An exploration is sound, minimal and, if it is complete, leaves nothing out.** A recorded word
is at the end of an admissible chain of as many steps as its depth says, and of no shorter one. A
complete exploration records every word at the end of an admissible chain within the depth bound;
its results are the final words among them. If no rule applies to final words, these are the final
words at the end of any chain within the depth bound. -/
theorem explore_reaches (g : Grammar) (limits : Limits) (obs : Observer σ) (clock : Clock) :
    (∀ w r, (g.explore limits obs clock).record? w = some r →
      r.depth ≤ limits.maxDepth ∧ g.Admissible r.depth w ∧
        ∀ n, g.Admissible n w → r.depth ≤ n) ∧
    ((g.explore limits obs clock).halt.isComplete →
      (∀ n ≤ limits.maxDepth, ∀ w, g.Admissible n w →
        ∃ r, (g.explore limits obs clock).record? w = some r) ∧
      (∀ w, w ∈ (g.explore limits obs clock).words ↔
        g.isFinal w ∧ ∃ n ≤ limits.maxDepth, g.Admissible n w) ∧
      (g.explore limits obs clock).words.Nodup ∧
      ((∀ r ∈ g.rules, ∃ c ∈ r.lhs, c ∉ g.terminals) →
        ∀ w, w ∈ (g.explore limits obs clock).words ↔
          g.isFinal w ∧ ∃ n ≤ limits.maxDepth, g.Reachable n w)) := by
  constructor
  · intro w r hr
    rcases record?_explore_eq_some_iff.1 hr with ⟨rfl, rfl⟩ | ⟨t, ht, rfl, rfl⟩
    · exact ⟨Nat.zero_le _, .refl, fun n _ => Nat.zero_le n⟩
    · exact depth_of_mem_chronicle ((g.trace_prefix_chronicle limits clock).subset ht)
  · intro hcomplete
    have hfound := discoveries_of_isComplete hcomplete
    have hwords : ∀ w, w ∈ (g.explore limits obs clock).words ↔
        g.isFinal w ∧ ∃ n ≤ limits.maxDepth, g.Admissible n w := by
      intro w
      rw [words_explore, List.mem_filter, hfound, mem_found_chronicle_iff_admissible, and_comm]
    refine ⟨?_, hwords, ?_, ?_⟩
    · intro n hn w hw
      rw [exists_record?_explore_iff, hfound]
      exact mem_found_chronicle_iff_admissible.2 ⟨n, hn, hw⟩
    · rw [words_explore]
      exact (g.nodup_discoveries limits clock).filter _
    · intro hlhs w
      have hchains : ∀ n, g.Admissible n w ↔ g.Reachable n w := fun n =>
        ⟨Admissible.reachable, Reachable.admissible hlhs⟩
      simp only [hwords, hchains]

theorem explore_rightLinear_reaches :
    (rightLinear.explore (.depth 2) .recorder .still).halt.isComplete ∧
      (∀ r ∈ rightLinear.rules, ∃ c ∈ r.lhs, c ∉ rightLinear.terminals) ∧
      ∀ w, w ∈ (rightLinear.explore (.depth 2) .recorder .still).words ↔
        rightLinear.isFinal w ∧ ∃ n ≤ 2, rightLinear.Reachable n w := by
  have hcomplete : (rightLinear.explore (.depth 2) .recorder .still).halt.isComplete :=
    isComplete_of_maxWords_eq_none rfl (rightLinear.halt_ne_timeout (.depth 2) .recorder .still rfl)
  have hlhs : ∀ r ∈ rightLinear.rules, ∃ c ∈ r.lhs, c ∉ rightLinear.terminals := by
    simp [rightLinear]
  obtain ⟨-, hreaches⟩ := explore_reaches rightLinear (.depth 2) .recorder .still
  exact ⟨hcomplete, hlhs, (hreaches hcomplete).2.2.2 hlhs⟩

end Grammar

end StringRewriting
