import StringRewriting.Proofs.Exploration.DepthBound

/-!
# Records, results and trace agree

Wherever an exploration ends, its trace tells the same as its records and its results. A transition
expands a word that was found before it, so whatever holds of the start word and is kept by the
transitions holds of all recorded words.

* `Grammar.mem_level_of_record?`: a recorded word lies in the level of its depth.
* `Grammar.parent_of_trace_eq`, `Grammar.mem_discoveries_induction`: transitions and those before
  them.
* `Grammar.pairwise_depth_trace`: the depths of a trace never decrease.
* `Grammar.explore_agrees`: records, results and what the observer is told.
-/

namespace StringRewriting

universe u

/-- A prefix in which a member does not occur ends before that member. -/
theorem prefix_of_prefix_append_cons {α : Type u} {l before after : List α} {a : α}
    (h : l <+: before ++ a :: after) (ha : a ∉ l) : l <+: before := by
  rcases List.prefix_or_prefix_of_prefix h (List.prefix_append before _) with hpre | ⟨m, rfl⟩
  · exact hpre
  · rw [List.prefix_append_right_inj] at h
    cases m with
    | nil => simp
    | cons b m =>
      obtain ⟨rfl, -⟩ := List.cons_prefix_cons.1 h
      simp at ha

namespace Grammar

variable {σ : Type u} {g : Grammar} {limits : Limits} {obs : Observer σ} {clock : Clock}

/-! ## Levels -/

/-- No chain to a word of a level is shorter than the number of the level. -/
theorem le_of_mem_level {k n : Nat} {w : Word} (hk : w ∈ g.level k) (hn : g.Admissible n w) :
    k ≤ n := by
  cases k with
  | zero => exact Nat.zero_le n
  | succ k =>
    obtain ⟨p, -, hbirth⟩ := exists_parent_of_mem_level hk
    have hmem : (⟨p, w, k + 1⟩ : Transition) ∈ g.chronicle (k + 1) :=
      mem_chronicle.2 ⟨k, Nat.lt_succ_self k, hbirth⟩
    exact (depth_of_mem_chronicle hmem).2.2 n hn

theorem eq_of_mem_level {j k : Nat} {w : Word} (hj : w ∈ g.level j) (hk : w ∈ g.level k) : j = k :=
  Nat.le_antisymm (le_of_mem_level hj (admissible_of_mem_level hk))
    (le_of_mem_level hk (admissible_of_mem_level hj))

theorem mem_level_of_record? {w : Word} {r : Record}
    (hr : (g.explore limits obs clock).record? w = some r) : w ∈ g.level r.depth := by
  rcases record?_explore_eq_some_iff.1 hr with ⟨rfl, rfl⟩ | ⟨t, ht, rfl, rfl⟩
  · simp
  · exact (child_mem_level_of_mem_chronicle ((g.trace_prefix_chronicle limits clock).subset ht)).2

/-! ## Transitions and those before them -/

/-- Every transition of a chronicle expands a word of the level before the one it discovers, and all
words of that level are found already. -/
theorem parent_of_chronicle_eq {k : Nat} {before after : List Transition} {t : Transition}
    (h : g.chronicle k = before ++ t :: after) :
    ∃ j < k, t.depth = j + 1 ∧ t.parent ∈ g.level j ∧ ¬ g.isFinal t.parent ∧
      t.child ∈ successors g.rules t.parent ∧ t.parent ∈ g.found before := by
  have ht : t ∈ g.chronicle k := by simp [h]
  obtain ⟨j, hj, hbirth⟩ := mem_chronicle.1 ht
  obtain ⟨hnew, hdepth, hfind⟩ := parent_of_mem_births hbirth
  have hparent : t.parent ∈ g.level j ∧ ¬ g.isFinal t.parent :=
    mem_nonFinals.1 (List.mem_of_find?_eq_some hfind)
  have hstep : t.child ∈ successors g.rules t.parent := by simpa using List.find?_some hfind
  -- the levels up to `j` are complete before `t`, whose child is in none of them
  have hnotMem : t ∉ g.chronicle j := by
    intro hmem
    exact hnew (List.mem_cons_of_mem _ (List.mem_map_of_mem hmem))
  have hpre : g.chronicle j <+: before :=
    prefix_of_prefix_append_cons (h ▸ chronicle_prefix_chronicle (Nat.le_of_lt hj)) hnotMem
  have hfound : t.parent ∈ g.found (g.chronicle j) :=
    mem_found_chronicle.2 ⟨j, Nat.le_refl j, hparent.1⟩
  refine ⟨j, hj, hdepth, hparent.1, hparent.2, hstep, ?_⟩
  obtain ⟨us, rfl⟩ := hpre
  rw [found_append]
  exact List.mem_append_left _ hfound

/-- **A transition expands a word that was found before it and is not final.** -/
theorem parent_of_trace_eq {before after : List Transition} {t : Transition}
    (h : g.trace limits clock = before ++ t :: after) :
    ∃ j < limits.maxDepth, t.depth = j + 1 ∧ t.parent ∈ g.level j ∧ ¬ g.isFinal t.parent ∧
      t.child ∈ successors g.rules t.parent ∧ t.parent ∈ g.found before := by
  obtain ⟨us, hus⟩ := g.trace_prefix_chronicle limits clock
  rw [h, List.append_assoc, List.cons_append] at hus
  exact parent_of_chronicle_eq hus.symm

theorem start_mem_discoveries : g.start ∈ g.discoveries limits clock :=
  List.mem_cons_self

theorem child_mem_discoveries {t : Transition} (ht : t ∈ g.trace limits clock) :
    t.child ∈ g.discoveries limits clock :=
  List.mem_cons_of_mem _ (List.mem_map_of_mem ht)

theorem parent_mem_discoveries {t : Transition} (ht : t ∈ g.trace limits clock) :
    t.parent ∈ g.discoveries limits clock := by
  obtain ⟨before, after, h⟩ := List.append_of_mem ht
  obtain ⟨_, _, _, _, _, _, hfound⟩ := parent_of_trace_eq h
  rw [discoveries, h, found_append]
  exact List.mem_append_left _ hfound

theorem mem_discoveries_of_mem_words {w : Word} (hw : w ∈ (g.explore limits obs clock).words) :
    w ∈ g.discoveries limits clock := by
  rw [words_explore] at hw
  exact List.mem_of_mem_filter hw

/-- What holds of the start word and is kept by every transition holds of all recorded words. -/
theorem mem_discoveries_induction {motive : (w : Word) → w ∈ g.discoveries limits clock → Prop}
    (start : motive g.start start_mem_discoveries)
    (child : ∀ t (ht : t ∈ g.trace limits clock), motive t.parent (parent_mem_discoveries ht) →
      motive t.child (child_mem_discoveries ht))
    {w : Word} (hw : w ∈ g.discoveries limits clock) : motive w hw := by
  suffices hprefix : ∀ ts, ts <+: g.trace limits clock → ∀ w ∈ g.found ts, ∀ hw, motive w hw from
    hprefix _ (List.prefix_refl _) w hw hw
  intro ts
  -- the transitions are taken in their order, so that the parent of each has been found
  induction ts using List.reverseRecOn with
  | nil =>
    intro _ w hfound hw
    rw [found_nil, List.mem_singleton] at hfound
    subst hfound
    exact start
  | append_singleton ts t ih =>
    rintro ⟨us, hus⟩ w hfound hw
    rw [List.append_assoc, List.singleton_append] at hus
    have hts : ∀ w ∈ g.found ts, ∀ hw, motive w hw := ih ⟨t :: us, hus⟩
    rw [found_append, List.map_singleton, List.mem_append, List.mem_singleton] at hfound
    rcases hfound with hfound | rfl
    · exact hts w hfound hw
    · obtain ⟨_, _, _, _, _, _, hparent⟩ := parent_of_trace_eq hus.symm
      have ht : t ∈ g.trace limits clock := by simp [← hus]
      exact child t ht (hts _ hparent _)

/-! ## Depths -/

theorem pairwise_depth_chronicle (k : Nat) :
    (g.chronicle k).Pairwise fun t u => t.depth ≤ u.depth := by
  induction k with
  | zero => exact List.Pairwise.nil
  | succ k ih =>
    refine List.pairwise_append.2 ⟨ih, ?_, ?_⟩
    · refine List.pairwise_of_forall_mem_list fun t ht u hu => Nat.le_of_eq ?_
      rw [depth_of_mem_births ht, depth_of_mem_births hu]
    · intro t ht u hu
      rw [depth_of_mem_births hu]
      exact Nat.le_succ_of_le (child_mem_level_of_mem_chronicle ht).1

theorem pairwise_depth_trace (g : Grammar) (limits : Limits) (clock : Clock) :
    (g.trace limits clock).Pairwise fun t u => t.depth ≤ u.depth :=
  (pairwise_depth_chronicle limits.maxDepth).sublist
    (g.trace_prefix_chronicle limits clock).sublist

/-! ## Records -/

theorem record?_child {t : Transition} (ht : t ∈ g.trace limits clock) :
    (g.explore limits obs clock).record? t.child = some ⟨t.depth, some t.parent⟩ :=
  record?_explore_eq_some_iff.2 (.inr ⟨t, ht, rfl, rfl⟩)

theorem parent_eq_none_iff_of_record? {w : Word} {r : Record}
    (hr : (g.explore limits obs clock).record? w = some r) : r.parent = none ↔ w = g.start := by
  constructor
  · intro hnone
    rcases record?_explore_eq_some_iff.1 hr with ⟨rfl, -⟩ | ⟨t, -, -, rfl⟩
    · rfl
    · exact absurd hnone (Option.some_ne_none _)
  · rintro rfl
    rw [record?_explore_start, Option.some_inj] at hr
    rw [← hr]

/-- The parent of a transition is recorded one step less deep than its child. -/
theorem exists_record?_parent (obs : Observer σ) {t : Transition} (ht : t ∈ g.trace limits clock) :
    ∃ r, (g.explore limits obs clock).record? t.parent = some r ∧ r.depth + 1 = t.depth := by
  obtain ⟨before, after, h⟩ := List.append_of_mem ht
  obtain ⟨j, -, hdepth, hlevel, -⟩ := parent_of_trace_eq h
  have hrecord : ∃ r, (g.explore limits obs clock).record? t.parent = some r :=
    exists_record?_explore_iff.2 (parent_mem_discoveries ht)
  obtain ⟨r, hr⟩ := hrecord
  exact ⟨r, hr, by rw [hdepth, eq_of_mem_level (mem_level_of_record? hr) hlevel]⟩

theorem discovered_eq_length_trace :
    (g.explore limits obs clock).discovered = 1 + (g.trace limits clock).length := by
  rw [discovered_explore, discoveries, length_found, Nat.add_comm]

/-- **Records, results and trace agree wherever an exploration ends.** A transition of the trace is
the record of its child. Besides the start word, which alone has no parent, the recorded words are
the children of the trace, none of them twice. A transition comes after the one that discovers its
parent, which is not final and one step less deep; the depths respect the bound and never decrease.
The results are the final ones of the recorded words, in the order of their discovery. The observer
is told of the trace and of nothing else, and without one the exploration is the same. -/
theorem explore_agrees (g : Grammar) (limits : Limits) (obs : Observer σ) (clock : Clock) :
    ((∀ t ∈ g.trace limits clock,
        (g.explore limits obs clock).record? t.child = some ⟨t.depth, some t.parent⟩) ∧
      (g.explore limits obs clock).record? g.start = some ⟨0, none⟩ ∧
      (∀ w r, (g.explore limits obs clock).record? w = some r →
        (r.parent = none ↔ w = g.start)) ∧
      (∀ w, (∃ r, (g.explore limits obs clock).record? w = some r) ↔
        w = g.start ∨ ∃ t ∈ g.trace limits clock, t.child = w) ∧
      (g.start :: (g.trace limits clock).map Transition.child).Nodup ∧
      (g.explore limits obs clock).discovered = 1 + (g.trace limits clock).length) ∧
    ((∀ before t after, g.trace limits clock = before ++ t :: after →
        ¬ g.isFinal t.parent ∧ t.parent ∈ g.start :: before.map Transition.child ∧
          (∃ r, (g.explore limits obs clock).record? t.parent = some r ∧ r.depth + 1 = t.depth) ∧
          t.depth ≤ limits.maxDepth) ∧
      (g.trace limits clock).Pairwise fun t u => t.depth ≤ u.depth) ∧
    ((g.explore limits obs clock).words =
        (g.start :: (g.trace limits clock).map Transition.child).filter g.isFinal ∧
      (g.explore limits obs clock).words.Nodup) ∧
    (g.explore limits obs clock).observed =
      (g.trace limits clock).foldl obs.notify obs.initial ∧
    ((g.explore limits .silent clock).words = (g.explore limits obs clock).words ∧
      (g.explore limits .silent clock).records = (g.explore limits obs clock).records ∧
      (g.explore limits .silent clock).halt = (g.explore limits obs clock).halt ∧
      ∀ maxDepth, g.generate maxDepth = (g.generateWith maxDepth obs).1) := by
  have hnodup := g.nodup_discoveries limits clock
  refine ⟨⟨fun t ht => record?_child ht, record?_explore_start, ?_, ?_, hnodup,
    discovered_eq_length_trace⟩, ⟨?_, g.pairwise_depth_trace limits clock⟩,
    ⟨g.words_explore limits obs clock, ?_⟩, g.observed_explore limits obs clock, ?_⟩
  · intro w r hr
    exact parent_eq_none_iff_of_record? hr
  · intro w
    rw [exists_record?_explore_iff, discoveries, found, List.mem_cons, List.mem_map]
  · intro before t after h
    obtain ⟨j, hj, hdepth, -, hfinal, -, hfound⟩ := parent_of_trace_eq h
    exact ⟨hfinal, hfound, exists_record?_parent obs (by simp [h]), by omega⟩
  · rw [words_explore]
    exact hnodup.filter _
  · rw [explore_eq_watch g limits .silent, explore_eq_watch g limits obs]
    refine ⟨rfl, rfl, rfl, fun maxDepth => ?_⟩
    rw [generate, generateWith, words_explore, words_explore]

theorem explore_rightLinear_agrees :
    rightLinear.trace (.depth 2) .still =
        [⟨['S'], ['a', 'S'], 1⟩, ⟨['S'], ['b'], 1⟩] ++
          ⟨['a', 'S'], ['a', 'a', 'S'], 2⟩ :: [⟨['a', 'S'], ['a', 'b'], 2⟩] ∧
      (rightLinear.explore (.depth 2) .recorder .still).record? ['a', 'a', 'S'] =
        some ⟨2, some ['a', 'S']⟩ ∧
      (∃ r, (rightLinear.explore (.depth 2) .recorder .still).record? ['a', 'S'] = some r ∧
        r.depth + 1 = 2) ∧
      (rightLinear.explore (.depth 2) .recorder .still).discovered = 5 := by
  have htrace : rightLinear.trace (.depth 2) .still =
      [⟨['S'], ['a', 'S'], 1⟩, ⟨['S'], ['b'], 1⟩] ++
        ⟨['a', 'S'], ['a', 'a', 'S'], 2⟩ :: [⟨['a', 'S'], ['a', 'b'], 2⟩] :=
    trace_rightLinear
  obtain ⟨⟨hrecord, -, -, -, -, hdiscovered⟩, ⟨hparent, -⟩, -, -, -⟩ :=
    explore_agrees rightLinear (.depth 2) .recorder .still
  obtain ⟨-, -, hdepth, -⟩ := hparent _ _ _ htrace
  exact ⟨htrace, hrecord ⟨['a', 'S'], ['a', 'a', 'S'], 2⟩ (by simp [htrace]), hdepth,
    hdiscovered.trans (by rw [htrace]; rfl)⟩

end Grammar

end StringRewriting
