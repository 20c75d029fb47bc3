import StringRewriting.Proofs.Exploration.Cutting

/-!
# Exploration level by level

Level `0` holds the start word. The next level holds the successors of the words of a level that are
not final, in order, as far as they are in no earlier level and not yet in this one. The exploration
with a queue discovers the words in the order of the levels, although its frontier holds the end of
one level and the beginning of the next.

* `Grammar.level`, `Grammar.level_succ`: the levels.
* `Grammar.chronicle`: the transitions that discover them; `Grammar.found_chronicle`.
* `State.exists_reaches_of_frontier`: a whole level is taken from the front of the frontier.
* `Grammar.explore_depth`: the trace of an exploration and its end, by levels.
* `Grammar.trace_of_isComplete`, `Grammar.trace_prefix_chronicle`: other limits only cut it.
-/

namespace StringRewriting

universe u

namespace Grammar

variable (g : Grammar)

/-- The words of a list that are not final. -/
def nonFinals (ws : List Word) : List Word :=
  ws.filter fun w => ¬ g.isFinal w

theorem nonFinals_append (vs ws : List Word) :
    g.nonFinals (vs ++ ws) = g.nonFinals vs ++ g.nonFinals ws :=
  List.filter_append vs ws

variable {g} in
theorem mem_nonFinals {ws : List Word} {w : Word} :
    w ∈ g.nonFinals ws ↔ w ∈ ws ∧ ¬ g.isFinal w := by
  simp [nonFinals]

/-- The words of all levels before level `k` and the words of level `k`. -/
def levels : Nat → List Word × List Word
  | 0 => ([], [g.start])
  | k + 1 =>
    let (earlier, last) := levels k
    (earlier ++ last,
      freshBy id (earlier ++ last) ((g.nonFinals last).flatMap (successors g.rules)))

/-- The words of level `k` in their order. -/
def level (k : Nat) : List Word :=
  (g.levels k).2

@[simp] theorem level_zero : g.level 0 = [g.start] := rfl

theorem levels_fst (k : Nat) : (g.levels k).1 = (List.range k).flatMap g.level := by
  induction k with
  | zero => rfl
  | succ k ih =>
    rw [List.range_succ, List.flatMap_append, ← ih, List.flatMap_singleton]
    rfl

/-- A level holds the successors of the last one that are new. -/
theorem level_succ (k : Nat) :
    g.level (k + 1) = freshBy id ((List.range (k + 1)).flatMap g.level)
      ((g.nonFinals (g.level k)).flatMap (successors g.rules)) := by
  rw [← levels_fst]
  rfl

/-- The transitions that discover the words of the levels `1` to `k`. -/
def chronicle : Nat → List Transition
  | 0 => []
  | k + 1 => chronicle k ++ g.births (chronicle k) (k + 1) (g.nonFinals (g.level k))

variable {g}

theorem map_child_births (ts : List Transition) (depth : Nat) (ws : List Word) :
    (g.births ts depth ws).map Transition.child =
      freshBy id (g.found ts) (ws.flatMap (successors g.rules)) := by
  rw [births, map_freshBy, map_child_candidates]

/-- The chronicle discovers the words of the levels in their order. -/
theorem found_chronicle (k : Nat) :
    g.found (g.chronicle k) = (List.range (k + 1)).flatMap g.level := by
  induction k with
  | zero => rfl
  | succ k ih =>
    rw [chronicle, found_append, map_child_births, ih, ← level_succ]
    conv => rhs; rw [List.range_succ, List.flatMap_append, List.flatMap_singleton]

theorem map_child_births_chronicle (k : Nat) :
    (g.births (g.chronicle k) (k + 1) (g.nonFinals (g.level k))).map Transition.child =
      g.level (k + 1) := by
  rw [map_child_births, found_chronicle, ← level_succ]

theorem depth_of_mem_births {ts : List Transition} {depth : Nat} {ws : List Word} {t : Transition}
    (h : t ∈ g.births ts depth ws) : t.depth = depth :=
  (parent_of_mem_births h).2.1

/-- A transition of the chronicle discovers a word of one of its levels. -/
theorem mem_chronicle {k : Nat} {t : Transition} :
    t ∈ g.chronicle k ↔
      ∃ j < k, t ∈ g.births (g.chronicle j) (j + 1) (g.nonFinals (g.level j)) := by
  induction k with
  | zero => simp [chronicle]
  | succ k ih =>
    rw [chronicle, List.mem_append, ih]
    constructor
    · rintro (⟨j, hj, ht⟩ | ht)
      · exact ⟨j, by omega, ht⟩
      · exact ⟨k, by omega, ht⟩
    · rintro ⟨j, hj, ht⟩
      by_cases hjk : j = k
      · exact .inr (hjk ▸ ht)
      · exact .inl ⟨j, by omega, ht⟩

theorem child_mem_level_of_mem_chronicle {k : Nat} {t : Transition} (h : t ∈ g.chronicle k) :
    t.depth ≤ k ∧ t.child ∈ g.level t.depth := by
  obtain ⟨j, hj, ht⟩ := mem_chronicle.1 h
  rw [depth_of_mem_births ht, ← map_child_births_chronicle]
  exact ⟨hj, List.mem_map_of_mem ht⟩

theorem mem_found_chronicle {k : Nat} {w : Word} :
    w ∈ g.found (g.chronicle k) ↔ ∃ j ≤ k, w ∈ g.level j := by
  simp only [found_chronicle, List.mem_flatMap, List.mem_range, Nat.lt_succ_iff]

theorem nodup_found_chronicle (k : Nat) : (g.found (g.chronicle k)).Nodup := by
  induction k with
  | zero => exact List.nodup_singleton _
  | succ k ih => exact nodup_found_append_births ih _ _

/-- A word of a level is discovered from the first word of the level before that leads to it. -/
theorem exists_parent_of_mem_level {k : Nat} {w : Word} (h : w ∈ g.level (k + 1)) :
    ∃ p, (g.nonFinals (g.level k)).find? (fun p => w ∈ successors g.rules p) = some p ∧
      ⟨p, w, k + 1⟩ ∈ g.births (g.chronicle k) (k + 1) (g.nonFinals (g.level k)) := by
  rw [← map_child_births_chronicle, List.mem_map] at h
  obtain ⟨t, ht, rfl⟩ := h
  obtain ⟨-, hdepth, hfind⟩ := parent_of_mem_births ht
  exact ⟨t.parent, hfind, hdepth ▸ ht⟩

theorem pending_births (ts : List Transition) (depth : Nat) (ws : List Word) :
    g.pending (g.births ts depth ws) =
      (g.nonFinals ((g.births ts depth ws).map Transition.child)).map (·, depth) := by
  rw [pending, nonFinals, List.filter_map, List.map_map]
  refine List.map_congr_left fun t ht => ?_
  rw [Function.comp_apply, depth_of_mem_births (List.mem_of_mem_filter ht)]

end Grammar

namespace State

variable {g : Grammar} {clock : Clock}

/-- Words of one depth at the front of the frontier are expanded one after the other. -/
theorem exists_reaches_of_frontier {s : State (Array Transition)} (h : s.Consistent g)
    {ws : List Word} {maxDepth depth : Nat} {q : List (Word × Nat)}
    (hq : s.frontier.toList = ws.map (·, depth) ++ q) (hdepth : depth < maxDepth) (n : Nat) :
    ∃ n' s', Reaches g (.depth maxDepth) clock n s n' s' ∧
      s.Extends g (.depth maxDepth) q (g.births s.trace (depth + 1) ws) s' := by
  -- the births of the words that were expanded wait behind `q`, which holds the next level
  induction ws generalizing s q n with
  | nil =>
    rw [List.map_nil, List.nil_append] at hq
    exact ⟨n, s, .refl, hq ▸ .refl h⟩
  | cons w ws ih =>
    rw [List.map_cons, List.cons_append] at hq
    obtain ⟨s₁, hs₁, hext₁⟩ := exists_step_depth h hq hdepth (clock n)
    have hq₁ : s₁.frontier.toList =
        ws.map (·, depth) ++ (q ++ g.pending (g.births s.trace (depth + 1) [w])) := by
      rw [hext₁.frontier, List.append_assoc]
    obtain ⟨n', s', hreach, hext⟩ := ih hext₁.consistent hq₁ (n + 1)
    refine ⟨n', s', .of_step hs₁ hreach, ?_⟩
    rw [Grammar.births_cons]
    rw [hext₁.trace] at hext
    exact hext₁.trans hext

/-- Where the frontier holds exactly one level, the rest of the run discovers the later ones. -/
theorem exists_run_of_level {s : State (Array Transition)} (h : s.Consistent g) {k : Nat}
    (htrace : s.trace = g.chronicle k)
    (hq : s.frontier.toList = (g.nonFinals (g.level k)).map (·, k)) (j n : Nat) :
    ∃ s', s'.trace = g.chronicle (k + j) ∧ s.run g (.depth (k + j)) .recorder clock n =
      (if g.nonFinals (g.level (k + j)) = [] then .exhausted else .depthBound, s') := by
  induction j generalizing s k n with
  | zero =>
    refine ⟨s, htrace, ?_⟩
    cases hlevel : g.nonFinals (g.level k) with
    | nil =>
      rw [hlevel, List.map_nil] at hq
      rw [run_of_ended (step_of_nil hq _ _), if_pos rfl]
    | cons w ws =>
      rw [hlevel, List.map_cons] at hq
      rw [run_of_ended (step_of_deep hq (.depth (k + 0)) (Nat.le_refl k) _),
        if_neg (List.cons_ne_nil w ws)]
  | succ j ih =>
    have hsum : k + (j + 1) = k + 1 + j := by omega
    have hq' : s.frontier.toList = (g.nonFinals (g.level k)).map (·, k) ++ [] := by
      rw [hq, List.append_nil]
    obtain ⟨n', s', hreach, hext⟩ :=
      exists_reaches_of_frontier h hq' (show k < k + (j + 1) by omega) n
    have htrace' : s'.trace = g.chronicle (k + 1) := by
      rw [hext.trace, htrace, Grammar.chronicle]
    have hfrontier : s'.frontier.toList = (g.nonFinals (g.level (k + 1))).map (·, k + 1) := by
      rw [hext.frontier, List.nil_append, htrace, Grammar.pending_births,
        Grammar.map_child_births_chronicle]
    rw [hreach.run_eq, hsum]
    exact ih hext.consistent htrace' hfrontier n'

end State

namespace Grammar

variable {σ : Type u} {g : Grammar} {limits : Limits} {obs : Observer σ} {clock : Clock}

/-- **The exploration discovers the levels one after the other**, and it leaves something unexpanded
exactly where the last level has words that are not final. -/
theorem explore_depth (g : Grammar) (maxDepth : Nat) (obs : Observer σ) (clock : Clock) :
    g.trace (.depth maxDepth) clock = g.chronicle maxDepth ∧
      (g.explore (.depth maxDepth) obs clock).halt =
        if g.nonFinals (g.level maxDepth) = [] then .exhausted else .depthBound := by
  have hfrontier : (State.initial g .recorder).frontier.toList =
      (g.nonFinals (g.level 0)).map (·, 0) := by
    rw [State.frontier_initial, level_zero]
    cases hstart : g.isFinal g.start <;> simp [nonFinals, hstart]
  obtain ⟨s', htrace, hrun⟩ := State.exists_run_of_level (k := 0) (State.consistent_initial g)
    (State.trace_initial g) hfrontier maxDepth 0
  rw [Nat.zero_add] at htrace hrun
  rw [halt_explore, trace, explore, hrun]
  exact ⟨htrace, rfl⟩

/-- Limits in words and time only cut the chronicle. -/
theorem trace_prefix_chronicle (g : Grammar) (limits : Limits) (clock : Clock) :
    g.trace limits clock <+: g.chronicle limits.maxDepth := by
  rw [← (g.explore_depth limits.maxDepth .recorder clock).1]
  exact g.trace_prefix_depth limits clock clock

theorem length_trace_lt_of_wordLimit (h : (g.explore limits obs clock).halt = .wordLimit) :
    (g.trace limits clock).length < (g.chronicle limits.maxDepth).length := by
  rw [← (g.explore_depth limits.maxDepth obs clock).1]
  exact (cut_of_wordLimit h clock).1

theorem trace_of_isComplete (h : (g.explore limits obs clock).halt.isComplete) :
    g.trace limits clock = g.chronicle limits.maxDepth := by
  rw [halt_explore] at h
  rw [trace, explore_eq_of_isComplete h clock]
  exact (g.explore_depth limits.maxDepth .recorder clock).1

theorem halt_of_isComplete (h : (g.explore limits obs clock).halt.isComplete) :
    (g.explore limits obs clock).halt =
      if g.nonFinals (g.level limits.maxDepth) = [] then .exhausted else .depthBound := by
  rw [explore_eq_of_isComplete h clock]
  exact (g.explore_depth limits.maxDepth obs clock).2

/-- A complete exploration gives the words of a level the records of their discovery. -/
theorem record?_of_mem_level (h : (g.explore limits obs clock).halt.isComplete) {k : Nat}
    (hk : k < limits.maxDepth) {w : Word} (hw : w ∈ g.level (k + 1)) :
    ∃ p, (g.nonFinals (g.level k)).find? (fun p => w ∈ successors g.rules p) = some p ∧
      (g.explore limits obs clock).record? w = some ⟨k + 1, some p⟩ := by
  obtain ⟨p, hfind, hbirth⟩ := exists_parent_of_mem_level hw
  have hmem : (⟨p, w, k + 1⟩ : Transition) ∈ g.trace limits clock := by
    rw [trace_of_isComplete h]
    exact mem_chronicle.2 ⟨k, hk, hbirth⟩
  exact ⟨p, hfind, record?_explore_eq_some_iff.2 (.inr ⟨_, hmem, rfl, rfl⟩)⟩

theorem depth?_explore_eq_some_iff (h : (g.explore limits obs clock).halt.isComplete) {w : Word}
    {k : Nat} : (g.explore limits obs clock).depth? w = some k ↔
      k ≤ limits.maxDepth ∧ w ∈ g.level k := by
  rw [Exploration.depth?, Option.map_eq_some_iff]
  constructor
  · rintro ⟨r, hr, rfl⟩
    rcases record?_explore_eq_some_iff.1 hr with ⟨rfl, rfl⟩ | ⟨t, ht, rfl, rfl⟩
    · simp
    · rw [trace_of_isComplete h] at ht
      exact child_mem_level_of_mem_chronicle ht
  · rintro ⟨hk, hw⟩
    cases k with
    | zero =>
      rw [level_zero, List.mem_singleton] at hw
      exact ⟨⟨0, none⟩, hw ▸ record?_explore_start, rfl⟩
    | succ k =>
      obtain ⟨p, -, hr⟩ := record?_of_mem_level h hk hw
      exact ⟨⟨k + 1, some p⟩, hr, rfl⟩

/-- **The exploration with a queue refines the one level by level.** Without a bound in words, and
if the time is not over before the end, the words are discovered in the order of the levels, each
with the number of its level and with the first word of the level before that leads to it; the
results are the final ones among them in this order. -/
theorem explore_level_by_level (g : Grammar) (limits : Limits) (obs : Observer σ) (clock : Clock)
    (hwords : limits.maxWords = none) (htime : (g.explore limits obs clock).halt ≠ .timeout) :
    (g.explore limits obs clock).observed =
        (g.trace limits clock).foldl obs.notify obs.initial ∧
      g.start :: (g.trace limits clock).map Transition.child =
        (List.range (limits.maxDepth + 1)).flatMap g.level ∧
      (g.explore limits obs clock).record? g.start = some ⟨0, none⟩ ∧
      (∀ k < limits.maxDepth, ∀ w ∈ g.level (k + 1), ∃ p,
        (g.nonFinals (g.level k)).find? (fun p => w ∈ successors g.rules p) = some p ∧
          (g.explore limits obs clock).record? w = some ⟨k + 1, some p⟩) ∧
      (g.explore limits obs clock).words =
        ((List.range (limits.maxDepth + 1)).flatMap g.level).filter g.isFinal := by
  have hcomplete := isComplete_of_maxWords_eq_none hwords htime
  have horder : g.discoveries limits clock =
      (List.range (limits.maxDepth + 1)).flatMap g.level := by
    rw [discoveries, trace_of_isComplete hcomplete, found_chronicle]
  refine ⟨g.observed_explore limits obs clock, horder, record?_explore_start, ?_, ?_⟩
  · intro k hk w hw
    exact record?_of_mem_level hcomplete hk hw
  · rw [words_explore, horder]

/-- The grammar with the rules `S → aS` and `S → b`. -/
def rightLinear : Grammar :=
  ⟨['S'], .ofSymbols ['S'], .ofSymbols ['a', 'b'],
    [⟨['S'], ['a', 'S'], by decide⟩, ⟨['S'], ['b'], by decide⟩]⟩

theorem level_one_rightLinear : rightLinear.level 1 = [['a', 'S'], ['b']] := by decide +kernel

theorem explore_rightLinear_level_by_level :
    (rightLinear.explore (.depth 2) .recorder .still).halt ≠ .timeout ∧
      (rightLinear.explore (.depth 2) .recorder .still).record? ['b'] = some ⟨1, some ['S']⟩ ∧
      (rightLinear.explore (.depth 2) .recorder .still).words = [['b'], ['a', 'b']] := by
  have htime := rightLinear.halt_ne_timeout (.depth 2) .recorder .still rfl
  obtain ⟨-, -, -, hrecord, hwords⟩ :=
    explore_level_by_level rightLinear (.depth 2) .recorder .still rfl htime
  have hmem : ['b'] ∈ rightLinear.level 1 := by simp [level_one_rightLinear]
  obtain ⟨p, hfind, hp⟩ := hrecord 0 (by decide) ['b'] hmem
  have hparent : some ['S'] = some p := by
    rw [← hfind]
    decide +kernel
  exact ⟨htime, by rw [hp, hparent], hwords.trans (by decide +kernel)⟩

theorem trace_rightLinear : rightLinear.trace (.depth 2) clock =
    [⟨['S'], ['a', 'S'], 1⟩, ⟨['S'], ['b'], 1⟩, ⟨['a', 'S'], ['a', 'a', 'S'], 2⟩,
      ⟨['a', 'S'], ['a', 'b'], 2⟩] := by
  rw [(rightLinear.explore_depth 2 .recorder clock).1]
  decide +kernel

theorem discoveries_rightLinear : rightLinear.discoveries (.depth 2) clock =
    [['S'], ['a', 'S'], ['b'], ['a', 'a', 'S'], ['a', 'b']] := by
  rw [discoveries, trace_rightLinear]
  rfl

end Grammar

end StringRewriting
