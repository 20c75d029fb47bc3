import StringRewriting.Proofs.Exploration.Frontier

/-!
# Between two steps

Between two steps every recorded word is in one of three places: it is among the results, it waits
in the frontier, or it was expanded and its successors are recorded as well. The frontier holds
words of at most two depths, the smaller one first. So when its first word is too deep all of them
are, and an exploration may end there.

* `State.Standing`: the states between two steps, with the entries that were expanded.
* `State.Balanced`, `State.Balanced.of_extends`: what a step keeps, and that it does.
* `State.Standing.loop_invariant`: where words are between two steps.
-/

namespace StringRewriting

universe u

namespace Grammar

variable {g : Grammar}

/-- The entries of a frontier for births of one depth. -/
theorem depth_of_mem_pending_births {ts : List Transition} {depth : Nat} {ws : List Word}
    {p : Word × Nat} (h : p ∈ g.pending (g.births ts depth ws)) : p.2 = depth := by
  rw [pending_births, List.mem_map] at h
  obtain ⟨w, -, rfl⟩ := h
  rfl

/-- An entry that was put into the frontier agrees with the record of its word. -/
theorem exists_record_of_mem_queued {ts : List Transition} (h : (g.found ts).Nodup)
    {p : Word × Nat} (hp : p ∈ g.queued ts) :
    ∃ r, (Records.ofTrace g ts)[p.1]? = some r ∧ r.depth = p.2 := by
  rw [queued, List.mem_append] at hp
  rcases hp with hp | hp
  · obtain ⟨w, hw, rfl⟩ := List.mem_map.1 hp
    have hstart : w = g.start := List.mem_singleton.1 (mem_nonFinals.1 hw).1
    exact ⟨⟨0, none⟩, (Records.getElem?_ofTrace_eq_some_iff h).2 (.inl ⟨hstart, rfl⟩), rfl⟩
  · obtain ⟨t, ht, rfl⟩ := List.mem_map.1 hp
    have htrace : t ∈ ts := List.mem_of_mem_filter ht
    exact ⟨⟨t.depth, some t.parent⟩,
      (Records.getElem?_ofTrace_eq_some_iff h).2 (.inr ⟨t, htrace, rfl, rfl⟩), rfl⟩

/-- After the expansion of a word its successors have been found. -/
theorem mem_found_births {ts : List Transition} {depth : Nat} {p w : Word}
    (h : w ∈ successors g.rules p) : w ∈ g.found (ts ++ g.births ts depth [p]) := by
  have hcandidate : w ∈ (g.candidates depth [p]).map Transition.child := by
    rw [map_child_candidates]
    simpa using h
  rw [found_append, births, mem_append_map_freshBy]
  exact List.mem_append_right _ hcandidate

end Grammar

namespace State

variable {σ : Type u} {g : Grammar} {limits : Limits} {obs : Observer σ} {clock : Clock}

/-! ## States between two steps -/

/-- Steps that go on lead from the start to the state `s` before look `n` at the clock. The entries
`expanded` are those which these steps took from the frontier, in order. -/
inductive Standing (g : Grammar) (limits : Limits) (obs : Observer σ) (clock : Clock) :
    Nat → List (Word × Nat) → State σ → Prop
  /-- No step has been taken. -/
  | initial : Standing g limits obs clock 0 [] (initial g obs)
  /-- A further step has been taken, which expanded the first entry of the frontier. -/
  | step {n : Nat} {expanded : List (Word × Nat)} {s s' : State σ} {p : Word × Nat}
      {frontier : Queue (Word × Nat)} (h : Standing g limits obs clock n expanded s)
      (hpop : s.frontier.pop? = some (p, frontier))
      (hs' : s.step g limits obs (clock n) = .continued s') :
      Standing g limits obs clock (n + 1) (expanded ++ [p]) s'

/-- From a state between two steps the run goes on as it does from the start. -/
theorem Standing.run_eq {n : Nat} {expanded : List (Word × Nat)} {s : State σ}
    (h : Standing g limits obs clock n expanded s) :
    (State.initial g obs).run g limits obs clock 0 = s.run g limits obs clock n := by
  induction h with
  | initial => rfl
  | step _ _ hs' ih => rw [ih, run_of_continued hs']

/-- The observer does not decide through which states an exploration goes. -/
theorem Standing.exists_watch {n : Nat} {expanded : List (Word × Nat)} {s : State σ}
    (h : Standing g limits obs clock n expanded s) :
    ∃ s₀, Standing g limits .recorder clock n expanded s₀ ∧ s = s₀.watch obs := by
  induction h with
  | initial => exact ⟨_, .initial, initial_watch g obs⟩
  | @step n expanded s s' p frontier _ hpop hs' ih =>
    obtain ⟨s₀, hs₀, rfl⟩ := ih
    rw [step_watch] at hs'
    cases hstep : s₀.step g limits .recorder (clock n) with
    | continued s₁ =>
      rw [hstep, Progress.watch, Progress.continued.injEq] at hs'
      exact ⟨s₁, .step hs₀ hpop hstep, hs'.symm⟩
    | ended reason s₁ =>
      rw [hstep] at hs'
      simp [Progress.watch] at hs'

/-! ## What a step keeps -/

/-- What holds between two steps after the entries `expanded` were taken from the frontier. -/
structure Balanced (g : Grammar) (maxDepth : Nat) (expanded : List (Word × Nat))
    (s : State (Array Transition)) : Prop where
  /-- Records and results are those of the trace. -/
  consistent : s.Consistent g
  /-- All that was put into the frontier was expanded or is still there. -/
  queued_eq : g.queued s.trace = expanded ++ s.frontier.toList
  /-- The depths never decrease along the frontier. -/
  ascending : s.frontier.toList.Pairwise fun p q => p.2 ≤ q.2
  /-- They differ by at most one. -/
  depth_le_succ : ∀ p ∈ s.frontier.toList, ∀ q ∈ s.frontier.toList, q.2 ≤ p.2 + 1
  /-- They respect the depth bound. -/
  depth_le : ∀ p ∈ s.frontier.toList, p.2 ≤ maxDepth
  /-- The successors of the words that were expanded are recorded. -/
  closed : ∀ p ∈ expanded, ∀ w ∈ successors g.rules p.1, w ∈ g.found s.trace

theorem balanced_initial (g : Grammar) (maxDepth : Nat) :
    Balanced g maxDepth [] (initial g .recorder) := by
  have hfrontier : ∀ p ∈ (initial g .recorder).frontier.toList, p = (g.start, 0) := by
    intro p hp
    rw [frontier_initial] at hp
    split at hp
    · simp at hp
    · exact List.mem_singleton.1 hp
  refine ⟨consistent_initial g, queued_trace_initial g, ?_, ?_, ?_, by simp⟩
  · exact List.pairwise_of_forall_mem_list fun p hp q hq => by simp [hfrontier p hp]
  · intro p _ q hq
    simp [hfrontier q hq]
  · intro p hp
    simp [hfrontier p hp]

/-- The first word of the frontier is expanded: its births are one step deeper, and so is at most
what waits behind it. -/
theorem Balanced.of_extends {maxDepth : Nat} {expanded q : List (Word × Nat)}
    {s s' : State (Array Transition)} {w : Word} {depth : Nat} (h : s.Balanced g maxDepth expanded)
    (hq : s.frontier.toList = (w, depth) :: q) (hdepth : depth < maxDepth)
    (hext : s.Extends g limits q (g.births s.trace (depth + 1) [w]) s') :
    s'.Balanced g maxDepth (expanded ++ [(w, depth)]) := by
  have hborn : ∀ p ∈ g.pending (g.births s.trace (depth + 1) [w]), p.2 = depth + 1 :=
    fun p hp => Grammar.depth_of_mem_pending_births hp
  have hascending := h.ascending
  rw [hq, List.pairwise_cons] at hascending
  have hwaiting : ∀ p ∈ q, depth ≤ p.2 ∧ p.2 ≤ depth + 1 := fun p hp =>
    ⟨hascending.1 p hp, h.depth_le_succ (w, depth) (by simp [hq]) p (by simp [hq, hp])⟩
  have hmem : ∀ p ∈ s'.frontier.toList, depth ≤ p.2 ∧ p.2 ≤ depth + 1 := by
    intro p hp
    rw [hext.frontier, List.mem_append] at hp
    rcases hp with hp | hp
    · exact hwaiting p hp
    · simp [hborn p hp]
  refine ⟨hext.consistent, queued_trace_of_extends h.queued_eq hq hext, ?_, ?_, ?_, ?_⟩
  · rw [hext.frontier, List.pairwise_append]
    refine ⟨hascending.2, ?_, fun p hp r hr => ?_⟩
    · refine List.pairwise_of_forall_mem_list fun p hp r hr => Nat.le_of_eq ?_
      rw [hborn p hp, hborn r hr]
    · rw [hborn r hr]
      exact (hwaiting p hp).2
  · intro p hp r hr
    have hfirst := hmem p hp
    have hlast := hmem r hr
    omega
  · intro p hp
    have hnext := hmem p hp
    omega
  · intro p hp v hv
    rcases List.mem_append.1 hp with hp | hp
    · exact (Grammar.found_prefix_found hext.prefix_trace).subset (h.closed p hp v hv)
    · obtain rfl := List.mem_singleton.1 hp
      rw [hext.trace]
      exact Grammar.mem_found_births hv

theorem Standing.balanced {n : Nat} {expanded : List (Word × Nat)} {s : State (Array Transition)}
    (h : Standing g limits .recorder clock n expanded s) :
    s.Balanced g limits.maxDepth expanded := by
  induction h with
  | initial => exact balanced_initial g limits.maxDepth
  | step _ hpop hs' ih =>
    obtain ⟨w, depth, q, hq, hdepth, hext⟩ := exists_extends_of_continued ih.consistent hs'
    have hfirst := Queue.toList_of_pop? hpop
    rw [hq, List.cons.injEq] at hfirst
    rw [← hfirst.1]
    exact ih.of_extends hq hdepth hext

/-! ## The three places -/

namespace Balanced

variable {maxDepth : Nat} {expanded : List (Word × Nat)} {s : State (Array Transition)}
  (h : s.Balanced g maxDepth expanded)
include h

theorem mem_records_iff {w : Word} : w ∈ s.records ↔ w ∈ g.found s.trace := by
  rw [h.consistent.records, Records.mem_ofTrace_iff]

/-- The words that are not final were expanded or wait in the frontier, in the order in which they
were found. -/
theorem nonFinals_found :
    g.nonFinals (g.found s.trace) = expanded.map Prod.fst ++ s.frontier.toList.map Prod.fst := by
  rw [← Grammar.map_fst_queued, h.queued_eq, List.map_append]

theorem exists_record {p : Word × Nat} (hp : p ∈ s.frontier.toList) :
    ∃ r, s.records[p.1]? = some r ∧ r.depth = p.2 := by
  rw [h.consistent.records]
  refine Grammar.exists_record_of_mem_queued h.consistent.nodup ?_
  rw [h.queued_eq]
  exact List.mem_append_right expanded hp

/-- The three places hold the recorded words, each once. -/
theorem perm_found :
    (s.finals.toList ++ s.frontier.toList.map Prod.fst ++ expanded.map Prod.fst).Perm
      (g.found s.trace) := by
  rw [h.consistent.finals, List.append_assoc]
  refine (List.perm_append_comm.append_left _).trans ?_
  rw [← h.nonFinals_found]
  simpa [Grammar.nonFinals] using List.filter_append_perm g.isFinal (g.found s.trace)

/-- Where the first word of the frontier is too deep, all of them are. -/
theorem depth_eq_of_deep {p q : Word × Nat} (hp : p ∈ s.frontier.toList.head?)
    (hdepth : maxDepth ≤ p.2) (hq : q ∈ s.frontier.toList) : q.2 = maxDepth := by
  obtain ⟨ps, hps⟩ := List.head?_eq_some_iff.1 hp
  have hascending := h.ascending
  have hle := h.depth_le q hq
  rw [hps, List.pairwise_cons] at hascending
  rw [hps] at hq
  rcases List.mem_cons.1 hq with rfl | hq
  · omega
  · have hbehind := hascending.1 q hq
    omega

end Balanced

/-- **Between two steps every recorded word is in one of three places.** The depths along the
frontier never decrease and the last one is at most the first one plus one. A word in the frontier
is recorded with the depth beside it, which respects the bound, and it is there once. Either the
first word can be expanded one step deeper within the bound, or all words lie at the bound and the
exploration ends. Results, frontier and expanded words together hold the recorded words, each once;
the results are the final ones, and the successors of expanded words are recorded. -/
theorem Standing.loop_invariant {n : Nat} {expanded : List (Word × Nat)} {s : State σ}
    (h : Standing g limits obs clock n expanded s) :
    ((s.frontier.toList.Pairwise fun p q => p.2 ≤ q.2) ∧
      (∀ p ∈ s.frontier.toList.head?, ∀ q ∈ s.frontier.toList.getLast?, q.2 ≤ p.2 + 1) ∧
      (∀ p ∈ s.frontier.toList, p.2 ≤ limits.maxDepth ∧
        ∃ r, s.records[p.1]? = some r ∧ r.depth = p.2) ∧
      (∀ p ∈ s.frontier.toList.head?, p.2 + 1 ≤ limits.maxDepth ∨
        (∀ q ∈ s.frontier.toList, q.2 = limits.maxDepth) ∧
          ∀ elapsed, s.step g limits obs elapsed = .ended .depthBound s) ∧
      (s.frontier.toList.map Prod.fst).Nodup) ∧
    (s.finals.toList ++ s.frontier.toList.map Prod.fst ++ expanded.map Prod.fst).Nodup ∧
    (∀ w, w ∈ s.records ↔
      w ∈ s.finals.toList ∨ w ∈ s.frontier.toList.map Prod.fst ∨ w ∈ expanded.map Prod.fst) ∧
    (∀ w, w ∈ s.finals.toList ↔ w ∈ s.records ∧ g.isFinal w) ∧
    (∀ w ∈ expanded.map Prod.fst, ∀ v ∈ successors g.rules w, v ∈ s.records) ∧
    (State.initial g obs).run g limits obs clock 0 = s.run g limits obs clock n := by
  have hrun := h.run_eq
  obtain ⟨s₀, hs₀, rfl⟩ := h.exists_watch
  have hb := hs₀.balanced
  have hnodup := hb.perm_found.nodup_iff.2 hb.consistent.nodup
  refine ⟨⟨hb.ascending, ?_, fun p hp => ⟨hb.depth_le p hp, hb.exists_record hp⟩, ?_, ?_⟩, hnodup,
    ?_, ?_, ?_, hrun⟩
  · intro p hp q hq
    exact hb.depth_le_succ p (List.mem_of_mem_head? hp) q (List.mem_of_mem_getLast? hq)
  · intro p hp
    by_cases hdepth : p.2 + 1 ≤ limits.maxDepth
    · exact .inl hdepth
    · have hdeep : limits.maxDepth ≤ p.2 := by omega
      obtain ⟨ps, hps⟩ := List.head?_eq_some_iff.1 hp
      exact .inr ⟨fun q hq => hb.depth_eq_of_deep hp hdeep hq, step_of_deep hps limits hdeep⟩
  · exact (List.nodup_append.1 (List.nodup_append.1 hnodup).1).2.1
  · intro w
    rw [watch_records, hb.mem_records_iff, ← hb.perm_found.mem_iff, List.mem_append,
      List.mem_append, or_assoc]
    rfl
  · intro w
    rw [watch_records, hb.mem_records_iff, ← List.mem_filter, ← hb.consistent.finals]
    rfl
  · intro w hw v hv
    obtain ⟨p, hp, rfl⟩ := List.mem_map.1 hw
    rw [watch_records, hb.mem_records_iff]
    exact hb.closed p hp v hv

/-- After the start word `S` was expanded, `aS` waits and `b` is a result. -/
theorem standing_rightLinear :
    ∃ s, Standing Grammar.rightLinear (.depth 2) .recorder .still 1 [(['S'], 0)] s ∧
      s.frontier.toList = [(['a', 'S'], 1)] ∧ s.finals.toList = [['b']] ∧
      (s.finals.toList ++ s.frontier.toList.map Prod.fst ++ [['S']]).Nodup ∧
      ∀ v ∈ successors Grammar.rightLinear.rules ['S'], v ∈ s.records := by
  have hpop : (State.initial Grammar.rightLinear .recorder).frontier.pop? =
      some ((['S'], 0), .empty) := by decide +kernel
  have hq : (State.initial Grammar.rightLinear .recorder).frontier.toList = [(['S'], 0)] := by
    rw [Queue.toList_of_pop? hpop, Queue.toList_empty]
  obtain ⟨s, hs, hext⟩ :=
    exists_step_depth (consistent_initial Grammar.rightLinear) hq (Nat.zero_lt_succ 1) 0
  rw [trace_initial] at hext
  have hstanding : Standing Grammar.rightLinear (.depth 2) .recorder .still 1 [(['S'], 0)] s :=
    .step .initial hpop hs
  obtain ⟨-, hnodup, -, -, hclosed, -⟩ := hstanding.loop_invariant
  have htrace : s.trace = Grammar.rightLinear.births [] 1 [['S']] := by
    rw [hext.trace, trace_initial, List.nil_append]
  refine ⟨s, hstanding, ?_, ?_, hnodup, hclosed ['S'] (by simp)⟩
  · rw [hext.frontier]
    decide +kernel
  · rw [hext.consistent.finals, htrace]
    decide +kernel

end State

end StringRewriting
