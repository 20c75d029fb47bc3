import StringRewriting.Proofs.Exploration.Trace

/-!
# The course of an exploration

A step takes the first word of the frontier and appends its births to the trace, or, under a bound
in the number of words, a first part of them. An exploration is a chain of such steps from the state
in which only the start word is recorded.

* `State.Stepped`, `State.stepped`: all that a step can do.
* `State.Reaches`: steps that go on; `State.exists_reaches_ended`: where they end.
* `Grammar.explore_eq_ofTrace`: an exploration is determined by its trace and its end.
* `Grammar.record?_of_prefix_trace`: one that goes further keeps the records.
-/

namespace StringRewriting

universe u

namespace State

variable {g : Grammar} {limits : Limits}

/-! ## Steps -/

/-- An expansion records all the new words, or it ends with the first ones when the limits refuse a
further word. -/
theorem expand_cases {s : State (Array Transition)} (h : s.Consistent g) (limits : Limits)
    (parent : Word) (depth : Nat) (ws : List Word) {news : List Transition}
    (hnews : news = freshBy Transition.child (g.found s.trace) (ws.map (⟨parent, ·, depth⟩))) :
    (∃ s', expand g limits .recorder parent depth ws s = .continued s' ∧
      s.Extends g limits s.frontier.toList news s') ∨
    ∃ s' k, expand g limits .recorder parent depth ws s = .ended .wordLimit s' ∧
      k < news.length ∧ s.Extends g limits s.frontier.toList (news.take k) s' ∧
      limits.refusesWord (s'.trace.length + 1) := by
  induction ws generalizing s news with
  | nil => exact .inl ⟨s, rfl, hnews ▸ .refl h⟩
  | cons w ws ih =>
    rw [List.map_cons, freshBy] at hnews
    have hknown : s.records.contains w = true ↔ w ∈ g.found s.trace := by
      rw [h.records, Std.HashMap.contains_iff_mem, Records.mem_ofTrace_iff]
    rw [expand]
    by_cases hw : w ∈ g.found s.trace
    · rw [if_pos hw] at hnews
      rw [if_pos (hknown.2 hw)]
      exact ih h hnews
    · rw [if_neg hw] at hnews
      rw [if_neg (mt hknown.1 hw)]
      cases hroom : limits.refusesWord s.records.size with
      | true =>
        refine .inr ⟨s, 0, rfl, by simp [hnews], .refl h, ?_⟩
        rw [← Grammar.length_found, ← Records.size_ofTrace h.nodup, ← h.records, hroom]
      | false =>
        have hext := extends_discover (t := ⟨parent, w, depth⟩) h hw hroom
        have hfound : g.found (s.discover g .recorder ⟨parent, w, depth⟩).trace =
            g.found s.trace ++ [w] := by
          rw [hext.trace, Grammar.found_append, List.map_singleton]
        have hih := ih hext.consistent (congrArg (freshBy _ · _) hfound).symm
        rcases hih with ⟨s', he, hs'⟩ | ⟨s', k, he, hk, hs', hfull⟩
        · exact .inl ⟨s', he, hnews ▸ hext.trans (hext.frontier ▸ hs')⟩
        · refine .inr ⟨s', k + 1, he, ?_, ?_, hfull⟩
          · rw [hnews, List.length_cons]
            exact Nat.succ_lt_succ hk
          · rw [hnews, List.take_succ_cons]
            exact hext.trans (hext.frontier ▸ hs')

/-- What a step can lead to. -/
inductive Stepped (g : Grammar) (limits : Limits) (elapsed : Nat) (s : State (Array Transition)) :
    Progress (Array Transition) → Prop
  /-- The frontier is empty. -/
  | exhausted (hq : s.frontier.toList = []) : Stepped g limits elapsed s (.ended .exhausted s)
  /-- The first word of the frontier is too deep. -/
  | depthBound {w : Word} {depth : Nat} {q : List (Word × Nat)}
      (hq : s.frontier.toList = (w, depth) :: q) (hdepth : limits.maxDepth ≤ depth) :
      Stepped g limits elapsed s (.ended .depthBound s)
  /-- The time is over. -/
  | timeout (ht : limits.isTimeOver elapsed) : Stepped g limits elapsed s (.ended .timeout s)
  /-- A part of the births is recorded, and a further word is refused. -/
  | wordLimit {w : Word} {depth : Nat} {q : List (Word × Nat)} {s' : State (Array Transition)}
      {k : Nat} (hq : s.frontier.toList = (w, depth) :: q) (hdepth : depth < limits.maxDepth)
      (hk : k < (g.births s.trace (depth + 1) [w]).length)
      (hs' : s.Extends g limits q ((g.births s.trace (depth + 1) [w]).take k) s')
      (hfull : limits.refusesWord (s'.trace.length + 1)) :
      Stepped g limits elapsed s (.ended .wordLimit s')
  /-- All the births are recorded. -/
  | continued {w : Word} {depth : Nat} {q : List (Word × Nat)} {s' : State (Array Transition)}
      (hq : s.frontier.toList = (w, depth) :: q) (hdepth : depth < limits.maxDepth)
      (hs' : s.Extends g limits q (g.births s.trace (depth + 1) [w]) s') :
      Stepped g limits elapsed s (.continued s')

/-- All that a step can do. -/
theorem stepped {s : State (Array Transition)} (h : s.Consistent g) (limits : Limits)
    (elapsed : Nat) : Stepped g limits elapsed s (s.step g limits .recorder elapsed) := by
  unfold step
  cases hpop : s.frontier.pop? with
  | none => exact .exhausted (Queue.pop?_eq_none_iff.1 hpop)
  | some next =>
    obtain ⟨⟨w, depth⟩, frontier⟩ := next
    have hq := Queue.toList_of_pop? hpop
    simp only
    split
    · next hd => exact .depthBound hq hd
    · next hd =>
      split
      · next ht => exact .timeout ht
      · -- taking the word from the frontier changes neither the trace nor what belongs to it
        have hpopped : State.Consistent g { s with frontier } := ⟨h.records, h.finals, h.nodup⟩
        have hbirths : g.births s.trace (depth + 1) [w] =
            freshBy Transition.child (g.found s.trace)
              ((successors g.rules w).map (⟨w, ·, depth + 1⟩)) := by
          simp [Grammar.births, Grammar.candidates]
        have hcases := expand_cases hpopped limits w (depth + 1) (successors g.rules w) hbirths
        rcases hcases with ⟨s', he, hs'⟩ | ⟨s', k, he, hk, hs', hfull⟩
        · rw [he]
          exact .continued hq (Nat.lt_of_not_le hd) ⟨⟨hs'.1.1, hs'.1.2, hs'.1.3⟩, hs'.2, hs'.3⟩
        · rw [he]
          exact .wordLimit hq (Nat.lt_of_not_le hd) hk
            ⟨⟨hs'.1.1, hs'.1.2, hs'.1.3⟩, hs'.2, hs'.3⟩ hfull

theorem step_of_nil {σ : Type u} {obs : Observer σ} {s : State σ} (hq : s.frontier.toList = [])
    (limits : Limits) (elapsed : Nat) : s.step g limits obs elapsed = .ended .exhausted s := by
  rw [step, Queue.pop?_eq_none_iff.2 hq]

theorem step_of_deep {σ : Type u} {obs : Observer σ} {s : State σ} {w : Word} {depth : Nat}
    {q : List (Word × Nat)} (hq : s.frontier.toList = (w, depth) :: q) (limits : Limits)
    (hdepth : limits.maxDepth ≤ depth) (elapsed : Nat) :
    s.step g limits obs elapsed = .ended .depthBound s := by
  unfold step
  cases hpop : s.frontier.pop? with
  | none => simp [Queue.pop?_eq_none_iff.1 hpop] at hq
  | some next =>
    obtain ⟨⟨w', depth'⟩, frontier⟩ := next
    rw [Queue.toList_of_pop? hpop] at hq
    simp only [List.cons.injEq, Prod.mk.injEq] at hq
    obtain ⟨⟨-, rfl⟩, -⟩ := hq
    exact if_pos hdepth

/-- Without bounds in words and time, a word that is not too deep is expanded as a whole. -/
theorem exists_step_depth {s : State (Array Transition)} (h : s.Consistent g) {w : Word}
    {maxDepth depth : Nat} {q : List (Word × Nat)} (hq : s.frontier.toList = (w, depth) :: q)
    (hdepth : depth < maxDepth) (elapsed : Nat) :
    ∃ s', s.step g (.depth maxDepth) .recorder elapsed = .continued s' ∧
      s.Extends g (.depth maxDepth) q (g.births s.trace (depth + 1) [w]) s' := by
  have hstepped := stepped h (.depth maxDepth) elapsed
  generalize s.step g (.depth maxDepth) .recorder elapsed = p at hstepped ⊢
  cases hstepped with
  | exhausted hq' => simp [hq] at hq'
  | depthBound hq' hdepth' =>
    rw [hq, List.cons.injEq, Prod.mk.injEq] at hq'
    obtain ⟨⟨rfl, rfl⟩, rfl⟩ := hq'
    exact absurd hdepth (Nat.not_lt.2 hdepth')
  | timeout ht => simp [Limits.isTimeOver, Limits.depth] at ht
  | wordLimit _ _ _ _ hfull => simp [Limits.refusesWord, Limits.depth] at hfull
  | continued hq' _ hs' =>
    rw [hq, List.cons.injEq, Prod.mk.injEq] at hq'
    obtain ⟨⟨rfl, rfl⟩, rfl⟩ := hq'
    exact ⟨_, rfl, hs'⟩

/-- A step that goes on records all the births of the first word of the frontier. -/
theorem exists_extends_of_continued {elapsed : Nat} {s s' : State (Array Transition)}
    (h : s.Consistent g) (hs' : s.step g limits .recorder elapsed = .continued s') :
    ∃ w depth q, s.frontier.toList = (w, depth) :: q ∧ depth < limits.maxDepth ∧
      s.Extends g limits q (g.births s.trace (depth + 1) [w]) s' := by
  have hstepped := stepped h limits elapsed
  rw [hs'] at hstepped
  cases hstepped with
  | continued hq hdepth hext => exact ⟨_, _, _, hq, hdepth, hext⟩

/-! ## Runs -/

/-- Steps that go on lead from the state `s₀`, before look `n₀` at the clock, to another state. -/
inductive Reaches (g : Grammar) (limits : Limits) (clock : Clock) (n₀ : Nat)
    (s₀ : State (Array Transition)) : Nat → State (Array Transition) → Prop
  /-- No step has been taken. -/
  | refl : Reaches g limits clock n₀ s₀ n₀ s₀
  /-- A further step has been taken. -/
  | step {n : Nat} {s s' : State (Array Transition)} (h : Reaches g limits clock n₀ s₀ n s)
      (hs' : s.step g limits .recorder (clock n) = .continued s') :
      Reaches g limits clock n₀ s₀ (n + 1) s'

variable {clock : Clock} {n₀ n : Nat} {s₀ s : State (Array Transition)}

theorem Reaches.grows (h₀ : s₀.Consistent g) (h : Reaches g limits clock n₀ s₀ n s) :
    s₀.Grows g limits s := by
  induction h with
  | refl => exact .refl h₀
  | step _ hs' ih =>
    obtain ⟨_, _, _, _, _, hext⟩ := exists_extends_of_continued ih.consistent hs'
    exact ih.trans hext.toGrows

theorem Reaches.run_eq (h : Reaches g limits clock n₀ s₀ n s) :
    s₀.run g limits .recorder clock n₀ = s.run g limits .recorder clock n := by
  induction h with
  | refl => rfl
  | step _ hs' ih => rw [ih, run_of_continued hs']

theorem Reaches.of_step {s₁ : State (Array Transition)}
    (h₁ : s₀.step g limits .recorder (clock n₀) = .continued s₁)
    (h : Reaches g limits clock (n₀ + 1) s₁ n s) : Reaches g limits clock n₀ s₀ n s := by
  induction h with
  | refl => exact .step .refl h₁
  | step _ hs' ih => exact .step ih hs'

/-- A run reaches a state whose step ends it. -/
theorem exists_reaches_ended (g : Grammar) (limits : Limits) (clock : Clock) (n₀ : Nat)
    (s₀ : State (Array Transition)) :
    ∃ n s, Reaches g limits clock n₀ s₀ n s ∧
      s.step g limits .recorder (clock n) =
        .ended (s₀.run g limits .recorder clock n₀).1 (s₀.run g limits .recorder clock n₀).2 := by
  fun_induction State.run g limits .recorder clock n₀ s₀ with
  | case1 n s reason s' h => exact ⟨n, s, .refl, h⟩
  | case2 n s s' h _ ih =>
    obtain ⟨m, t, ht, hend⟩ := ih
    exact ⟨m, t, .of_step h ht, hend⟩

theorem run_grows (h₀ : s₀.Consistent g) (limits : Limits) (clock : Clock) (n₀ : Nat) :
    s₀.Grows g limits (s₀.run g limits .recorder clock n₀).2 := by
  obtain ⟨n, s, hs, hend⟩ := exists_reaches_ended g limits clock n₀ s₀
  have hgrows := hs.grows h₀
  have hstepped := stepped hgrows.consistent limits (clock n)
  rw [hend] at hstepped
  generalize s₀.run g limits .recorder clock n₀ = r at hstepped ⊢
  obtain ⟨reason, s'⟩ := r
  cases hstepped with
  | exhausted => exact hgrows
  | depthBound => exact hgrows
  | timeout => exact hgrows
  | wordLimit _ _ _ hext => exact hgrows.trans hext.toGrows

theorem run_ne_timeout (h₀ : s₀.Consistent g) (h : limits.timeout = none) (clock : Clock)
    (n₀ : Nat) : (s₀.run g limits .recorder clock n₀).1 ≠ .timeout := by
  intro hend
  obtain ⟨n, s, hs, hs'⟩ := exists_reaches_ended g limits clock n₀ s₀
  have hstepped := stepped (hs.grows h₀).consistent limits (clock n)
  rw [hs', hend] at hstepped
  cases hstepped with
  | timeout ht => simp [Limits.isTimeOver, h] at ht

end State

/-! ## Explorations -/

/-- The outcome of an exploration with this trace and this end. -/
def Exploration.ofTrace {σ : Type u} (g : Grammar) (obs : Observer σ) (reason : Halt)
    (ts : List Transition) : Exploration σ :=
  ⟨g.start, (g.found ts).filter g.isFinal, .ofTrace g ts, reason, ts.foldl obs.notify obs.initial⟩

namespace Grammar

variable {σ : Type u} (g : Grammar) (limits : Limits) (obs : Observer σ) (clock : Clock)

/-- The transitions of an exploration in the order in which its observer is told of them. -/
def trace : List Transition :=
  (g.explore limits .recorder clock).observed.toList

/-- The recorded words in the order of their discovery. -/
def discoveries : List Word :=
  g.found (g.trace limits clock)

/-- No word is discovered twice. -/
theorem nodup_discoveries : (g.discoveries limits clock).Nodup :=
  (State.run_grows (State.consistent_initial g) limits clock 0).consistent.nodup

/-- **An exploration is determined by its trace and its end.** -/
theorem explore_eq_ofTrace :
    g.explore limits obs clock =
      .ofTrace g obs (g.explore limits obs clock).halt (g.trace limits clock) := by
  have hs := (State.run_grows (State.consistent_initial g) limits clock 0).consistent
  rw [explore_eq_watch]
  exact congrArg₂ (fun words records => (⟨_, words, records, _, _⟩ : Exploration σ)) hs.finals
    hs.records

/-- The observer does not decide how an exploration ends. -/
theorem halt_explore :
    (g.explore limits obs clock).halt = (g.explore limits .recorder clock).halt := by
  rw [explore_eq_watch]
  rfl

theorem halt_ne_timeout (h : limits.timeout = none) :
    (g.explore limits obs clock).halt ≠ .timeout := by
  rw [halt_explore]
  exact State.run_ne_timeout (State.consistent_initial g) h clock 0

theorem observed_explore : (g.explore limits obs clock).observed =
    (g.trace limits clock).foldl obs.notify obs.initial := by
  rw [explore_eq_ofTrace]
  rfl

theorem words_explore :
    (g.explore limits obs clock).words = (g.discoveries limits clock).filter g.isFinal := by
  rw [explore_eq_ofTrace]
  rfl

theorem discovered_explore :
    (g.explore limits obs clock).discovered = (g.discoveries limits clock).length := by
  rw [explore_eq_ofTrace]
  exact Records.size_ofTrace (g.nodup_discoveries limits clock)

variable {g limits obs clock}

/-- The record of a word tells its only discovery. -/
theorem record?_explore_eq_some_iff {w : Word} {r : Record} :
    (g.explore limits obs clock).record? w = some r ↔
      (w = g.start ∧ r = ⟨0, none⟩) ∨
        ∃ t ∈ g.trace limits clock, t.child = w ∧ r = ⟨t.depth, some t.parent⟩ := by
  rw [explore_eq_ofTrace]
  exact Records.getElem?_ofTrace_eq_some_iff (g.nodup_discoveries limits clock)

theorem record?_explore_start :
    (g.explore limits obs clock).record? g.start = some ⟨0, none⟩ :=
  record?_explore_eq_some_iff.2 (.inl ⟨rfl, rfl⟩)

theorem record?_explore_eq_none_iff {w : Word} :
    (g.explore limits obs clock).record? w = none ↔ w ∉ g.discoveries limits clock := by
  have hmem : w ∈ Records.ofTrace g (g.trace limits clock) ↔ w ∈ g.discoveries limits clock :=
    Records.mem_ofTrace_iff
  rw [explore_eq_ofTrace, ← hmem, Std.HashMap.mem_iff_isSome_getElem?,
    Option.not_isSome_iff_eq_none]
  rfl

theorem exists_record?_explore_iff {w : Word} :
    (∃ r, (g.explore limits obs clock).record? w = some r) ↔ w ∈ g.discoveries limits clock := by
  rw [← Option.ne_none_iff_exists', ne_eq, record?_explore_eq_none_iff, not_not]

/-! ## Explorations that go further -/

section Prefix

variable {limits' : Limits} {clock' : Clock} (h : g.trace limits clock <+: g.trace limits' clock')
include h

theorem discoveries_prefix_discoveries :
    g.discoveries limits clock <+: g.discoveries limits' clock' := by
  obtain ⟨ts, hts⟩ := h
  rw [discoveries, discoveries, ← hts, found_append]
  exact List.prefix_append _ _

/-- A word keeps its record in an exploration that goes further. -/
theorem record?_of_prefix_trace {w : Word} {r : Record}
    (hr : (g.explore limits obs clock).record? w = some r) :
    (g.explore limits' obs clock').record? w = some r := by
  rw [record?_explore_eq_some_iff] at hr ⊢
  apply hr.imp_right
  rintro ⟨t, ht, hchild, hrecord⟩
  exact ⟨t, h.subset ht, hchild, hrecord⟩

theorem record?_eq_ite_of_prefix_trace (w : Word) :
    (g.explore limits obs clock).record? w =
      if w ∈ g.discoveries limits clock then (g.explore limits' obs clock').record? w
      else none := by
  by_cases hw : w ∈ g.discoveries limits clock
  · have hrecord : ∃ r, (g.explore limits obs clock).record? w = some r :=
      exists_record?_explore_iff.2 hw
    obtain ⟨r, hr⟩ := hrecord
    rw [if_pos hw, hr, record?_of_prefix_trace h hr]
  · rw [if_neg hw, record?_explore_eq_none_iff]
    exact hw

end Prefix

end Grammar

end StringRewriting
