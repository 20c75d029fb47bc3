import StringRewriting.Proofs.Exploration.Levels

/-!
# The frontier of an exploration

The frontier holds the last ones of all the entries that were ever put into it. So the words are
taken from it in the order of their discovery, each once, and none that is final.

* `Grammar.queued`: the entries that were ever put into the frontier; `Grammar.map_fst_queued`.
* `State.frontier_suffix_queued`: the frontier holds the last ones of them.
* `State.taken`, `Grammar.taken_prefix_discoveries`: the words that a run takes from the frontier.
-/

namespace StringRewriting

universe u

namespace Grammar

variable {g : Grammar}

/-- The entries that are put into the frontier until the transitions `ts` are recorded, the earliest
first. -/
def queued (g : Grammar) (ts : List Transition) : List (Word × Nat) :=
  (g.nonFinals [g.start]).map (·, 0) ++ g.pending ts

@[simp] theorem queued_append (ts us : List Transition) :
    g.queued (ts ++ us) = g.queued ts ++ g.pending us := by
  simp [queued]

/-- Every word that is found and not final is put into the frontier when it is found. -/
theorem map_fst_queued (ts : List Transition) :
    (g.queued ts).map Prod.fst = g.nonFinals (g.found ts) := by
  have hpending : (g.pending ts).map Prod.fst = g.nonFinals (ts.map Transition.child) := by
    rw [pending, nonFinals, List.map_map, List.filter_map]
    rfl
  have hstart : ((g.nonFinals [g.start]).map (·, 0)).map Prod.fst = g.nonFinals [g.start] := by
    simp [Function.comp_def]
  rw [queued, List.map_append, hpending, hstart, ← nonFinals_append]
  rfl

end Grammar

namespace State

variable {σ : Type u} {g : Grammar} {limits : Limits} {clock : Clock}

theorem queued_trace_initial (g : Grammar) :
    g.queued (initial g .recorder).trace = (initial g .recorder).frontier.toList := by
  rw [trace_initial, frontier_initial]
  cases hstart : g.isFinal g.start <;>
    simp [Grammar.queued, Grammar.nonFinals, Grammar.pending, hstart]

/-- The first entry of the frontier is taken from it and new ones are appended. -/
theorem queued_trace_of_extends {s s' : State (Array Transition)} {before q : List (Word × Nat)}
    {p : Word × Nat} {ts : List Transition}
    (hbefore : g.queued s.trace = before ++ s.frontier.toList)
    (hq : s.frontier.toList = p :: q) (hext : s.Extends g limits q ts s') :
    g.queued s'.trace = before ++ [p] ++ s'.frontier.toList := by
  rw [hext.trace, Grammar.queued_append, hbefore, hq, hext.frontier]
  simp

/-- **The frontier holds the last ones of the entries that were put into it.** -/
theorem frontier_suffix_queued {n : Nat} {s : State (Array Transition)}
    (h : Reaches g limits clock 0 (initial g .recorder) n s) :
    s.frontier.toList <:+ g.queued s.trace := by
  induction h with
  | refl => exact queued_trace_initial g ▸ List.suffix_refl _
  | step hs hs' ih =>
    have hc := (hs.grows (consistent_initial g)).consistent
    obtain ⟨w, depth, q, hq, -, hext⟩ := exists_extends_of_continued hc hs'
    obtain ⟨before, hbefore⟩ := ih
    exact ⟨before ++ [(w, depth)], (queued_trace_of_extends hbefore.symm hq hext).symm⟩

/-- The words in the frontier are recorded and not final. -/
theorem mem_found_of_mem_frontier {n : Nat} {s : State (Array Transition)}
    (h : Reaches g limits clock 0 (initial g .recorder) n s) {p : Word × Nat}
    (hp : p ∈ s.frontier.toList) : p.1 ∈ g.found s.trace ∧ ¬ g.isFinal p.1 := by
  have hmem : p.1 ∈ (g.queued s.trace).map Prod.fst :=
    List.mem_map_of_mem ((frontier_suffix_queued h).subset hp)
  rwa [Grammar.map_fst_queued, Grammar.mem_nonFinals] at hmem

/-! ## The words that are taken -/

/-- The word that a step takes from the frontier, if there is one. -/
def next? (s : State σ) : Option Word :=
  s.frontier.pop?.map fun p => p.1.1

theorem next?_eq_head? (s : State σ) : s.next? = s.frontier.toList.head?.map Prod.fst := by
  unfold next?
  cases hpop : s.frontier.pop? with
  | none => rw [Queue.pop?_eq_none_iff.1 hpop]; rfl
  | some p => rw [Queue.toList_of_pop? hpop]; rfl

/-- The words that a run takes from the frontier, in order, that of the step which ends the run
included. -/
def taken (g : Grammar) (limits : Limits) (obs : Observer σ) (clock : Clock) (looks : Nat)
    (s : State σ) : List Word :=
  match h : s.step g limits obs (clock looks) with
  | .ended _ _ => s.next?.toList
  | .continued s' =>
    have := workload_lt_of_step h
    s.next?.toList ++ s'.taken g limits obs clock (looks + 1)
termination_by s.workload g limits

theorem taken_of_ended {obs : Observer σ} {n : Nat} {s s' : State σ} {reason : Halt}
    (h : s.step g limits obs (clock n) = .ended reason s') :
    s.taken g limits obs clock n = s.next?.toList := by
  rw [taken]
  split <;> simp_all

theorem taken_of_continued {obs : Observer σ} {n : Nat} {s s' : State σ}
    (h : s.step g limits obs (clock n) = .continued s') :
    s.taken g limits obs clock n = s.next?.toList ++ s'.taken g limits obs clock (n + 1) := by
  rw [taken]
  split <;> simp_all

/-- The observer does not decide which words are taken. -/
theorem taken_watch (obs : Observer σ) (n : Nat) (s : State (Array Transition)) :
    (s.watch obs).taken g limits obs clock n = s.taken g limits .recorder clock n := by
  fun_induction State.taken g limits .recorder clock n s with
  | case1 n s reason s' h =>
    rw [taken_of_ended (by rw [step_watch, h]; rfl)]
    rfl
  | case2 n s s' h _ ih =>
    rw [taken_of_continued (by rw [step_watch, h]; rfl), ih]
    rfl

/-- Behind the entries taken `before`, a run takes the words that are put into the frontier, in
their order, as far as it goes. -/
theorem taken_prefix_nonFinals {s : State (Array Transition)} (h : s.Consistent g)
    {before : List (Word × Nat)} (hbefore : g.queued s.trace = before ++ s.frontier.toList)
    (n : Nat) :
    before.map Prod.fst ++ s.taken g limits .recorder clock n <+:
      g.nonFinals (g.found (s.run g limits .recorder clock n).2.trace) := by
  fun_induction State.taken g limits .recorder clock n s generalizing before with
  | case1 n s reason s' hstep =>
    obtain ⟨ts, hts⟩ := (run_grows h limits clock n).prefix_trace
    rw [← hts, Grammar.found_append, Grammar.nonFinals_append, ← Grammar.map_fst_queued, hbefore,
      List.map_append, List.append_assoc, List.prefix_append_right_inj, next?_eq_head?]
    cases s.frontier.toList <;> simp
  | case2 n s s' hstep _ ih =>
    obtain ⟨w, depth, q, hq, -, hext⟩ := exists_extends_of_continued h hstep
    have hrest := ih hext.consistent (queued_trace_of_extends hbefore hq hext)
    rw [run_of_continued hstep, next?_eq_head?, hq]
    simpa using hrest

end State

/-- **An exploration takes the words that are not final from the frontier, in the order of their
discovery.** -/
theorem Grammar.taken_prefix_discoveries {σ : Type u} (g : Grammar) (limits : Limits)
    (obs : Observer σ) (clock : Clock) :
    (State.initial g obs).taken g limits obs clock 0 <+:
      g.nonFinals (g.discoveries limits clock) := by
  have hbefore : g.queued (State.initial g .recorder).trace =
      [] ++ (State.initial g .recorder).frontier.toList := State.queued_trace_initial g
  rw [State.initial_watch, State.taken_watch]
  exact State.taken_prefix_nonFinals (State.consistent_initial g) hbefore 0

end StringRewriting
