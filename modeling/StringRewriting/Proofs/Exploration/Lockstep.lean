import StringRewriting.Proofs.Exploration.Derivation
import StringRewriting.Proofs.Exploration.Frontier
import StringRewriting.Proofs.Exploration.Timing

/-!
# Explorations in lockstep

Let `φ` turn the start word, the final words and the successors of one grammar into those of another
one, as far as the exploration of the first gets. Then the two explorations take the same steps, and
all that the second tells is what the first tells, with `φ` applied to every word.

* `Grammar.Mirrors`: how the two grammars have to be related.
* `State.Mirrors`, `State.step_mirrors`: related states and what a step makes of them.
* `Grammar.Mirrors.trace_and_halt`: whole explorations.
* `Grammar.Mirrors.record?_eq_some_iff`, `Grammar.Mirrors.derivation?`: what they tell.
-/

namespace StringRewriting

universe u

/-- A transition with `φ` applied to its words. -/
def Transition.mapWords (φ : Word → Word) (t : Transition) : Transition :=
  ⟨φ t.parent, φ t.child, t.depth⟩

/-- A record with `φ` applied to its parent. -/
def Record.mapWords (φ : Word → Word) (r : Record) : Record :=
  ⟨r.depth, r.parent.map φ⟩

/-- With the word `φ w` the grammar `g'` does what `g` does with `w`, for all words that are
recorded in the exploration of `g`. -/
structure Grammar.Mirrors (g' g : Grammar) (φ : Word → Word) (limits : Limits) (clock : Clock) :
    Prop where
  /-- Different words stay different. -/
  injective : Function.Injective φ
  /-- The explorations begin with the same word. -/
  start : g'.start = φ g.start
  /-- The same words are final. -/
  isFinal : ∀ w ∈ g.discoveries limits clock, g'.isFinal (φ w) = g.isFinal w
  /-- The words that are expanded have the same successors in the same order. -/
  successors : ∀ w ∈ g.discoveries limits clock, ¬ g.isFinal w →
    successors g'.rules (φ w) = (successors g.rules w).map φ

namespace Grammar

variable {g g' : Grammar} {φ : Word → Word}

theorem found_mapWords (hstart : g'.start = φ g.start) (ts : List Transition) :
    g'.found (ts.map (Transition.mapWords φ)) = (g.found ts).map φ := by
  simp [found, hstart, Transition.mapWords]

end Grammar

/-! ## Related states -/

namespace State

variable {g g' : Grammar} {φ : Word → Word} {limits : Limits} {clock : Clock}

/-- The trace and the frontier of `s'` are those of `s` with `φ` applied to every word. -/
structure Mirrors (g' g : Grammar) (φ : Word → Word) (s' s : State (Array Transition)) : Prop where
  /-- The second state is one of an exploration of `g'`. -/
  consistent' : s'.Consistent g'
  /-- The first state is one of an exploration of `g`. -/
  consistent : s.Consistent g
  /-- The transitions correspond. -/
  trace : s'.trace = s.trace.map (Transition.mapWords φ)
  /-- The entries of the frontier correspond. -/
  frontier : s'.frontier.toList = s.frontier.toList.map (Prod.map φ id)

namespace Mirrors

variable {s s' : State (Array Transition)} (hg : g'.Mirrors g φ limits clock)
  (h : s'.Mirrors g' g φ s)
include hg h

theorem found : g'.found s'.trace = (g.found s.trace).map φ := by
  rw [h.trace, Grammar.found_mapWords hg.start]

theorem contains_records (w : Word) : s'.records.contains (φ w) = s.records.contains w := by
  rw [Bool.eq_iff_iff, h.consistent.records, h.consistent'.records, Std.HashMap.contains_iff_mem,
    Std.HashMap.contains_iff_mem, Records.mem_ofTrace_iff, Records.mem_ofTrace_iff, h.found hg,
    List.mem_map_of_injective hg.injective]

theorem size_records : s'.records.size = s.records.size := by
  rw [h.consistent.records, h.consistent'.records, Records.size_ofTrace h.consistent.nodup,
    Records.size_ofTrace h.consistent'.nodup, h.found hg, List.length_map]

/-- Corresponding discoveries keep two states related. -/
theorem discover {t : Transition} (hnew : t.child ∉ g.found s.trace)
    (hroom : limits.refusesWord s.records.size = false)
    (hfinal : g'.isFinal (φ t.child) = g.isFinal t.child) :
    (s'.discover g' .recorder (t.mapWords φ)).Mirrors g' g φ (s.discover g .recorder t) := by
  have hnew' : φ t.child ∉ g'.found s'.trace := by
    rwa [h.found hg, List.mem_map_of_injective hg.injective]
  have hpending : g'.pending [t.mapWords φ] = (g.pending [t]).map (Prod.map φ id) := by
    cases hchild : g.isFinal t.child <;>
      simp [Grammar.pending, Transition.mapWords, hfinal, hchild]
  have hext := extends_discover h.consistent hnew hroom
  have hext' := extends_discover (t := t.mapWords φ) h.consistent' hnew' (h.size_records hg ▸ hroom)
  refine ⟨hext'.consistent, hext.consistent, ?_, ?_⟩
  · rw [hext.trace, hext'.trace, h.trace, List.map_append, List.map_singleton]
  · rw [hext.frontier, hext'.frontier, h.frontier, List.map_append, hpending]

omit hg in
/-- Related states have corresponding words in front, and stay related without them. -/
theorem exists_pop? {w : Word} {depth : Nat} {frontier : Queue (Word × Nat)}
    (hpop : s.frontier.pop? = some ((w, depth), frontier)) :
    ∃ frontier', s'.frontier.pop? = some ((φ w, depth), frontier') ∧
      State.Mirrors g' g φ { s' with frontier := frontier' } { s with frontier } := by
  have hq := Queue.toList_of_pop? hpop
  cases hpop' : s'.frontier.pop? with
  | none =>
    have hq' := Queue.pop?_eq_none_iff.1 hpop'
    simp [h.frontier, hq] at hq'
  | some p =>
    obtain ⟨⟨w', depth'⟩, frontier'⟩ := p
    have hq' := Queue.toList_of_pop? hpop'
    rw [h.frontier, hq, List.map_cons, Prod.map_apply, id_eq] at hq'
    obtain ⟨⟨rfl, rfl⟩, hrest⟩ : (φ w = w' ∧ depth = depth') ∧
        frontier.toList.map (Prod.map φ id) = frontier'.toList := by simpa using hq'
    obtain ⟨hrecords', hfinals', hnodup'⟩ := h.consistent'
    obtain ⟨hrecords, hfinals, hnodup⟩ := h.consistent
    exact ⟨frontier', rfl, ⟨hrecords', hfinals', hnodup'⟩, ⟨hrecords, hfinals, hnodup⟩, h.trace,
      hrest.symm⟩

end Mirrors

end State

/-! ## Steps -/

/-- The state in which a step leaves an exploration. -/
def Progress.state {σ : Type u} : Progress σ → State σ
  | .continued s => s
  | .ended _ s => s

/-- Two steps go on, or end for one reason, and leave related states. -/
inductive Progress.Mirrors (g' g : Grammar) (φ : Word → Word) :
    Progress (Array Transition) → Progress (Array Transition) → Prop
  | continued {s' s : State (Array Transition)} (h : s'.Mirrors g' g φ s) :
      Progress.Mirrors g' g φ (.continued s') (.continued s)
  | ended {s' s : State (Array Transition)} (reason : Halt) (h : s'.Mirrors g' g φ s) :
      Progress.Mirrors g' g φ (.ended reason s') (.ended reason s)

namespace State

variable {g g' : Grammar} {φ : Word → Word} {limits : Limits} {clock : Clock}

theorem prefix_trace_expand {s : State (Array Transition)} (h : s.Consistent g) (limits : Limits)
    (parent : Word) (depth : Nat) (ws : List Word) :
    s.trace <+: (expand g limits .recorder parent depth ws s).state.trace := by
  rcases expand_cases h limits parent depth ws rfl with ⟨s', he, hs'⟩ | ⟨s', k, he, -, hs', -⟩
  · rw [he]
    exact hs'.prefix_trace
  · rw [he]
    exact hs'.prefix_trace

/-- Expansions of corresponding words keep two states related, as far as the exploration gets. -/
theorem expand_mirrors (hg : g'.Mirrors g φ limits clock) {s s' : State (Array Transition)}
    (h : s'.Mirrors g' g φ s) (parent : Word) (depth : Nat) {ws : List Word}
    (htrace : (expand g limits .recorder parent depth ws s).state.trace <+: g.trace limits clock) :
    Progress.Mirrors g' g φ (expand g' limits .recorder (φ parent) depth (ws.map φ) s')
      (expand g limits .recorder parent depth ws s) := by
  induction ws generalizing s s' with
  | nil => exact .continued h
  | cons w ws ih =>
    rw [List.map_cons, expand]
    rw [expand] at htrace ⊢
    rw [h.contains_records hg, h.size_records hg]
    by_cases hw : s.records.contains w
    · rw [if_pos hw] at htrace ⊢
      rw [if_pos hw]
      exact ih h htrace
    · rw [if_neg hw] at htrace ⊢
      rw [if_neg hw]
      cases hroom : limits.refusesWord s.records.size with
      | true => exact .ended _ h
      | false =>
        rw [hroom, if_neg Bool.false_ne_true] at htrace
        have hnew : w ∉ g.found s.trace := by
          rwa [h.consistent.records, Std.HashMap.contains_iff_mem, Records.mem_ofTrace_iff] at hw
        have hext := extends_discover (t := ⟨parent, w, depth⟩) h.consistent hnew hroom
        have hrecorded := (prefix_trace_expand hext.consistent limits parent depth ws).trans htrace
        rw [hext.trace] at hrecorded
        have hw' : w ∈ g.discoveries limits clock :=
          (Grammar.found_prefix_found hrecorded).subset (by simp)
        exact ih (h.discover hg (t := ⟨parent, w, depth⟩) hnew hroom (hg.isFinal w hw')) htrace

theorem Reaches.trace_eq {n : Nat} {s : State (Array Transition)}
    (h : Reaches g limits clock 0 (initial g .recorder) n s) :
    g.trace limits clock = (s.run g limits .recorder clock n).2.trace := by
  rw [← h.run_eq]
  rfl

theorem Reaches.halt_eq {n : Nat} {s : State (Array Transition)}
    (h : Reaches g limits clock 0 (initial g .recorder) n s) :
    (g.explore limits .recorder clock).halt = (s.run g limits .recorder clock n).1 := by
  rw [← h.run_eq]
  rfl

theorem Reaches.prefix_trace {n : Nat} {s : State (Array Transition)}
    (h : Reaches g limits clock 0 (initial g .recorder) n s) :
    s.trace <+: g.trace limits clock := by
  rw [h.trace_eq]
  exact (run_grows (h.grows (consistent_initial g)).consistent limits clock n).prefix_trace

/-- A step of an exploration records nothing but what the exploration records. -/
theorem Reaches.state_prefix_trace {n : Nat} {s : State (Array Transition)}
    (h : Reaches g limits clock 0 (initial g .recorder) n s) :
    (s.step g limits .recorder (clock n)).state.trace <+: g.trace limits clock := by
  cases hstep : s.step g limits .recorder (clock n) with
  | continued s' => exact (Reaches.step h hstep).prefix_trace
  | ended reason s' =>
    rw [h.trace_eq, run_of_ended hstep]
    exact List.prefix_refl _

/-- **A step keeps two states related.** -/
theorem step_mirrors (hg : g'.Mirrors g φ limits clock) {n : Nat} {s s' : State (Array Transition)}
    (hreach : Reaches g limits clock 0 (initial g .recorder) n s) (h : s'.Mirrors g' g φ s) :
    Progress.Mirrors g' g φ (s'.step g' limits .recorder (clock n))
      (s.step g limits .recorder (clock n)) := by
  have htrace := hreach.state_prefix_trace
  cases hpop : s.frontier.pop? with
  | none =>
    have hq := Queue.pop?_eq_none_iff.1 hpop
    have hq' : s'.frontier.toList = [] := by rw [h.frontier, hq, List.map_nil]
    rw [step_of_nil hq, step_of_nil hq']
    exact .ended _ h
  | some p =>
    obtain ⟨⟨w, depth⟩, frontier⟩ := p
    obtain ⟨frontier', hpop', hpopped⟩ := h.exists_pop? hpop
    have hmem : (w, depth) ∈ s.frontier.toList := by simp [Queue.toList_of_pop? hpop]
    obtain ⟨hw, hwfinal⟩ := mem_found_of_mem_frontier hreach hmem
    have hsuccessors : successors g'.rules (φ w) = (successors g.rules w).map φ :=
      hg.successors w ((Grammar.found_prefix_found hreach.prefix_trace).subset hw) hwfinal
    unfold step at htrace ⊢
    simp only [hpop, hpop'] at htrace ⊢
    split
    · exact .ended _ h
    · next hdepth =>
      rw [if_neg hdepth] at htrace
      split
      · exact .ended _ h
      · next htime =>
        rw [if_neg htime] at htrace
        rw [hsuccessors]
        exact expand_mirrors hg hpopped w (depth + 1) htrace

/-- A state is reached together with a related one. -/
theorem Reaches.mirrors (hg : g'.Mirrors g φ limits clock) {n : Nat} {s : State (Array Transition)}
    (h : Reaches g limits clock 0 (initial g .recorder) n s) :
    ∃ s', Reaches g' limits clock 0 (initial g' .recorder) n s' ∧ s'.Mirrors g' g φ s := by
  induction h with
  | refl =>
    have hfinal : g'.isFinal (φ g.start) = g.isFinal g.start :=
      hg.isFinal g.start Grammar.start_mem_discoveries
    refine ⟨initial g' .recorder, .refl, consistent_initial g', consistent_initial g, ?_, ?_⟩
    · rw [trace_initial, trace_initial, List.map_nil]
    · rw [frontier_initial, frontier_initial, hg.start, hfinal]
      split <;> rfl
  | step h hstep ih =>
    obtain ⟨s₁, h₁, hs₁⟩ := ih
    have hstep' := step_mirrors hg h hs₁
    rw [hstep] at hstep'
    generalize hp : s₁.step g' limits .recorder (clock _) = p at hstep'
    cases hstep' with
    | continued hs' => exact ⟨_, .step h₁ hp, hs'⟩

end State

/-! ## Explorations -/

namespace Grammar.Mirrors

variable {σ : Type u} {g g' : Grammar} {φ : Word → Word} {limits : Limits} {clock : Clock}

/-- **Two explorations in lockstep** record corresponding words and end for the same reason. -/
theorem trace_and_halt (h : g'.Mirrors g φ limits clock) :
    g'.trace limits clock = (g.trace limits clock).map (Transition.mapWords φ) ∧
      (g'.explore limits .recorder clock).halt = (g.explore limits .recorder clock).halt := by
  obtain ⟨n, s, hs, hend⟩ := State.exists_reaches_ended g limits clock 0 (State.initial g .recorder)
  obtain ⟨s', hs', hmirrors⟩ := hs.mirrors h
  have hstep := State.step_mirrors h hs hmirrors
  rw [hend] at hstep
  generalize hp : s'.step g' limits .recorder (clock n) = p at hstep
  cases hstep with
  | ended reason hfinal =>
    rw [hs'.trace_eq, hs'.halt_eq, State.run_of_ended hp]
    exact ⟨hfinal.trace, rfl⟩

theorem halt (h : g'.Mirrors g φ limits clock) (obs : Observer σ) :
    (g'.explore limits obs clock).halt = (g.explore limits obs clock).halt := by
  rw [halt_explore, halt_explore g, h.trace_and_halt.2]

theorem discoveries (h : g'.Mirrors g φ limits clock) :
    g'.discoveries limits clock = (g.discoveries limits clock).map φ := by
  rw [Grammar.discoveries, h.trace_and_halt.1, found_mapWords h.start]
  rfl

theorem words (h : g'.Mirrors g φ limits clock) (obs : Observer σ) :
    (g'.explore limits obs clock).words = (g.explore limits obs clock).words.map φ := by
  rw [words_explore, words_explore, h.discoveries, List.filter_map]
  congr 1
  exact List.filter_congr h.isFinal

/-- The records of the second exploration are those of the first. -/
theorem record?_eq_some_iff (h : g'.Mirrors g φ limits clock) (obs : Observer σ) {v : Word}
    {r' : Record} : (g'.explore limits obs clock).record? v = some r' ↔
      ∃ w r, (g.explore limits obs clock).record? w = some r ∧ v = φ w ∧ r' = r.mapWords φ := by
  simp only [record?_explore_eq_some_iff, h.trace_and_halt.1, h.start]
  constructor
  · rintro (⟨rfl, rfl⟩ | ⟨t', ht', rfl, rfl⟩)
    · exact ⟨g.start, ⟨0, none⟩, .inl ⟨rfl, rfl⟩, rfl, rfl⟩
    · obtain ⟨t, ht, rfl⟩ := List.mem_map.1 ht'
      exact ⟨t.child, ⟨t.depth, some t.parent⟩, .inr ⟨t, ht, rfl, rfl⟩, rfl, rfl⟩
  · rintro ⟨w, r, ⟨rfl, rfl⟩ | ⟨t, ht, rfl, rfl⟩, rfl, rfl⟩
    · exact .inl ⟨rfl, rfl⟩
    · exact .inr ⟨t.mapWords φ, List.mem_map_of_mem ht, rfl, rfl⟩

/-- The derivations of the second exploration are those of the first. -/
theorem derivation? (h : g'.Mirrors g φ limits clock) (obs : Observer σ) (w : Word) :
    (g'.explore limits obs clock).derivation? (φ w) =
      ((g.explore limits obs clock).derivation? w).map (List.map φ) := by
  by_cases hw : w ∈ g.discoveries limits clock
  · induction hw using mem_discoveries_induction with
    | start =>
      rw [← h.start, derivation?_start, derivation?_start, h.start]
      rfl
    | child t ht ih =>
      have ht' : t.mapWords φ ∈ g'.trace limits clock := by
        rw [h.trace_and_halt.1]
        exact List.mem_map_of_mem ht
      have hchild : (g'.explore limits obs clock).derivation? (φ t.child) =
          ((g'.explore limits obs clock).derivation? (φ t.parent)).map (· ++ [φ t.child]) :=
        derivation?_child ht'
      rw [hchild, derivation?_child ht, ih, Option.map_map, Option.map_map]
      congr 1
      funext chain
      simp
  · have hw' : φ w ∉ g'.discoveries limits clock := by
      rwa [h.discoveries, List.mem_map_of_injective h.injective]
    have hnone : (g.explore limits obs clock).record? w = none := record?_explore_eq_none_iff.2 hw
    have hnone' : (g'.explore limits obs clock).record? (φ w) = none :=
      record?_explore_eq_none_iff.2 hw'
    simp [Exploration.derivation?, hnone, hnone']

end Grammar.Mirrors

end StringRewriting
