import Mathlib.Data.List.Induction
import StringRewriting.Proofs.Exploration.Discovery
import StringRewriting.Proofs.Exploration.Observation

/-!
# The trace of an exploration

The recorder's transitions are the whole history of an exploration: the records, the results and
what any observer made of it can be computed from them.

* `Records.getElem?_ofTrace_eq_some_iff`: the records that belong to a trace.
* `State.Consistent`: records and results are those of the trace.
* `State.Grows`, `State.Extends`: what is recorded between two states.
-/

namespace StringRewriting

universe u

/-! ## Records -/

namespace Records

/-- The records of the start word and of the children of some transitions. -/
def ofTrace (g : Grammar) (ts : List Transition) : Records :=
  ts.foldl (fun rs t => rs.insert t.child ⟨t.depth, some t.parent⟩)
    (Std.HashMap.emptyWithCapacity.insert g.start ⟨0, none⟩)

variable {g : Grammar}

theorem ofTrace_nil :
    ofTrace g [] = Std.HashMap.emptyWithCapacity.insert g.start ⟨0, none⟩ := rfl

theorem ofTrace_append_singleton (ts : List Transition) (t : Transition) :
    ofTrace g (ts ++ [t]) = (ofTrace g ts).insert t.child ⟨t.depth, some t.parent⟩ := by
  simp [ofTrace]

theorem mem_ofTrace_iff {ts : List Transition} {w : Word} : w ∈ ofTrace g ts ↔ w ∈ g.found ts := by
  induction ts using List.reverseRecOn with
  | nil =>
    rw [ofTrace_nil, Std.HashMap.mem_insert, Grammar.found_nil, List.mem_singleton, beq_iff_eq,
      or_iff_left Std.HashMap.not_mem_emptyWithCapacity]
    exact eq_comm
  | append_singleton ts t ih =>
    rw [ofTrace_append_singleton, Std.HashMap.mem_insert, ih, Grammar.found_append,
      List.mem_append, List.map_singleton, List.mem_singleton, or_comm, beq_iff_eq]
    exact or_congr_right eq_comm

/-- A word without a second discovery has the record of its discovery. -/
theorem getElem?_ofTrace_eq_some_iff {ts : List Transition} (h : (g.found ts).Nodup) {w : Word}
    {r : Record} :
    (ofTrace g ts)[w]? = some r ↔
      (w = g.start ∧ r = ⟨0, none⟩) ∨ ∃ t ∈ ts, t.child = w ∧ r = ⟨t.depth, some t.parent⟩ := by
  induction ts using List.reverseRecOn with
  | nil =>
    rw [ofTrace_nil, Std.HashMap.getElem?_insert]
    by_cases hw : g.start = w
    · simp [hw, eq_comm]
    · simp [hw, Ne.symm hw]
  | append_singleton ts t ih =>
    obtain ⟨hnew, hnodup⟩ := Grammar.nodup_found_append_singleton.1 h
    rw [ofTrace_append_singleton, Std.HashMap.getElem?_insert]
    by_cases hw : t.child = w
    · subst hw
      rw [Grammar.found, List.mem_cons, not_or] at hnew
      have hold : ∀ t' ∈ ts, t'.child ≠ t.child := by
        intro t' ht' e
        exact hnew.2 (e ▸ List.mem_map_of_mem ht')
      simp only [beq_self_eq_true, if_true, Option.some.injEq, hnew.1, false_and, false_or,
        List.mem_append, List.mem_singleton]
      constructor
      · rintro rfl
        exact ⟨t, .inr rfl, rfl, rfl⟩
      · rintro ⟨t', ht' | rfl, hc, rfl⟩
        · exact absurd hc (hold t' ht')
        · rfl
    · rw [if_neg (by simpa using hw), ih hnodup]
      simp only [List.mem_append, List.mem_singleton]
      apply or_congr_right
      constructor
      · rintro ⟨t', ht', hc, hr⟩
        exact ⟨t', .inl ht', hc, hr⟩
      · rintro ⟨t', ht' | rfl, hc, hr⟩
        · exact ⟨t', ht', hc, hr⟩
        · exact absurd hc hw

theorem size_ofTrace {ts : List Transition} (h : (g.found ts).Nodup) :
    (ofTrace g ts).size = (g.found ts).length := by
  induction ts using List.reverseRecOn with
  | nil =>
    rw [ofTrace_nil, Std.HashMap.size_insert]
    simp
  | append_singleton ts t ih =>
    obtain ⟨hnew, hnodup⟩ := Grammar.nodup_found_append_singleton.1 h
    rw [ofTrace_append_singleton, Std.HashMap.size_insert, if_neg (mt mem_ofTrace_iff.1 hnew),
      ih hnodup]
    simp

end Records

/-! ## States -/

namespace State

variable {g : Grammar} {limits : Limits}

/-- The transitions so far. -/
def trace (s : State (Array Transition)) : List Transition :=
  s.observed.toList

/-- Records and results are those of the trace, which discovers no word twice. -/
structure Consistent (g : Grammar) (s : State (Array Transition)) : Prop where
  /-- The records are those of the trace. -/
  records : s.records = .ofTrace g s.trace
  /-- The results are the final words in the order of their discovery. -/
  finals : s.finals.toList = (g.found s.trace).filter g.isFinal
  /-- No word is discovered twice. -/
  nodup : (g.found s.trace).Nodup

/-- From `s` to `s'`, words were recorded one after the other, each while the limits admitted a
further word. -/
structure Grows (g : Grammar) (limits : Limits) (s s' : State (Array Transition)) : Prop where
  /-- The new state is consistent. -/
  consistent : s'.Consistent g
  /-- The trace goes on. -/
  prefix_trace : s.trace <+: s'.trace
  /-- The limits admitted a word as often as one was recorded. -/
  admitted : ∀ n, s.trace.length < n → n ≤ s'.trace.length → limits.refusesWord n = false

theorem Grows.refl {s : State (Array Transition)} (h : s.Consistent g) : s.Grows g limits s :=
  ⟨h, List.prefix_refl _, fun n hn hn' => by omega⟩

theorem Grows.trans {s s' s'' : State (Array Transition)} (h : s.Grows g limits s')
    (h' : s'.Grows g limits s'') : s.Grows g limits s'' where
  consistent := h'.consistent
  prefix_trace := h.prefix_trace.trans h'.prefix_trace
  admitted n hn hn' := by
    by_cases hs : n ≤ s'.trace.length
    · exact h.admitted n hn hs
    · exact h'.admitted n (by omega) hn'

/-- The state grows by the transitions `ts`, and their children join the frontier `q`. -/
structure Extends (g : Grammar) (limits : Limits) (s : State (Array Transition))
    (q : List (Word × Nat)) (ts : List Transition) (s' : State (Array Transition)) : Prop
    extends s.Grows g limits s' where
  /-- The transitions are appended to the trace. -/
  trace : s'.trace = s.trace ++ ts
  /-- The children that are not final are appended to the frontier. -/
  frontier : s'.frontier.toList = q ++ g.pending ts

theorem Extends.refl {s : State (Array Transition)} (h : s.Consistent g) :
    s.Extends g limits s.frontier.toList [] s :=
  ⟨.refl h, (List.append_nil _).symm, (List.append_nil _).symm⟩

/-- What was put into the frontier first may have been taken from it in between. -/
theorem Extends.trans {s s' s'' : State (Array Transition)} {q q' : List (Word × Nat)}
    {ts us : List Transition} (h : s.Extends g limits q' ts s')
    (h' : s'.Extends g limits (q ++ g.pending ts) us s'') :
    s.Extends g limits q (ts ++ us) s'' where
  toGrows := h.toGrows.trans h'.toGrows
  trace := by rw [h'.trace, h.trace, List.append_assoc]
  frontier := by rw [h'.frontier, Grammar.pending_append, List.append_assoc]

theorem consistent_initial (g : Grammar) : (initial g .recorder).Consistent g := by
  unfold initial classify
  split
  · next h => exact ⟨rfl, by simp [trace, Observer.recorder, h], by simp [trace, Observer.recorder]⟩
  · next h => exact ⟨rfl, by simp [trace, Observer.recorder, h], by simp [trace, Observer.recorder]⟩

theorem trace_initial (g : Grammar) : (initial g .recorder).trace = [] := by
  unfold initial classify
  split <;> rfl

theorem frontier_initial (g : Grammar) :
    (initial g .recorder).frontier.toList = if g.isFinal g.start then [] else [(g.start, 0)] := by
  unfold initial classify
  split <;> rfl

/-- Recording a new word extends the trace by its transition. -/
theorem extends_discover {s : State (Array Transition)} (h : s.Consistent g) {t : Transition}
    (hnew : t.child ∉ g.found s.trace) (hroom : limits.refusesWord s.records.size = false) :
    s.Extends g limits s.frontier.toList [t] (s.discover g .recorder t) := by
  have htrace : (s.discover g .recorder t).trace = s.trace ++ [t] := by
    unfold discover classify
    split <;> simp [trace, Observer.recorder]
  have hrecords : (s.discover g .recorder t).records = .ofTrace g (s.trace ++ [t]) := by
    rw [Records.ofTrace_append_singleton, ← h.records]
    unfold discover classify
    split <;> rfl
  have hfinals : (s.discover g .recorder t).finals.toList =
      (g.found (s.trace ++ [t])).filter g.isFinal := by
    rw [Grammar.found_append, List.filter_append, ← h.finals]
    unfold discover classify
    split <;> simp_all
  have hfrontier : (s.discover g .recorder t).frontier.toList =
      s.frontier.toList ++ g.pending [t] := by
    unfold discover classify
    split <;> simp_all [Grammar.pending]
  have hnodup : (g.found (s.trace ++ [t])).Nodup :=
    Grammar.nodup_found_append_singleton.2 ⟨hnew, h.nodup⟩
  have hconsistent : (s.discover g .recorder t).Consistent g :=
    ⟨htrace ▸ hrecords, htrace ▸ hfinals, htrace ▸ hnodup⟩
  refine ⟨⟨hconsistent, htrace ▸ List.prefix_append _ _, fun n hn hn' => ?_⟩, htrace, hfrontier⟩
  rw [htrace, List.length_append, List.length_singleton] at hn'
  have hsize : s.records.size = n := by
    rw [h.records, Records.size_ofTrace h.nodup, Grammar.length_found]
    omega
  exact hsize ▸ hroom

end State

end StringRewriting
