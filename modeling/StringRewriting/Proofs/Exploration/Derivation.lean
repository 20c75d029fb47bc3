import Mathlib.Data.List.Forall2
import StringRewriting.Proofs.Exploration.Agreement

/-!
# Derivations of recorded words

Every recorded word but the start word was discovered by a transition, and its derivation is that of
the parent with the word behind it. So every recorded word has a derivation, and what rewriting
keeps is found in all recorded words.

* `Records.ancestry?_append`: what is in front of a derivation does not depend on its end.
* `Grammar.derivation?_child`: the derivation of the child of a transition.
* `Grammar.exists_derivation?`: recorded words have derivations, made of recorded words.
* `Grammar.forall₂_derivation?_words`: so all results have, in their order.
* `Grammar.symbol_of_mem_discoveries`: where the symbols of recorded words come from.
-/

namespace StringRewriting

universe u v

/-- Where a partial function has values on a whole list, none of them is skipped. -/
theorem forall₂_filterMap {α : Type u} {β : Type v} {f : α → Option β} {l : List α}
    (h : ∀ a ∈ l, ∃ b, f a = some b) :
    List.Forall₂ (fun a b => f a = some b) l (l.filterMap f) := by
  induction l with
  | nil => exact .nil
  | cons a l ih =>
    rw [List.forall_mem_cons] at h
    obtain ⟨⟨b, hb⟩, hl⟩ := h
    rw [List.filterMap_cons_some hb]
    exact .cons hb (ih hl)

namespace Records

variable {rs : Records} {r r' : Record} {p : Word}

theorem ancestry?_of_parent_eq_none (h : r.parent = none) (tail : List Word) :
    Records.ancestry? rs r tail = some tail := by
  unfold Records.ancestry?
  rw [h]

theorem ancestry?_of_parent_eq_some (h : r.parent = some p) (hp : rs[p]? = some r')
    (hlt : r'.depth < r.depth) (tail : List Word) :
    Records.ancestry? rs r tail = Records.ancestry? rs r' (p :: tail) := by
  conv =>
    lhs
    unfold Records.ancestry?
  simp [h, hp, hlt]

/-- The way back is the same whatever stands behind it. -/
theorem ancestry?_append (rs : Records) (r : Record) (tail tail' : List Word) :
    Records.ancestry? rs r (tail ++ tail') =
      (Records.ancestry? rs r tail).map (· ++ tail') := by
  fun_induction Records.ancestry? rs r tail with
  | case1 r tail hparent => rw [ancestry?_of_parent_eq_none hparent, Option.map_some]
  | case2 r tail p hparent hnone =>
    unfold Records.ancestry?
    simp [hparent, hnone]
  | case3 r tail p hparent r' hr' hlt ih =>
    rw [ancestry?_of_parent_eq_some hparent hr' hlt, ← ih, List.cons_append]
  | case4 r tail p hparent r' hr' hlt =>
    unfold Records.ancestry?
    simp [hparent, hr', hlt]

end Records

namespace Grammar

variable {σ : Type u} {g : Grammar} {limits : Limits} {obs : Observer σ} {clock : Clock}

/-! ## Derivations -/

theorem derivation?_start : (g.explore limits obs clock).derivation? g.start = some [g.start] := by
  rw [Exploration.derivation?, record?_explore_start, Option.bind_eq_bind, Option.bind_some,
    Records.ancestry?_of_parent_eq_none rfl]

/-- The child of a transition is derived through its parent. -/
theorem derivation?_child {t : Transition} (ht : t ∈ g.trace limits clock) :
    (g.explore limits obs clock).derivation? t.child =
      ((g.explore limits obs clock).derivation? t.parent).map (· ++ [t.child]) := by
  have hchild : (g.explore limits obs clock).record? t.child = some ⟨t.depth, some t.parent⟩ :=
    record?_child ht
  obtain ⟨r, hr, hdepth⟩ := exists_record?_parent obs ht
  have hlt : r.depth < t.depth := by omega
  simp only [Exploration.derivation?, hchild, hr, Option.bind_eq_bind, Option.bind_some]
  rw [Records.ancestry?_of_parent_eq_some rfl hr hlt, ← Records.ancestry?_append,
    List.singleton_append]

/-- **Every recorded word has a derivation**, and the words on it are recorded. -/
theorem exists_derivation? (obs : Observer σ) {w : Word} (hw : w ∈ g.discoveries limits clock) :
    ∃ chain, (g.explore limits obs clock).derivation? w = some chain ∧
      ∀ v ∈ chain, v ∈ g.discoveries limits clock := by
  induction hw using mem_discoveries_induction with
  | start =>
    refine ⟨[g.start], derivation?_start, fun v hv => ?_⟩
    rw [List.mem_singleton.1 hv]
    exact start_mem_discoveries
  | child t ht ih =>
    obtain ⟨chain, hchain, hmem⟩ := ih
    refine ⟨chain ++ [t.child], ?_, fun v hv => ?_⟩
    · rw [derivation?_child ht, hchain, Option.map_some]
    · rcases List.mem_append.1 hv with hv | hv
      · exact hmem v hv
      · rw [List.mem_singleton.1 hv]
        exact child_mem_discoveries ht

/-- No result is without a derivation. -/
theorem forall₂_derivation?_words :
    List.Forall₂ (fun w chain => (g.explore limits obs clock).derivation? w = some chain)
      (g.explore limits obs clock).words
      ((g.explore limits obs clock).words.filterMap (g.explore limits obs clock).derivation?) := by
  refine forall₂_filterMap fun w hw => ?_
  obtain ⟨chain, hchain, -⟩ := exists_derivation? obs (mem_discoveries_of_mem_words hw)
  exact ⟨chain, hchain⟩

/-! ## Symbols -/

theorem step_of_mem_trace {t : Transition} (ht : t ∈ g.trace limits clock) :
    Rewriting.Step g.rules t.parent t.child := by
  obtain ⟨before, after, h⟩ := List.append_of_mem ht
  obtain ⟨_, _, _, _, _, hstep, _⟩ := parent_of_trace_eq h
  exact mem_successors_iff_step.1 hstep

/-- Every symbol of a recorded word was in the start word or has been put in by a rule. -/
theorem symbol_of_mem_discoveries {w : Word} (hw : w ∈ g.discoveries limits clock) {c : Symbol}
    (hc : c ∈ w) : c ∈ g.start ∨ ∃ r ∈ g.rules, c ∈ r.rhs := by
  induction hw using mem_discoveries_induction with
  | start => exact .inl hc
  | child t ht ih =>
    obtain ⟨r, hr, u, v, hparent, hchild⟩ := step_of_mem_trace ht
    rw [hchild, List.mem_append, List.mem_append] at hc
    rcases hc with (hc | hc) | hc
    · exact ih (by simp [hparent, hc])
    · exact .inr ⟨r, hr, hc⟩
    · exact ih (by simp [hparent, hc])

end Grammar

end StringRewriting
