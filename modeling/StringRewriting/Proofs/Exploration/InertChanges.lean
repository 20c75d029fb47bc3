import Mathlib.Logic.Relation
import StringRewriting.Proofs.Exploration.Lockstep
import StringRewriting.Proofs.Successors

/-!
# Changes that no exploration notices

A grammar may be changed in what its exploration does not meet: a rule that applies to none of the
words that are expanded, a rule that is already there further in front, a terminal that occurs in no
recorded word, or the non-terminals, which only document. The exploration stays the same, under a
bound in words as well.

* `successors_insert_of_not_applicable`, `successors_insert_copy`: successors under a further rule.
* `Grammar.InertChange`: the changes.
* `Grammar.explore_inert_changes`: explorations after any number of them.
-/

namespace StringRewriting

universe u

/-! ## Successors -/

/-- What was met before adds nothing where repetitions are erased. -/
theorem eraseDups_append_append_of_subset {α : Type u} [BEq α] [LawfulBEq α] {l m : List α}
    (h : ∀ a ∈ m, a ∈ l) (n : List α) : (l ++ (m ++ n)).eraseDups = (l ++ n).eraseDups := by
  have hm : m.removeAll l = [] := List.filter_eq_nil_iff.2 fun a ha => by simp [h a ha]
  have hremove : (m ++ n).removeAll l = n.removeAll l := by
    rw [List.removeAll, List.filter_append, ← List.removeAll, ← List.removeAll, hm, List.nil_append]
  rw [List.eraseDups_append, List.eraseDups_append, hremove]

/-- A rule whose left side does not occur in a word adds nothing to its successors. -/
theorem successors_insert_of_not_applicable {r : Rule} {w : Word} (h : ∀ u v, w ≠ u ++ r.lhs ++ v)
    (before after : List Rule) :
    successors (before ++ r :: after) w = successors (before ++ after) w := by
  have hr : r.rewrites w = [] := by
    by_contra hne
    obtain ⟨u, v, hw⟩ := Rule.rewrites_ne_nil_iff.1 hne
    exact h u v hw
  rw [successors_eq, successors_eq, List.flatMap_append, List.flatMap_append, List.flatMap_cons, hr,
    List.nil_append]

/-- Nor does a rule that is there already further in front. -/
theorem successors_insert_copy {before : List Rule} {r : Rule} (h : r ∈ before) (after : List Rule)
    (w : Word) : successors (before ++ r :: after) w = successors (before ++ after) w := by
  have hknown : ∀ w' ∈ r.rewrites w, w' ∈ before.flatMap (·.rewrites w) :=
    fun w' hw' => List.mem_flatMap.2 ⟨r, h, hw'⟩
  rw [successors_eq, successors_eq, List.flatMap_append, List.flatMap_append, List.flatMap_cons,
    eraseDups_append_append_of_subset hknown]

/-! ## Explorations -/

namespace Grammar

variable {σ : Type u} {g g' : Grammar} {limits : Limits} {clock : Clock}

/-- In lockstep with the same words, two explorations are the same. -/
theorem Mirrors.explore_eq (h : g'.Mirrors g id limits clock) (obs : Observer σ) :
    g'.explore limits obs clock = g.explore limits obs clock := by
  have hmap : Transition.mapWords id = id := rfl
  have htrace : g'.trace limits clock = g.trace limits clock := by
    rw [h.trace_and_halt.1, hmap, List.map_id]
  have hwords := h.words obs
  rw [words_explore, words_explore, Grammar.discoveries, Grammar.discoveries, htrace, List.map_id]
    at hwords
  have hrecords : Records.ofTrace g' (g.trace limits clock) =
      Records.ofTrace g (g.trace limits clock) := by
    rw [Records.ofTrace, h.start]
    rfl
  rw [explore_eq_ofTrace g', explore_eq_ofTrace g, Exploration.ofTrace, Exploration.ofTrace, htrace,
    hwords, hrecords, h.halt obs, h.start, id_eq]

/-- The grammar `g'` is `g` with one change of something that the exploration of `g` does not meet.
-/
inductive InertChange (limits : Limits) (clock : Clock) (g : Grammar) : Grammar → Prop
  /-- A rule is inserted whose left side occurs in no recorded word that is not final. -/
  | rule {before after : List Rule} {r : Rule} (hrules : g.rules = before ++ after)
      (hr : ∀ w ∈ g.discoveries limits clock, ¬ g.isFinal w → ∀ u v, w ≠ u ++ r.lhs ++ v) :
      InertChange limits clock g { g with rules := before ++ r :: after }
  /-- A rule is inserted once more somewhere behind itself. -/
  | copy {before after : List Rule} {r : Rule} (hrules : g.rules = before ++ after)
      (hr : r ∈ before) :
      InertChange limits clock g { g with rules := before ++ r :: after }
  /-- Terminals are added that occur in no recorded word. -/
  | terminals {a : Alphabet} (hold : ∀ c ∈ g.terminals, c ∈ a)
      (hnew : ∀ c ∈ a, c ∉ g.terminals → ∀ w ∈ g.discoveries limits clock, c ∉ w) :
      InertChange limits clock g { g with terminals := a }
  /-- There are other non-terminals. -/
  | nonTerminals (a : Alphabet) : InertChange limits clock g { g with nonTerminals := a }

/-- **After such a change the grammars go in lockstep.** -/
theorem InertChange.mirrors (h : InertChange limits clock g g') : g'.Mirrors g id limits clock := by
  cases h with
  | rule hrules hr =>
    refine ⟨Function.injective_id, rfl, fun _ _ => rfl, fun w hw hfinal => ?_⟩
    rw [List.map_id, hrules]
    exact successors_insert_of_not_applicable (hr w hw hfinal) _ _
  | copy hrules hr =>
    refine ⟨Function.injective_id, rfl, fun _ _ => rfl, fun w _ _ => ?_⟩
    rw [List.map_id, hrules]
    exact successors_insert_copy hr _ w
  | terminals hold hnew =>
    refine ⟨Function.injective_id, rfl, fun w hw => ?_, fun w _ _ => (List.map_id _).symm⟩
    rw [Bool.eq_iff_iff, isFinal_iff, isFinal_iff]
    refine forall₂_congr fun c hc => ⟨fun ha => ?_, hold c⟩
    by_contra hterminal
    exact hnew c ha hterminal w hw hc
  | nonTerminals a =>
    exact ⟨Function.injective_id, rfl, fun _ _ => rfl, fun w _ _ => (List.map_id _).symm⟩

/-- Each of several changes leaves the exploration as it is, so the next one is inert for it as
well. -/
theorem explore_eq_of_inert_changes (h : Relation.ReflTransGen (InertChange limits clock) g g')
    (obs : Observer σ) : g'.explore limits obs clock = g.explore limits obs clock := by
  induction h with
  | refl => rfl
  | tail _ hlast ih => rw [hlast.mirrors.explore_eq, ih]

/-- **Changes of what an exploration does not meet do not change it**, however many are made one
after the other and whatever the limits: the results, the records, the trace, their order and the
end are the same. -/
theorem explore_inert_changes (g g' : Grammar) (limits : Limits) (obs : Observer σ)
    (clock clock' : Clock) (h : Relation.ReflTransGen (InertChange limits clock) g g')
    (hclock : g.SameTime g' limits clock clock') :
    g'.explore limits obs clock' = g.explore limits obs clock ∧
      g'.trace limits clock' = g.trace limits clock := by
  have hrecorded := explore_eq_of_inert_changes h .recorder
  have hhalt := congrArg Exploration.halt hrecorded
  rw [explore_eq_of_sameTime hclock hhalt, trace_eq_of_sameTime hclock hhalt, trace, trace,
    hrecorded]
  exact ⟨explore_eq_of_inert_changes h obs, rfl⟩

/-- A further rule `X → S` in front of the rules `S → aS` and `S → b`. -/
def rightLinearPadded : Grammar :=
  { rightLinear with rules := ⟨['X'], ['S'], by decide⟩ :: rightLinear.rules }

/-- A further rule and a further terminal, under a bound in words that ends the exploration. -/
theorem explore_rightLinearPadded_inert_changes :
    Relation.ReflTransGen (InertChange ⟨2, some 4, none⟩ .still) rightLinear
        { rightLinearPadded with terminals := .ofSymbols ['a', 'b', 'c'] } ∧
      Grammar.explore { rightLinearPadded with terminals := .ofSymbols ['a', 'b', 'c'] }
          ⟨2, some 4, none⟩ .recorder .still =
        rightLinear.explore ⟨2, some 4, none⟩ .recorder .still := by
  have hrule : InertChange ⟨2, some 4, none⟩ .still rightLinear rightLinearPadded := by
    refine .rule (List.nil_append _).symm fun w hw _ u v huv => ?_
    have hX : 'X' ∈ w := by simp [huv]
    exact absurd (symbol_of_mem_discoveries hw hX) (by decide)
  have hterminals : InertChange ⟨2, some 4, none⟩ .still rightLinearPadded
      { rightLinearPadded with terminals := .ofSymbols ['a', 'b', 'c'] } := by
    have hold : ∀ c, c ∈ rightLinearPadded.terminals ↔ c = 'a' ∨ c = 'b' := by
      simp [rightLinearPadded, rightLinear]
    refine .terminals (fun c hc => ?_) fun c hc hnew w hw hmem => ?_
    · rcases (hold c).1 hc with rfl | rfl <;> simp
    · rw [hold, not_or] at hnew
      have hc' : c = 'a' ∨ c = 'b' ∨ c = 'c' := by simpa using hc
      obtain rfl := (hc'.resolve_left hnew.1).resolve_left hnew.2
      exact absurd (symbol_of_mem_discoveries hw hmem) (by decide)
  have hchanges := Relation.ReflTransGen.tail (.single hrule) hterminals
  exact ⟨hchanges, (explore_inert_changes _ _ ⟨2, some 4, none⟩ .recorder .still .still hchanges
    (.inl rfl)).1⟩

end Grammar

end StringRewriting
