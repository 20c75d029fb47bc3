import StringRewriting.Proofs.Exploration.Agreement
import StringRewriting.Proofs.Exploration.WordLimit

/-!
# The rules as a set

The order of the rules decides the order of the successors, and so the parents and what is left out
under a bound in words. The chains do not depend on it. So the level of every word, and with it the
number of the words and the end of an exploration, depend on the set of the rules alone, and with
more rules no word is reached later.

* `Grammar.HasRulesOf`: a grammar with at least the rules of another one.
* `Grammar.HasRulesOf.exists_mem_level`: it reaches every word no later.
* `Grammar.mem_level_iff_of_same_rules`: with the same set of rules the levels have the same words.
* `Grammar.explore_mono_rules`: explorations of the two grammars.
-/

namespace StringRewriting

universe u

namespace Grammar

/-- The grammar `g'` has the start word and the terminals of `g`, and at least its rules. -/
structure HasRulesOf (g' g : Grammar) : Prop where
  /-- The start words are the same. -/
  start : g'.start = g.start
  /-- The same words are final. -/
  terminals : g'.terminals = g.terminals
  /-- No rule is missing. -/
  rules : ∀ r ∈ g.rules, r ∈ g'.rules

variable {σ : Type u} {g g' : Grammar} {limits : Limits} {obs : Observer σ} {clock clock' : Clock}

namespace HasRulesOf

theorem isFinal (h : g'.HasRulesOf g) (w : Word) : g'.isFinal w = g.isFinal w := by
  rw [Grammar.isFinal, Grammar.isFinal, h.terminals]

theorem step (h : g'.HasRulesOf g) {v w : Word} (hstep : Rewriting.Step g.rules v w) :
    Rewriting.Step g'.rules v w := by
  obtain ⟨r, hr, x, y, hv, hw⟩ := hstep
  exact ⟨r, h.rules r hr, x, y, hv, hw⟩

theorem admissible (h : g'.HasRulesOf g) {n : Nat} {w : Word} (hw : g.Admissible n w) :
    g'.Admissible n w := by
  induction hw with
  | refl =>
    rw [← h.start]
    exact .refl
  | step _ hfinal hstep ih => exact .step ih (by rwa [h.isFinal]) (h.step hstep)

/-- **With more rules no word is reached later.** -/
theorem exists_mem_level (h : g'.HasRulesOf g) {k : Nat} {w : Word} (hw : w ∈ g.level k) :
    ∃ j ≤ k, w ∈ g'.level j :=
  exists_mem_level_of_admissible (h.admissible (admissible_of_mem_level hw))

end HasRulesOf

/-! ## The same set of rules -/

section SameRules

variable (h : g'.HasRulesOf g) (h' : g.HasRulesOf g')
include h h'

theorem mem_level_of_same_rules {k : Nat} {w : Word} (hw : w ∈ g.level k) : w ∈ g'.level k := by
  obtain ⟨j, hj, hmem⟩ := h.exists_mem_level hw
  obtain ⟨i, hi, hmem'⟩ := h'.exists_mem_level hmem
  -- there and back again it is not reached earlier
  have hik : i = k := eq_of_mem_level hmem' hw
  have hjk : j = k := by omega
  exact hjk ▸ hmem

theorem mem_level_iff_of_same_rules {k : Nat} {w : Word} : w ∈ g'.level k ↔ w ∈ g.level k :=
  ⟨mem_level_of_same_rules h' h, mem_level_of_same_rules h h'⟩

theorem nonFinals_level_eq_nil_iff_of_same_rules (k : Nat) :
    g'.nonFinals (g'.level k) = [] ↔ g.nonFinals (g.level k) = [] := by
  simp only [nonFinals, List.filter_eq_nil_iff, mem_level_iff_of_same_rules h h', h.isFinal]

theorem length_found_chronicle_of_same_rules (k : Nat) :
    (g'.found (g'.chronicle k)).length = (g.found (g.chronicle k)).length := by
  refine List.Perm.length_eq ?_
  rw [List.perm_ext_iff_of_nodup (nodup_found_chronicle k) (nodup_found_chronicle k)]
  intro w
  simp only [mem_found_chronicle, mem_level_iff_of_same_rules h h']

end SameRules

/-! ## Explorations -/

section SameRules

variable (h : g'.HasRulesOf g) (h' : g.HasRulesOf g')
  (htime : (g.explore limits obs clock).halt ≠ .timeout)
  (htime' : (g'.explore limits obs clock').halt ≠ .timeout)
include h h' htime htime'

theorem halt_and_discovered_of_same_rules :
    (g'.explore limits obs clock').halt = (g.explore limits obs clock).halt ∧
      (g'.explore limits obs clock').discovered = (g.explore limits obs clock).discovered := by
  have hlimit : (g'.explore limits obs clock').halt = .wordLimit ↔
      (g.explore limits obs clock).halt = .wordLimit := by
    rw [halt_eq_wordLimit_iff_length htime', halt_eq_wordLimit_iff_length htime,
      length_found_chronicle_of_same_rules h h']
  rw [discovered_explore, discovered_explore]
  by_cases hend : (g.explore limits obs clock).halt = .wordLimit
  · have hend' := hlimit.2 hend
    obtain ⟨c, hc, -⟩ := (halt_eq_wordLimit_iff_length htime).1 hend
    rw [hend, hend', length_discoveries_of_wordLimit hc hend,
      length_discoveries_of_wordLimit hc hend']
    exact ⟨rfl, rfl⟩
  · have hcomplete := Halt.isComplete_iff.2 ⟨hend, htime⟩
    have hcomplete' := Halt.isComplete_iff.2 ⟨mt hlimit.1 hend, htime'⟩
    rw [halt_of_isComplete hcomplete, halt_of_isComplete hcomplete',
      discoveries_of_isComplete hcomplete,
      discoveries_of_isComplete hcomplete', length_found_chronicle_of_same_rules h h']
    simp only [nonFinals_level_eq_nil_iff_of_same_rules h h', and_self]

end SameRules

theorem mem_words_iff_of_isComplete (h : (g.explore limits obs clock).halt.isComplete) {w : Word} :
    w ∈ (g.explore limits obs clock).words ↔
      (∃ j ≤ limits.maxDepth, w ∈ g.level j) ∧ g.isFinal w := by
  rw [words_explore, List.mem_filter, discoveries_of_isComplete h, mem_found_chronicle]

/-- **Exploration is monotone in the rules and depends on their set alone, up to order.** Take two
grammars with one start word and the same terminals, explored under the same limits, neither ended
by the time. If the second has all the rules of the first and there is no bound in words, then every
word recorded for the first is recorded for the second and no deeper, and the results of the first
are results of the second. If they have the same rules, in whatever order and however often, then
the explorations end for the same reason with as many words; without a bound in words these are the
same words at the same depths, and so are the results. -/
theorem explore_mono_rules (g g' : Grammar) (limits : Limits) (obs : Observer σ)
    (clock clock' : Clock) (hstart : g'.start = g.start) (hterminals : g'.terminals = g.terminals)
    (htime : (g.explore limits obs clock).halt ≠ .timeout)
    (htime' : (g'.explore limits obs clock').halt ≠ .timeout) :
    ((∀ r ∈ g.rules, r ∈ g'.rules) → limits.maxWords = none →
      (∀ w k, (g.explore limits obs clock).depth? w = some k →
        ∃ k' ≤ k, (g'.explore limits obs clock').depth? w = some k') ∧
      ∀ w ∈ (g.explore limits obs clock).words, w ∈ (g'.explore limits obs clock').words) ∧
    ((∀ r, r ∈ g.rules ↔ r ∈ g'.rules) →
      (g'.explore limits obs clock').halt = (g.explore limits obs clock).halt ∧
      (g'.explore limits obs clock').discovered = (g.explore limits obs clock).discovered ∧
      (limits.maxWords = none →
        (∀ w, (g'.explore limits obs clock').depth? w = (g.explore limits obs clock).depth? w) ∧
        ∀ w, w ∈ (g'.explore limits obs clock').words ↔
          w ∈ (g.explore limits obs clock).words)) := by
  constructor
  · intro hrules hwords
    have h : g'.HasRulesOf g := ⟨hstart, hterminals, hrules⟩
    have hcomplete := isComplete_of_maxWords_eq_none hwords htime
    have hcomplete' := isComplete_of_maxWords_eq_none hwords htime'
    constructor
    · intro w k hk
      obtain ⟨hle, hlevel⟩ := (depth?_explore_eq_some_iff hcomplete).1 hk
      obtain ⟨j, hj, hmem⟩ := h.exists_mem_level hlevel
      exact ⟨j, hj, (depth?_explore_eq_some_iff hcomplete').2 ⟨by omega, hmem⟩⟩
    · intro w hw
      obtain ⟨⟨k, hk, hlevel⟩, hfinal⟩ := (mem_words_iff_of_isComplete hcomplete).1 hw
      obtain ⟨j, hj, hmem⟩ := h.exists_mem_level hlevel
      refine (mem_words_iff_of_isComplete hcomplete').2 ⟨⟨j, by omega, hmem⟩, ?_⟩
      rwa [h.isFinal]
  · intro hrules
    have h : g'.HasRulesOf g := ⟨hstart, hterminals, fun r => (hrules r).1⟩
    have h' : g.HasRulesOf g' := ⟨hstart.symm, hterminals.symm, fun r => (hrules r).2⟩
    obtain ⟨hhalt, hdiscovered⟩ := halt_and_discovered_of_same_rules h h' htime htime'
    refine ⟨hhalt, hdiscovered, fun hwords => ?_⟩
    have hcomplete := isComplete_of_maxWords_eq_none hwords htime
    have hcomplete' := isComplete_of_maxWords_eq_none hwords htime'
    constructor
    · intro w
      ext k
      rw [depth?_explore_eq_some_iff hcomplete', depth?_explore_eq_some_iff hcomplete,
        mem_level_iff_of_same_rules h h']
    · intro w
      simp only [mem_words_iff_of_isComplete hcomplete', mem_words_iff_of_isComplete hcomplete,
        mem_level_iff_of_same_rules h h', h.isFinal]

/-- The rules `S → b` and `S → aS`, and then once more in their order. -/
def rightLinearTwice : Grammar :=
  { rightLinear with rules := rightLinear.rules.reverse ++ rightLinear.rules }

theorem explore_rightLinearTwice_same_rules :
    (∀ r, r ∈ rightLinear.rules ↔ r ∈ rightLinearTwice.rules) ∧
      (rightLinearTwice.explore ⟨2, some 4, none⟩ .recorder .still).discovered =
        (rightLinear.explore ⟨2, some 4, none⟩ .recorder .still).discovered ∧
      ['a', 'b'] ∈ (rightLinear.explore (.depth 2) .recorder .still).words ∧
      ['a', 'b'] ∈ (rightLinearTwice.explore (.depth 2) .recorder .still).words := by
  have hsame : ∀ r, r ∈ rightLinear.rules ↔ r ∈ rightLinearTwice.rules := by
    simp [rightLinearTwice]
  have htime := fun limits hlimits => rightLinear.halt_ne_timeout limits .recorder .still hlimits
  have htime' := fun limits hlimits =>
    rightLinearTwice.halt_ne_timeout limits .recorder .still hlimits
  obtain ⟨-, hcut⟩ := explore_mono_rules rightLinear rightLinearTwice ⟨2, some 4, none⟩ .recorder
    .still .still rfl rfl (htime _ rfl) (htime' _ rfl)
  obtain ⟨hmono, -⟩ := explore_mono_rules rightLinear rightLinearTwice (.depth 2) .recorder
    .still .still rfl rfl (htime _ rfl) (htime' _ rfl)
  have hword : ['a', 'b'] ∈ (rightLinear.explore (.depth 2) .recorder .still).words := by
    rw [words_explore, discoveries_of_isComplete (isComplete_of_maxWords_eq_none rfl (htime _ rfl))]
    decide +kernel
  obtain ⟨-, hwords⟩ := hmono (fun r => (hsame r).1) rfl
  exact ⟨hsame, (hcut hsame).2.1, hword, hwords _ hword⟩

end Grammar

end StringRewriting
