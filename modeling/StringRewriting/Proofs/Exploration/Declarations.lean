import StringRewriting.Proofs.Exploration.InertChanges

/-!
# Declared symbols

Rewriting copies symbols and puts in those of right sides, so the symbols that a grammar uses
without declaring them, which can be read off the grammar, are all the undeclared symbols that an
exploration can meet.

* `Grammar.mem_undeclared_of_mem_usedSymbols`: a symbol in use is declared or undeclared.
* `Grammar.declareAll`, `Grammar.undeclared_declareAll`: the undeclared symbols may be declared.
* `Grammar.explore_declared`: what this says about the recorded words.
-/

namespace StringRewriting

universe u

namespace Grammar

variable {σ : Type u} {g : Grammar} {limits : Limits} {obs : Observer σ} {clock : Clock}

/-! ## Symbols in use -/

/-- A symbol in use that is in neither alphabet is undeclared. -/
theorem mem_undeclared_of_mem_usedSymbols {c : Symbol} (h : c ∈ g.usedSymbols) :
    c ∈ g.terminals ∨ c ∈ g.nonTerminals ∨ c ∈ g.undeclared := by
  by_cases hterminal : c ∈ g.terminals
  · exact .inl hterminal
  · by_cases hnonTerminal : c ∈ g.nonTerminals
    · exact .inr (.inl hnonTerminal)
    · exact .inr (.inr (mem_undeclared.2 ⟨h, hterminal, hnonTerminal⟩))

theorem mem_usedSymbols_of_start_or_rhs {c : Symbol}
    (h : c ∈ g.start ∨ ∃ r ∈ g.rules, c ∈ r.rhs) : c ∈ g.usedSymbols := by
  rw [usedSymbols, List.mem_append, List.mem_flatMap]
  exact h.imp_right fun ⟨r, hr, hc⟩ => ⟨r, hr, List.mem_append_right r.lhs hc⟩

/-- A word that is not final has a symbol which is not a terminal. -/
theorem exists_notMem_terminals {w : Word} (h : ¬ g.isFinal w) : ∃ c ∈ w, c ∉ g.terminals := by
  rw [isFinal_iff] at h
  push Not at h
  exact h

/-! ## Declaring them -/

/-- The same grammar with its undeclared symbols among the non-terminals. -/
def declareAll (g : Grammar) : Grammar :=
  { g with nonTerminals := .ofSymbols (g.nonTerminals.toWord ++ g.undeclared.toWord) }

theorem mem_nonTerminals_declareAll {c : Symbol} :
    c ∈ g.declareAll.nonTerminals ↔ c ∈ g.nonTerminals ∨ c ∈ g.undeclared := by
  rw [declareAll, Alphabet.mem_ofSymbols, List.mem_append]
  rfl

/-- Nothing is left to be declared. -/
theorem undeclared_declareAll (g : Grammar) : g.declareAll.undeclared = .empty := by
  refine Alphabet.ext_mem fun c => iff_of_false ?_ (Alphabet.not_mem_empty c)
  intro hc
  obtain ⟨hused, hterminal, hnonTerminal⟩ := mem_undeclared.1 hc
  rw [mem_nonTerminals_declareAll, not_or] at hnonTerminal
  rcases mem_undeclared_of_mem_usedSymbols (g := g) hused with h | h | h
  · exact hterminal h
  · exact hnonTerminal.1 h
  · exact hnonTerminal.2 h

/-- The non-terminals do not decide what is explored. -/
theorem explore_declareAll (g : Grammar) (limits : Limits) (obs : Observer σ) (clock : Clock) :
    g.declareAll.explore limits obs clock = g.explore limits obs clock :=
  (InertChange.nonTerminals _).mirrors.explore_eq obs

/-! ## Recorded words -/

/-- **The undeclared symbols of a grammar are all that an exploration can meet.** Every symbol of a
recorded word is one of the start word or of a right side, and so a terminal, a non-terminal or
undeclared. If no symbol is undeclared, recorded words are made of the two alphabets, and those that
are not final have a non-terminal which is no terminal. When the undeclared symbols are declared as
non-terminals there are none any more, and the exploration is the same. -/
theorem explore_declared (g : Grammar) (limits : Limits) (obs : Observer σ) (clock : Clock) :
    (∀ w r, (g.explore limits obs clock).record? w = some r → ∀ c ∈ w,
      (c ∈ g.start ∨ ∃ rule ∈ g.rules, c ∈ rule.rhs) ∧
        (c ∈ g.terminals ∨ c ∈ g.nonTerminals ∨ c ∈ g.undeclared)) ∧
    (g.undeclared = .empty → ∀ w r, (g.explore limits obs clock).record? w = some r →
      (∀ c ∈ w, c ∈ g.terminals ∨ c ∈ g.nonTerminals) ∧
        (¬ g.isFinal w → ∃ c ∈ w, c ∈ g.nonTerminals ∧ c ∉ g.terminals)) ∧
    (∀ c, c ∈ g.declareAll.nonTerminals ↔ c ∈ g.nonTerminals ∨ c ∈ g.undeclared) ∧
    g.declareAll.undeclared = .empty ∧
    g.declareAll.explore limits obs clock = g.explore limits obs clock := by
  have hsymbols : ∀ w r, (g.explore limits obs clock).record? w = some r → ∀ c ∈ w,
      (c ∈ g.start ∨ ∃ rule ∈ g.rules, c ∈ rule.rhs) ∧
        (c ∈ g.terminals ∨ c ∈ g.nonTerminals ∨ c ∈ g.undeclared) := by
    intro w r hr c hc
    have horigin := symbol_of_mem_discoveries (exists_record?_explore_iff.1 ⟨r, hr⟩) hc
    exact ⟨horigin, mem_undeclared_of_mem_usedSymbols (mem_usedSymbols_of_start_or_rhs horigin)⟩
  refine ⟨hsymbols, ?_, fun c => mem_nonTerminals_declareAll, g.undeclared_declareAll,
    g.explore_declareAll limits obs clock⟩
  intro hempty w r hr
  have hdeclared : ∀ c ∈ w, c ∈ g.terminals ∨ c ∈ g.nonTerminals := by
    intro c hc
    have hsymbol := (hsymbols w r hr c hc).2
    rwa [hempty, or_iff_left (Alphabet.not_mem_empty c)] at hsymbol
  refine ⟨hdeclared, fun hfinal => ?_⟩
  obtain ⟨c, hc, hterminal⟩ := exists_notMem_terminals hfinal
  exact ⟨c, hc, (hdeclared c hc).resolve_left hterminal, hterminal⟩

/-- In the words from `S` the only symbol besides the terminals is the declared `S`. -/
theorem explore_rightLinear_declared :
    rightLinear.undeclared = .empty ∧ ¬ rightLinear.isFinal ['a', 'S'] ∧
      (rightLinear.explore (.depth 2) .recorder .still).record? ['a', 'S'] = some ⟨1, some ['S']⟩ ∧
      (∀ c ∈ ['a', 'S'], c ∈ rightLinear.terminals ∨ c ∈ rightLinear.nonTerminals) ∧
      ∃ c ∈ ['a', 'S'], c ∈ rightLinear.nonTerminals ∧ c ∉ rightLinear.terminals := by
  have hempty : rightLinear.undeclared = .empty := by decide
  have hfinal : ¬ rightLinear.isFinal ['a', 'S'] := by decide
  have hrecord : (rightLinear.explore (.depth 2) .recorder .still).record? ['a', 'S'] =
      some ⟨1, some ['S']⟩ :=
    record?_child (t := ⟨['S'], ['a', 'S'], 1⟩) (by simp [trace_rightLinear])
  obtain ⟨-, hdeclared, -⟩ := explore_declared rightLinear (.depth 2) .recorder .still
  obtain ⟨hsymbols, hnonTerminal⟩ := hdeclared hempty _ _ hrecord
  exact ⟨hempty, hfinal, hrecord, hsymbols, hnonTerminal hfinal⟩

end Grammar

end StringRewriting
