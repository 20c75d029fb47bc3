import Mathlib.Logic.Equiv.Basic
import StringRewriting.Proofs.Exploration.Lockstep
import StringRewriting.Proofs.Successors

/-!
# Renaming symbols

Symbols are compared with each other and with nothing else. So a grammar whose symbols are renamed,
no two to the same one, is explored like the grammar itself, even if symbols of other widths take
the place of the old ones and every byte offset changes.

* `Word.factorisations_map`, `Rule.rewrites_rename`: occurrences and rewriting.
* `successors_rename`: the successors of a renamed word.
* `Grammar.explore_rename`: explorations of renamed grammars.
-/

namespace StringRewriting

universe u v

variable {f : Symbol → Symbol}

/-! ## Lists -/

/-- Repetitions are the same after an injective map. -/
theorem eraseDups_map {α : Type u} {β : Type v} [BEq α] [LawfulBEq α] [BEq β] [LawfulBEq β]
    {φ : α → β} (hφ : Function.Injective φ) (l : List α) :
    (l.map φ).eraseDups = l.eraseDups.map φ := by
  induction l using List.reverseRecOn with
  | nil => rfl
  | append_singleton l a ih =>
    rw [List.map_append, List.map_singleton]
    by_cases ha : a ∈ l
    · rw [eraseDups_append_of_mem (List.mem_map_of_mem ha), eraseDups_append_of_mem ha, ih]
    · have hφa : φ a ∉ l.map φ := by rwa [List.mem_map_of_injective hφ]
      rw [eraseDups_append_of_notMem hφa, eraseDups_append_of_notMem ha, ih, List.map_append,
        List.map_singleton]

/-! ## Words and rules -/

namespace Word

theorem isPrefixOf_map (hf : Function.Injective f) (p w : Word) :
    (p.map f).isPrefixOf (w.map f) = p.isPrefixOf w := by
  rw [Bool.eq_iff_iff, List.isPrefixOf_iff_prefix, List.isPrefixOf_iff_prefix, List.prefix_map_iff]
  constructor
  · rintro ⟨l, hl, h⟩
    rwa [List.map_injective_iff.2 hf h]
  · intro h
    exact ⟨p, h, rfl⟩

/-- A renamed word factors where the word does. -/
theorem factorisations_map (hf : Function.Injective f) (p w : Word) :
    factorisations (p.map f) (w.map f) =
      (factorisations p w).map (Prod.map (List.map f) (List.map f)) := by
  induction w with
  | nil => cases p <;> rfl
  | cons c w ih =>
    have hlater : ((factorisations (p.map f) (w.map f)).map fun x => (f c :: x.1, x.2)) =
        ((factorisations p w).map fun x => (c :: x.1, x.2)).map
          (Prod.map (List.map f) (List.map f)) := by
      rw [ih, List.map_map, List.map_map]
      rfl
    have hprefix := isPrefixOf_map hf p (c :: w)
    rw [List.map_cons] at hprefix ⊢
    rw [factorisations, factorisations, hprefix, hlater]
    split
    · simp [List.map_drop]
    · rfl

end Word

/-- A rule with both sides renamed. -/
def Rule.rename (f : Symbol → Symbol) (r : Rule) : Rule :=
  ⟨r.lhs.map f, r.rhs.map f, by simpa using r.lhs_ne_nil⟩

theorem Rule.rewrites_rename (hf : Function.Injective f) (r : Rule) (w : Word) :
    (r.rename f).rewrites (w.map f) = (r.rewrites w).map (List.map f) := by
  rw [Rule.rewrites_eq, Rule.rewrites_eq, Rule.rename, Word.factorisations_map hf, List.map_map,
    List.map_map]
  congr 1
  funext x
  simp

/-- **The successors of a renamed word are the renamed successors, in the same order.** -/
theorem successors_rename (hf : Function.Injective f) (rules : List Rule) (w : Word) :
    successors (rules.map (Rule.rename f)) (w.map f) = (successors rules w).map (List.map f) := by
  have hrewrites : (rules.map (Rule.rename f)).flatMap (·.rewrites (w.map f)) =
      (rules.flatMap (·.rewrites w)).map (List.map f) := by
    rw [List.flatMap_map, List.map_flatMap]
    congr 1
    funext r
    exact Rule.rewrites_rename hf r w
  rw [successors_eq, successors_eq, hrewrites, eraseDups_map (List.map_injective_iff.2 hf)]

/-! ## Grammars -/

namespace Grammar

variable {σ : Type u}

/-- A grammar with the symbols of its start word, its terminals and its rules renamed. The
non-terminals only document, so they may be any. -/
def rename (f : Symbol → Symbol) (nonTerminals : Alphabet) (g : Grammar) : Grammar :=
  ⟨g.start.map f, nonTerminals, .ofSymbols (g.terminals.toWord.map f), g.rules.map (Rule.rename f)⟩

theorem isFinal_rename (hf : Function.Injective f) (nonTerminals : Alphabet) (g : Grammar)
    (w : Word) :
    (g.rename f nonTerminals).isFinal (w.map f) = g.isFinal w := by
  have hmem : ∀ c, f c ∈ (g.rename f nonTerminals).terminals ↔ c ∈ g.terminals := by
    intro c
    rw [rename, Alphabet.mem_ofSymbols, List.mem_map_of_injective hf]
    rfl
  rw [Bool.eq_iff_iff, isFinal_iff, isFinal_iff, List.forall_mem_map]
  exact forall₂_congr fun c _ => hmem c

/-- A renamed grammar does with renamed words what the grammar does with the words. -/
theorem mirrors_rename (hf : Function.Injective f) (nonTerminals : Alphabet) (g : Grammar)
    (limits : Limits) (clock : Clock) :
    (g.rename f nonTerminals).Mirrors g (List.map f) limits clock where
  injective := List.map_injective_iff.2 hf
  start := rfl
  isFinal w _ := isFinal_rename hf nonTerminals g w
  successors w _ _ := successors_rename hf g.rules w

/-- **An exploration does not depend on what the symbols are.** The exploration of a renamed grammar
ends for the same reason as that of the grammar, and its trace, its results, its records and its
derivations are the renamed ones, in the same order. -/
theorem explore_rename (g : Grammar) (f : Symbol → Symbol) (hf : Function.Injective f)
    (nonTerminals : Alphabet) (limits : Limits) (obs : Observer σ) (clock clock' : Clock)
    (hclock : g.SameTime (g.rename f nonTerminals) limits clock clock') :
    ((g.rename f nonTerminals).explore limits obs clock').halt = (g.explore limits obs clock).halt ∧
    ((g.rename f nonTerminals).explore limits obs clock').discovered =
      (g.explore limits obs clock).discovered ∧
    (g.rename f nonTerminals).trace limits clock' =
      (g.trace limits clock).map (Transition.mapWords (List.map f)) ∧
    ((g.rename f nonTerminals).explore limits obs clock').observed =
      ((g.trace limits clock).map (Transition.mapWords (List.map f))).foldl obs.notify obs.initial ∧
    ((g.rename f nonTerminals).explore limits obs clock').words =
      (g.explore limits obs clock).words.map (List.map f) ∧
    (∀ v r', ((g.rename f nonTerminals).explore limits obs clock').record? v = some r' ↔
      ∃ w r, (g.explore limits obs clock).record? w = some r ∧ v = w.map f ∧
        r' = r.mapWords (List.map f)) ∧
    (∀ w, ((g.rename f nonTerminals).explore limits obs clock').derivation? (w.map f) =
      ((g.explore limits obs clock).derivation? w).map (List.map (List.map f))) := by
  have hmirrors := mirrors_rename hf nonTerminals g limits clock
  obtain ⟨htrace, hhalt⟩ := hmirrors.trace_and_halt
  rw [explore_eq_of_sameTime hclock hhalt, trace_eq_of_sameTime hclock hhalt]
  refine ⟨hmirrors.halt obs, ?_, htrace, ?_, hmirrors.words obs, ?_, hmirrors.derivation? obs⟩
  · rw [discovered_explore, discovered_explore, hmirrors.discoveries, List.length_map]
  · rw [observed_explore, htrace]
  · intro v r'
    exact hmirrors.record?_eq_some_iff obs

/-- A letter of two bytes takes the place of one of a single byte. -/
theorem explore_rightLinear_rename :
    Function.Injective (Equiv.swap 'a' 'α') ∧
      (rightLinear.rename (Equiv.swap 'a' 'α') (.ofSymbols ['S'])).trace (.depth 2) .still =
        [⟨['S'], ['α', 'S'], 1⟩, ⟨['S'], ['b'], 1⟩, ⟨['α', 'S'], ['α', 'α', 'S'], 2⟩,
          ⟨['α', 'S'], ['α', 'b'], 2⟩] := by
  have hf : Function.Injective (Equiv.swap 'a' 'α') := Equiv.injective _
  obtain ⟨-, -, hrenamed, -⟩ := explore_rename rightLinear (Equiv.swap 'a' 'α') hf
    (.ofSymbols ['S']) (.depth 2) .recorder .still .still (.inl rfl)
  exact ⟨hf, by rw [hrenamed, trace_rightLinear]; decide +kernel⟩

end Grammar

end StringRewriting
