import Mathlib.Data.List.Basic
import StringRewriting.Proofs.Occurrence
import StringRewriting.Rewriting

/-!
# Rewriting steps

One word leads to another in one step if the first factors around the left side of a rule and the
second has the right side in its place. The successors of a word are exactly the words to which it
leads.

* `Rule.rewrites_eq`: a rule rewrites every factorisation of a word, in their order.
* `Rewriting.applySides_replaces`: so do two words that would make a rule, and no others.
* `mem_successors_iff_step`: the successors are the words one step away.
* `Rewriting.Chain`: several steps, from words with a given property.
-/

namespace StringRewriting

/-- One use of a rule at one occurrence leads from the first word to the second. -/
def Rewriting.Step (rules : List Rule) (w w' : Word) : Prop :=
  ∃ r ∈ rules, ∃ u v, w = u ++ r.lhs ++ v ∧ w' = u ++ r.rhs ++ v

/-- A cursor before all occurrences gives one replacement for every factorisation. -/
theorem Rewriting.replacements_eq {c : Cursor} (h : c.index = 0) (rhs : Word) :
    replacements c rhs =
      (Word.factorisations c.pattern c.input).map fun f => f.1 ++ rhs ++ f.2 := by
  rw [replacements, c.offsets_eq_occurrences h, Word.occurrences, List.filterMap_map,
    List.filterMap_eq_map_iff_forall_eq_some]
  intro f hf
  have hw : c.input = f.1 ++ c.pattern ++ f.2 := Word.mem_factorisations.1 hf
  rw [Function.comp_apply, hw, Word.replaceAt?_append]

theorem Rule.rewrites_eq (r : Rule) (w : Word) :
    r.rewrites w = (Word.factorisations r.lhs w).map fun f => f.1 ++ r.rhs ++ f.2 :=
  Rewriting.replacements_eq rfl r.rhs

theorem Rule.mem_rewrites {r : Rule} {w w' : Word} :
    w' ∈ r.rewrites w ↔ ∃ u v, w = u ++ r.lhs ++ v ∧ w' = u ++ r.rhs ++ v := by
  simp only [Rule.rewrites_eq, List.mem_map, Prod.exists, Word.mem_factorisations, eq_comm]

theorem Rewriting.applySides_lhs_rhs (w : Word) (r : Rule) :
    applySides w r.lhs r.rhs = .ok (r.rewrites w) := by
  rw [applySides, Cursor.start?, dif_neg r.lhs_ne_nil, Rule.rewrites]

/-- **Every occurrence is replaced once, in the word as it was.** Two words that make a rule rewrite
a word as the rule does: the results belong to the factorisations of the word around the left side,
all of them, those with the shorter first part first. An empty left side is refused for every word,
with the right side in the error. -/
theorem Rewriting.applySides_replaces (w : Word) :
    (∀ r : Rule, applySides w r.lhs r.rhs = .ok (r.rewrites w) ∧
      r.rewrites w = (Word.factorisations r.lhs w).map (fun f => f.1 ++ r.rhs ++ f.2) ∧
      (∀ u v, (u, v) ∈ Word.factorisations r.lhs w ↔ w = u ++ r.lhs ++ v) ∧
      (Word.factorisations r.lhs w).Pairwise fun f f' => f.1.length < f'.1.length) ∧
    ∀ rhs, applySides w [] rhs = .error (.emptyLeft rhs) := by
  constructor
  · intro r
    refine ⟨applySides_lhs_rhs w r, r.rewrites_eq w, fun u v => Word.mem_factorisations,
      (Word.pairwise_factorisations r.lhs w).imp ?_⟩
    rintro f f' ⟨d, t, h⟩
    rw [h, List.length_append, List.length_cons]
    omega
  · exact fun rhs => rfl

/-- The successors of a word are the words to which it leads in one step. -/
theorem mem_successors_iff_step {rules : List Rule} {w w' : Word} :
    w' ∈ successors rules w ↔ Rewriting.Step rules w w' := by
  simp only [successors, List.mem_eraseDups, List.mem_flatMap, mem_applicable, Rule.mem_rewrites]
  constructor
  · rintro ⟨r, ⟨hr, -⟩, u, v, hw, hw'⟩
    exact ⟨r, hr, u, v, hw, hw'⟩
  · rintro ⟨r, hr, u, v, hw, hw'⟩
    exact ⟨r, ⟨hr, u, v, hw⟩, u, v, hw, hw'⟩

/-! ## Chains -/

namespace Rewriting

/-- A number of steps leads from `v` to a word, each of them from a word with the property `p`. -/
inductive Chain (rules : List Rule) (p : Word → Prop) (v : Word) : Nat → Word → Prop
  | refl : Chain rules p v 0 v
  | step {n : Nat} {w w' : Word} (h : Chain rules p v n w) (hw : p w) (hstep : Step rules w w') :
      Chain rules p v (n + 1) w'

/-- A property of all words with a step holds on every chain. -/
theorem Chain.imp {rules : List Rule} {p q : Word → Prop} {v w : Word} {n : Nat}
    (hpq : ∀ w w', Step rules w w' → p w → q w) (h : Chain rules p v n w) :
    Chain rules q v n w := by
  induction h with
  | refl => exact .refl
  | step _ hw hstep ih => exact .step ih (hpq _ _ hstep hw) hstep

end Rewriting

end StringRewriting
