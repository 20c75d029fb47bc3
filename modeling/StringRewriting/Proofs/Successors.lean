import Mathlib.Data.List.Induction
import StringRewriting.Proofs.Rewriting

/-!
# The successors of a word

The rules are tried one after the other, those that do not apply left out, and a word that comes up
again is dropped. Leaving rules out makes no difference, so the successors are the results of all
rules in their order, each at the place where it comes up first.

* `pairwise_idxOf_eraseDups`: erasing repetitions leaves the first copies in their order.
* `applicable_eq_filter`, `successors_eq`: a rule that is left out has no results.
* `mem_successors`: a rule rewrites wherever its left side stands.
* `successors_first_seen`: members and order of the successors.
* `successors_commute`: rewriting at two places that do not overlap.
-/

namespace StringRewriting

universe u

/-! ## First copies -/

section EraseDups

variable {α : Type u} [BEq α] [LawfulBEq α]

theorem eraseDups_append_of_mem {l : List α} {a : α} (h : a ∈ l) :
    (l ++ [a]).eraseDups = l.eraseDups := by
  have hremove : [a].removeAll l = [] := by simp [List.removeAll, h]
  rw [List.eraseDups_append, hremove, List.eraseDups_nil, List.append_nil]

theorem eraseDups_append_of_notMem {l : List α} {a : α} (h : a ∉ l) :
    (l ++ [a]).eraseDups = l.eraseDups ++ [a] := by
  have hremove : [a].removeAll l = [a] := by simp [List.removeAll, h]
  rw [List.eraseDups_append, hremove]
  rfl

/-- Where repetitions are erased, what comes up first stands first. -/
theorem pairwise_idxOf_eraseDups (l : List α) :
    l.eraseDups.Pairwise fun a b => l.idxOf a < l.idxOf b := by
  -- the list grows at its end, where a new member comes up later than all others
  induction l using List.reverseRecOn with
  | nil => exact .nil
  | append_singleton l a ih =>
    have hold : ∀ b ∈ l.eraseDups, (l ++ [a]).idxOf b = l.idxOf b :=
      fun b hb => List.idxOf_append_of_mem (List.mem_eraseDups.1 hb)
    have hstay : l.eraseDups.Pairwise fun b b' => (l ++ [a]).idxOf b < (l ++ [a]).idxOf b' :=
      ih.imp_of_mem fun hb hb' h => by rwa [hold _ hb, hold _ hb']
    by_cases ha : a ∈ l
    · rwa [eraseDups_append_of_mem ha]
    · rw [eraseDups_append_of_notMem ha]
      refine List.pairwise_append.2 ⟨hstay, List.pairwise_singleton .., fun b hb b' hb' => ?_⟩
      obtain rfl := List.mem_singleton.1 hb'
      rw [hold b hb, List.idxOf_append_of_notMem ha]
      exact Nat.lt_add_right _ (List.idxOf_lt_length_of_mem (List.mem_eraseDups.1 hb))

theorem nodup_eraseDups (l : List α) : l.eraseDups.Nodup := by
  refine (pairwise_idxOf_eraseDups l).imp ?_
  rintro a _ h rfl
  exact Nat.lt_irrefl _ h

end EraseDups

/-! ## Leaving rules out -/

theorem Rule.rewrites_ne_nil_iff {r : Rule} {w : Word} :
    r.rewrites w ≠ [] ↔ ∃ u v, w = u ++ r.lhs ++ v := by
  constructor
  · intro h
    obtain ⟨w', hw'⟩ := List.exists_mem_of_ne_nil _ h
    obtain ⟨u, v, hw, -⟩ := Rule.mem_rewrites.1 hw'
    exact ⟨u, v, hw⟩
  · rintro ⟨u, v, hw⟩
    exact List.ne_nil_of_mem (Rule.mem_rewrites.2 ⟨u, v, hw, rfl⟩)

/-- The rules that apply are those with a result. -/
theorem applicable_eq_filter (rules : List Rule) (w : Word) :
    applicable rules w = rules.filter fun r => r.rewrites w ≠ [] := by
  refine List.filter_congr fun r _ => ?_
  rw [Bool.eq_iff_iff, decide_eq_true_iff, Rule.rewrites_ne_nil_iff, Word.containsFactor_iff]

theorem flatMap_rewrites_applicable (rules : List Rule) (w : Word) :
    (applicable rules w).flatMap (·.rewrites w) = rules.flatMap (·.rewrites w) := by
  rw [applicable_eq_filter]
  induction rules with
  | nil => rfl
  | cons r rules ih =>
    rw [List.flatMap_cons, ← ih]
    by_cases h : r.rewrites w = []
    · rw [List.filter_cons_of_neg (by simpa using h), h, List.nil_append]
    · rw [List.filter_cons_of_pos (by simpa using h), List.flatMap_cons]

/-- The successors are the results of all rules, each where it comes up first. -/
theorem successors_eq (rules : List Rule) (w : Word) :
    successors rules w = (rules.flatMap (·.rewrites w)).eraseDups := by
  rw [successors, flatMap_rewrites_applicable]

/-- **The successors of a word are the words one step away, in the order in which they come up.** No
word is there twice, and of two words the one stands first that is found first when the rules are
taken in their order and the results of each in theirs. The rules that are left out are those
without a result. -/
theorem successors_first_seen (rules : List Rule) (w : Word) :
    (∀ w', w' ∈ successors rules w ↔
      ∃ r ∈ rules, ∃ u v, w = u ++ r.lhs ++ v ∧ w' = u ++ r.rhs ++ v) ∧
    (successors rules w).Nodup ∧
    successors rules w = (rules.flatMap (·.rewrites w)).eraseDups ∧
    ((successors rules w).Pairwise fun v v' =>
      (rules.flatMap (·.rewrites w)).idxOf v < (rules.flatMap (·.rewrites w)).idxOf v') ∧
    applicable rules w = rules.filter fun r => r.rewrites w ≠ [] := by
  refine ⟨fun w' => mem_successors_iff_step, ?_, successors_eq rules w, ?_,
    applicable_eq_filter rules w⟩
  · rw [successors_eq]
    exact nodup_eraseDups _
  · rw [successors_eq]
    exact pairwise_idxOf_eraseDups _

/-! ## Two places in one word -/

/-- A rule rewrites wherever its left side stands, whatever else the word holds. -/
theorem mem_successors {rules : List Rule} {r : Rule} (h : r ∈ rules) (u v : Word) :
    u ++ r.rhs ++ v ∈ successors rules (u ++ r.lhs ++ v) :=
  mem_successors_iff_step.2 ⟨r, h, u, v, rfl, rfl⟩

/-- **Rewriting at two places that do not overlap commutes.** Each of the two steps is possible at
first, the other one is possible after it, and in either order they lead to the same word. -/
theorem successors_commute {rules : List Rule} {r s : Rule} (hr : r ∈ rules) (hs : s ∈ rules)
    (x y z : Word) :
    x ++ r.rhs ++ y ++ s.lhs ++ z ∈ successors rules (x ++ r.lhs ++ y ++ s.lhs ++ z) ∧
    x ++ r.lhs ++ y ++ s.rhs ++ z ∈ successors rules (x ++ r.lhs ++ y ++ s.lhs ++ z) ∧
    x ++ r.rhs ++ y ++ s.rhs ++ z ∈ successors rules (x ++ r.rhs ++ y ++ s.lhs ++ z) ∧
    x ++ r.rhs ++ y ++ s.rhs ++ z ∈ successors rules (x ++ r.lhs ++ y ++ s.rhs ++ z) := by
  have hleft : ∀ v, x ++ r.rhs ++ y ++ v ++ z ∈ successors rules (x ++ r.lhs ++ y ++ v ++ z) := by
    intro v
    simpa only [List.append_assoc] using mem_successors hr x (y ++ v ++ z)
  have hright : ∀ u, u ++ s.rhs ++ z ∈ successors rules (u ++ s.lhs ++ z) :=
    fun u => mem_successors hs u z
  exact ⟨hleft s.lhs, hright _, hright _, hleft s.rhs⟩

/-- A rule with a longer right side, which holds its left side's symbols and another one. -/
def Rule.growing : Rule := ⟨['a', 'a'], ['a', 'α', 'a'], by decide⟩

/-- A rule that erases a symbol of two bytes. -/
def Rule.erasing : Rule := ⟨['α'], [], by decide⟩

/-- Nothing stands between the two places, and there are more of both kinds around them. -/
theorem successors_commute_adjacent :
    Rule.growing ∈ [Rule.erasing, Rule.growing] ∧ Rule.erasing ∈ [Rule.erasing, Rule.growing] ∧
      ['a', 'a', 'α', 'a', 'α', 'α'] ∈
        successors [.erasing, .growing] ['a', 'a', 'a', 'α', 'α'] ∧
      ['a', 'a', 'a', 'α'] ∈ successors [.erasing, .growing] ['a', 'a', 'a', 'α', 'α'] ∧
      ['a', 'a', 'α', 'a', 'α'] ∈
        successors [.erasing, .growing] ['a', 'a', 'α', 'a', 'α', 'α'] ∧
      ['a', 'a', 'α', 'a', 'α'] ∈ successors [.erasing, .growing] ['a', 'a', 'a', 'α'] := by
  have hgrowing : Rule.growing ∈ [Rule.erasing, Rule.growing] := by simp
  have herasing : Rule.erasing ∈ [Rule.erasing, Rule.growing] := by simp
  exact ⟨hgrowing, herasing, successors_commute hgrowing herasing ['a'] [] ['α']⟩

end StringRewriting
