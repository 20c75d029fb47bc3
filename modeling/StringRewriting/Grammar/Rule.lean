import StringRewriting.Grammar.Error

/-!
# Rewriting rules

A rule replaces one occurrence of its left-hand side, which is never empty, by its right-hand side,
which may be.

* `Rule.ofSides_eq_ok_iff`, `Rule.ofSides_nil`: two words make a rule exactly when the first is not
  empty.
-/

namespace StringRewriting

/-- A rule that rewrites an occurrence of `lhs` into `rhs`. -/
structure Rule where
  /-- The word that is replaced. -/
  lhs : Word
  /-- The word it is replaced by. -/
  rhs : Word
  /-- There is something to replace. -/
  lhs_ne_nil : lhs ≠ []
  deriving DecidableEq

namespace Rule

/-- The rule with these sides, refused if the left one is empty. -/
def ofSides (lhs rhs : Word) : Except GrammarError Rule :=
  if h : lhs = [] then .error (.emptyLeft rhs) else .ok ⟨lhs, rhs, h⟩

@[simp] theorem ofSides_nil (rhs : Word) : ofSides [] rhs = .error (.emptyLeft rhs) := rfl

theorem ofSides_eq_ok_iff {lhs rhs : Word} {r : Rule} :
    ofSides lhs rhs = .ok r ↔ r.lhs = lhs ∧ r.rhs = rhs := by
  unfold ofSides
  split
  · next h => exact iff_of_false nofun fun hr => r.lhs_ne_nil (hr.1.trans h)
  · constructor
    · rintro ⟨⟩
      exact ⟨rfl, rfl⟩
    · rintro ⟨rfl, rfl⟩
      rfl

/-- A rule as it is written, both sides around the sign between them. -/
def render (r : Rule) : Text :=
  r.lhs ++ '=' :: r.rhs

end Rule

end StringRewriting
