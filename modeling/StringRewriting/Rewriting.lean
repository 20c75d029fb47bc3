import StringRewriting.Grammar.Rule
import StringRewriting.Occurrence

/-!
# One rewriting step

A rule rewrites one occurrence of its left side at a time, each in the word as it was, so a word has
one result for every occurrence. The successors of a word under a list of rules are the results of
all rules, each once, at the place where it comes first.

* `Word.replaceAt?_append`: what is replaced is the middle of a factorisation.
* `mem_applicable`: the rules that apply are those whose left side is a factor.
-/

namespace StringRewriting

/-- The word with the `n` bytes from byte offset `pos` on replaced by `rhs`, unless one of the two
ends of the replaced block lies inside a symbol or behind the end. -/
def Word.replaceAt? (w : Word) (pos n : Nat) (rhs : Word) : Option Word := do
  let (before, rest) ← w.splitAtByte? pos
  let (_, after) ← rest.splitAtByte? n
  return before ++ rhs ++ after

theorem Word.replaceAt?_append (u p v rhs : Word) :
    (u ++ p ++ v).replaceAt? u.utf8Size p.utf8Size rhs = some (u ++ rhs ++ v) := by
  simp [Word.replaceAt?, Word.splitAtByte?_append]

namespace Rewriting

/-- The words that come from a word by replacing the pattern at each occurrence that a cursor on it
has left. -/
def replacements (c : Cursor) (rhs : Word) : List Word :=
  c.offsets.filterMap fun pos => c.input.replaceAt? pos c.pattern.utf8Size rhs

/-- The words that come from a word by replacing one occurrence of `lhs` by `rhs`, in the order of
the occurrences. An empty `lhs` is refused. -/
def applySides (w lhs rhs : Word) : Except GrammarError (List Word) :=
  match Cursor.start? w lhs with
  | none => .error (.emptyLeft rhs)
  | some c => .ok (replacements c rhs)

end Rewriting

/-- The words that come from a word by one use of a rule, in the order of the occurrences. -/
def Rule.rewrites (r : Rule) (w : Word) : List Word :=
  Rewriting.replacements ⟨w, r.lhs, r.lhs_ne_nil, 0⟩ r.rhs

/-- The rules whose left side is a factor of a word, in their order. -/
def applicable (rules : List Rule) (w : Word) : List Rule :=
  rules.filter fun r => r.lhs.containsFactor w

theorem mem_applicable {rules : List Rule} {w : Word} {r : Rule} :
    r ∈ applicable rules w ↔ r ∈ rules ∧ ∃ u v, w = u ++ r.lhs ++ v := by
  rw [applicable, List.mem_filter, Word.containsFactor_iff]

/-- The words one step away from a word, each at the place where it comes first. -/
def successors (rules : List Rule) (w : Word) : List Word :=
  ((applicable rules w).flatMap (·.rewrites w)).eraseDups

end StringRewriting
