import StringRewriting.Alphabet
import StringRewriting.Grammar.Rule

/-!
# Grammars

A grammar is a start word, two alphabets and an ordered list of rules. The terminal alphabet decides
which words are final. The non-terminal alphabet only documents: a symbol in neither alphabet is
treated like a non-terminal, and `undeclared` collects these symbols.

* `ofPairs`: the grammar whose rules have given pairs of sides.
* `isFinal_iff`, `mem_undeclared`: membership in the two derived notions.
-/

namespace StringRewriting

/-- A string rewriting grammar. -/
structure Grammar where
  /-- The word every derivation begins with. -/
  start : Word
  /-- The symbols declared to be rewritten. -/
  nonTerminals : Alphabet
  /-- The symbols of the words that are results. -/
  terminals : Alphabet
  /-- The rules in the order in which they are tried. -/
  rules : List Rule
  deriving DecidableEq

namespace Grammar

/-- The grammar whose rules have the given pairs of sides, in this order. The first pair without a
left-hand side is the error. -/
def ofPairs (start nonTerminals terminals : Word) (pairs : List (Word × Word)) :
    Except GrammarError Grammar := do
  let rules ← pairs.mapM fun p => Rule.ofSides p.1 p.2
  return ⟨start, .ofSymbols nonTerminals, .ofSymbols terminals, rules⟩

/-- Whether all symbols of a word are terminals; the empty word is final. -/
def isFinal (g : Grammar) (w : Word) : Bool :=
  w.all (· ∈ g.terminals)

theorem isFinal_iff {g : Grammar} {w : Word} : g.isFinal w ↔ ∀ c ∈ w, c ∈ g.terminals := by
  simp [isFinal]

/-- The symbols of the start word and of both sides of all rules. -/
def usedSymbols (g : Grammar) : Word :=
  g.start ++ g.rules.flatMap fun r => r.lhs ++ r.rhs

/-- The symbols in use that belong to neither alphabet. -/
def undeclared (g : Grammar) : Alphabet :=
  .ofSymbols (g.usedSymbols.filter fun c => c ∉ g.terminals ∧ c ∉ g.nonTerminals)

theorem mem_undeclared {g : Grammar} {c : Symbol} :
    c ∈ g.undeclared ↔ c ∈ g.usedSymbols ∧ c ∉ g.terminals ∧ c ∉ g.nonTerminals := by
  simp [undeclared]

end Grammar

end StringRewriting
