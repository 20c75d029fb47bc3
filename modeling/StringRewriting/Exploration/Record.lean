import Std.Data.HashMap
import StringRewriting.Exploration.Limits
import StringRewriting.Text.Lines
import StringRewriting.Word

/-!
# What an exploration finds

Every word that is reached is recorded once, with its depth and the word from which it was reached
first. Following these parents back to the start word gives the derivation of a word.

* `Records.ancestry?`: parents are followed only to smaller depths, which is how they were recorded,
  so the way back ends.
-/

namespace StringRewriting

universe u

/-- How a word was reached first. -/
structure Record where
  /-- The number of rewriting steps from the start word. -/
  depth : Nat
  /-- The word one step before it; only the start word has none. -/
  parent : Option Word
  deriving DecidableEq, Repr

/-- A word that was recorded, with the word from which it was reached. -/
structure Transition where
  /-- The word that was expanded. -/
  parent : Word
  /-- The word that was new. -/
  child : Word
  /-- The depth of the new word. -/
  depth : Nat
  deriving DecidableEq, Repr

/-- A new word as it is shown in a trace. -/
def Transition.render (t : Transition) : Text :=
  t.parent ++ " -> ".toList ++ t.child

/-- The records of words. -/
abbrev Records := Std.HashMap Word Record

/-- The chain from the start word to the parent of a record, in front of `tail`. -/
def Records.ancestry? (rs : Records) (r : Record) (tail : List Word) : Option (List Word) :=
  match r.parent with
  | none => some tail
  | some p =>
    match rs[p]? with
    | none => none
    | some r' => if r'.depth < r.depth then ancestry? rs r' (p :: tail) else none
termination_by r.depth

/-- The outcome of an exploration, with what an observer made of it. -/
structure Exploration (σ : Type u) where
  /-- The word from which all others were reached. -/
  start : Word
  /-- The final words in the order in which they were recorded. -/
  words : List Word
  /-- The records of all words, final or not. -/
  records : Records
  /-- Why the exploration ended. -/
  halt : Halt
  /-- What the observer has made of the recorded words. -/
  observed : σ

namespace Exploration

variable {σ : Type u}

/-- The number of recorded words. -/
def discovered (e : Exploration σ) : Nat := e.records.size

/-- How a word was reached first, if it was. -/
def record? (e : Exploration σ) (w : Word) : Option Record := e.records[w]?

/-- The depth of a word, if it was reached. -/
def depth? (e : Exploration σ) (w : Word) : Option Nat := (e.record? w).map (·.depth)

/-- The chain of words from the start word to a word, each the parent of the next. -/
def derivation? (e : Exploration σ) (w : Word) : Option (List Word) := do
  let r ← e.record? w
  e.records.ancestry? r [w]

end Exploration

end StringRewriting
