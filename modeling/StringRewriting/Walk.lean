import StringRewriting.Rewriting

/-!
# Walks

A walk rewrites a word step by step, each time taking the successor that a number chooses. It ends
early at a word without successors.

* `follow`: the words that a walk meets and the word at which it ends.
-/

namespace StringRewriting.Walk

/-- A word on a walk and its successors. -/
structure Visit where
  /-- The word. -/
  word : Word
  /-- The words one step away from it. -/
  successors : List Word
  deriving DecidableEq, Repr

/-- The visits of a walk, one for every choice up to the first word without successors, and the word
at which the walk ends. A choice counts the successors from zero and begins anew behind the last. -/
def follow (rules : List Rule) (w : Word) : List Nat → List Visit × Word
  | [] => ([], w)
  | k :: ks =>
    let ws := StringRewriting.successors rules w
    match ws[k % ws.length]? with
    | none => ([⟨w, ws⟩], w)
    | some w' =>
      let rest := follow rules w' ks
      (⟨w, ws⟩ :: rest.1, rest.2)

end StringRewriting.Walk
