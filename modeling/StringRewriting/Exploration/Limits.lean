/-!
# Limits of an exploration

An exploration is bounded in depth, and it may be bounded in the number of words it records and in
the time it takes. `Halt` is the bound at which it stopped; only the depth bound and the exhaustion
of all words leave nothing out.
-/

namespace StringRewriting

/-- How far an exploration may go. -/
structure Limits where
  /-- The greatest number of rewriting steps from the start word. -/
  maxDepth : Nat
  /-- The number of recorded words from which no further one is recorded. -/
  maxWords : Option Nat
  /-- The number of milliseconds from which no further word is expanded. -/
  timeout : Option Nat
  deriving DecidableEq, Repr

namespace Limits

/-- A bound in depth alone. -/
def depth (maxDepth : Nat) : Limits := ⟨maxDepth, none, none⟩

/-- The same limits with this bound in the number of words. -/
def withMaxWords (l : Limits) (n : Nat) : Limits := { l with maxWords := some n }

/-- The same limits with this bound in time. -/
def withTimeout (l : Limits) (ms : Nat) : Limits := { l with timeout := some ms }

/-- Whether a number of recorded words admits no further one. -/
def refusesWord (l : Limits) (recorded : Nat) : Bool := l.maxWords.any (· ≤ recorded)

/-- Whether the time is over. -/
def isTimeOver (l : Limits) (elapsed : Nat) : Bool := l.timeout.any (· ≤ elapsed)

end Limits

/-- Why an exploration came to its end. -/
inductive Halt where
  /-- Every recorded word that is not final was expanded. -/
  | exhausted
  /-- The words that are left lie at the greatest depth. -/
  | depthBound
  /-- A further word would have been one too many. -/
  | wordLimit
  /-- The time was over. -/
  | timeout
  deriving DecidableEq, Repr

namespace Halt

/-- Whether every word within the depth bound was recorded. -/
def isComplete : Halt → Bool
  | .exhausted | .depthBound => true
  | .wordLimit | .timeout => false

/-- The wording of a reason. -/
def message : Halt → String
  | .exhausted => "no words left to expand"
  | .depthBound => "reached maximum depth"
  | .wordLimit => "reached word limit"
  | .timeout => "timed out"

end Halt

end StringRewriting
