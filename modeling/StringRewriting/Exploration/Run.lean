import StringRewriting.Exploration.State

/-!
# Whole explorations

An exploration is repeated steps from the start word. What the clock shows at the steps is an
argument; without a bound in time it does not matter.

* `Grammar.explore`: the exploration of a grammar under limits, with an observer.
* `Grammar.generate`: the final words within a depth bound.
-/

namespace StringRewriting

universe u

/-- The milliseconds that have passed at each look at a clock. -/
abbrev Clock := Nat → Nat

/-- The clock on which no time passes. -/
def Clock.still : Clock := fun _ => 0

namespace State

variable {σ : Type u}

/-- Repeated steps until the end, the `looks`-th look at the clock being the next. -/
def run (g : Grammar) (limits : Limits) (obs : Observer σ) (clock : Clock) (looks : Nat)
    (s : State σ) : Halt × State σ :=
  match h : s.step g limits obs (clock looks) with
  | .ended reason s' => (reason, s')
  | .continued s' =>
    have := workload_lt_of_step h
    s'.run g limits obs clock (looks + 1)
termination_by s.workload g limits

/-- What an exploration found when it ended in a state. -/
def outcome (g : Grammar) (reason : Halt) (s : State σ) : Exploration σ :=
  ⟨g.start, s.finals.toList, s.records, reason, s.observed⟩

end State

namespace Grammar

variable {σ : Type u}

/-- The breadth first exploration of a grammar. -/
def explore (g : Grammar) (limits : Limits) (obs : Observer σ) (clock : Clock) : Exploration σ :=
  let (reason, s) := (State.initial g obs).run g limits obs clock 0
  s.outcome g reason

/-- The final words at most `maxDepth` steps away from the start word, in the order of their
discovery. -/
def generate (g : Grammar) (maxDepth : Nat) : List Word :=
  (g.explore (.depth maxDepth) .silent .still).words

/-- The same words together with what an observer makes of the exploration. -/
def generateWith (g : Grammar) (maxDepth : Nat) (obs : Observer σ) : List Word × σ :=
  let e := g.explore (.depth maxDepth) obs .still
  (e.words, e.observed)

end Grammar

end StringRewriting
