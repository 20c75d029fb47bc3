import StringRewriting.Exploration.Run

/-!
# Observers only watch

What an observer makes of the transitions never decides how an exploration goes on. So one run, that
of the recorder who keeps all transitions, shows the runs of all observers.

* `Observer.view`: what an observer makes of recorded transitions.
* `State.step_watch`, `State.run_watch`: a step and a run commute with the view.
* `Grammar.explore_eq_watch`: an exploration is the recorded one, seen by the observer.
-/

namespace StringRewriting

universe u

variable {σ : Type u}

namespace Observer

/-- What an observer makes of transitions given one after the other. -/
def view (obs : Observer σ) (ts : Array Transition) : σ :=
  ts.toList.foldl obs.notify obs.initial

theorem view_push (obs : Observer σ) (ts : Array Transition) (t : Transition) :
    obs.view (ts.push t) = obs.notify (obs.view ts) t := by
  simp [view]

end Observer

namespace State

/-- The state of a recorded exploration as an observer has it. -/
def watch (obs : Observer σ) (s : State (Array Transition)) : State σ :=
  ⟨s.frontier, s.records, s.finals, obs.view s.observed⟩

variable (obs : Observer σ)

@[simp] theorem watch_frontier (s : State (Array Transition)) :
    (s.watch obs).frontier = s.frontier := rfl

@[simp] theorem watch_records (s : State (Array Transition)) :
    (s.watch obs).records = s.records := rfl

end State

/-- What a step of a recorded exploration leads to, as an observer has it. -/
def Progress.watch (obs : Observer σ) : Progress (Array Transition) → Progress σ
  | .continued s => .continued (s.watch obs)
  | .ended reason s => .ended reason (s.watch obs)

/-- The outcome of a recorded exploration as an observer has it. -/
def Exploration.watch (obs : Observer σ) (e : Exploration (Array Transition)) : Exploration σ :=
  ⟨e.start, e.words, e.records, e.halt, obs.view e.observed⟩

namespace State

variable (g : Grammar) (limits : Limits) (obs : Observer σ)

theorem classify_watch (w : Word) (depth : Nat) (s : State (Array Transition)) :
    (s.watch obs).classify g w depth = (s.classify g w depth).watch obs := by
  unfold classify
  split <;> rfl

theorem initial_watch : initial g obs = (initial g .recorder).watch obs := by
  rw [initial, initial, ← classify_watch]
  rfl

theorem discover_watch (t : Transition) (s : State (Array Transition)) :
    (s.watch obs).discover g obs t = (s.discover g .recorder t).watch obs := by
  rw [discover, discover, ← classify_watch]
  simp only [watch, Observer.recorder, Observer.view_push]

theorem expand_watch (parent : Word) (depth : Nat) (ws : List Word)
    (s : State (Array Transition)) :
    expand g limits obs parent depth ws (s.watch obs) =
      (expand g limits .recorder parent depth ws s).watch obs := by
  induction ws generalizing s with
  | nil => rfl
  | cons w ws ih =>
    rw [expand, expand, watch_records]
    split
    · exact ih s
    · split
      · rfl
      · rw [discover_watch, ih]

/-- A step commutes with the view of an observer. -/
theorem step_watch (elapsed : Nat) (s : State (Array Transition)) :
    (s.watch obs).step g limits obs elapsed = (s.step g limits .recorder elapsed).watch obs := by
  rw [step, step, watch_frontier]
  cases s.frontier.pop? with
  | none => rfl
  | some next =>
    obtain ⟨⟨w, depth⟩, frontier⟩ := next
    simp only
    split
    · rfl
    · split
      · rfl
      · exact expand_watch g limits obs w (depth + 1) _ { s with frontier }

variable {g limits obs}

theorem run_of_ended {clock : Clock} {n : Nat} {s s' : State σ} {reason : Halt}
    (h : s.step g limits obs (clock n) = .ended reason s') :
    s.run g limits obs clock n = (reason, s') := by
  rw [run]
  split <;> simp_all

theorem run_of_continued {clock : Clock} {n : Nat} {s s' : State σ}
    (h : s.step g limits obs (clock n) = .continued s') :
    s.run g limits obs clock n = s'.run g limits obs clock (n + 1) := by
  rw [run]
  split <;> simp_all

/-- A run commutes with the view of an observer. -/
theorem run_watch (clock : Clock) (n : Nat) (s : State (Array Transition)) :
    (s.watch obs).run g limits obs clock n =
      ((s.run g limits .recorder clock n).1, (s.run g limits .recorder clock n).2.watch obs) := by
  fun_induction State.run g limits .recorder clock n s with
  | case1 n s reason s' h =>
    rw [run_of_ended (by rw [step_watch, h]; rfl)]
  | case2 n s s' h _ ih =>
    rw [run_of_continued (by rw [step_watch, h]; rfl), ih]

end State

/-- **An exploration is the recorded one, seen by its observer.** -/
theorem Grammar.explore_eq_watch (g : Grammar) (limits : Limits) (obs : Observer σ)
    (clock : Clock) :
    g.explore limits obs clock = (g.explore limits .recorder clock).watch obs := by
  rw [explore, State.initial_watch, State.run_watch]
  rfl

end StringRewriting
