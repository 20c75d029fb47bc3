import StringRewriting.Exploration.Record
import StringRewriting.Grammar.Basic
import StringRewriting.Queue
import StringRewriting.Rewriting

/-!
# Exploration, step by step

The words of a grammar are explored breadth first. The frontier holds the recorded words that are
not final and not yet expanded, the earliest first, each with its depth. A step takes the first of
them and records its unseen successors: a final one joins the results, any other one the end of the
frontier.

* `State.step`: one step, given the time that has passed; it halts when the frontier is empty, when
  its first word is too deep, when the time is over, or when a further word would be one too many.
* `State.workload_lt_of_step`: a step makes the workload smaller, that is the number of chains of
  steps which start in the frontier and respect the depth bound.
-/

namespace StringRewriting

universe u

/-- One who is told of every recorded word but the start word, and what is made of it. -/
structure Observer (σ : Type u) where
  /-- What is there before the first transition. -/
  initial : σ
  /-- What a transition changes. -/
  notify : σ → Transition → σ

namespace Observer

/-- The observer who notes nothing. -/
def silent : Observer Unit := ⟨(), fun _ _ => ()⟩

/-- The observer who keeps all transitions in order. -/
def recorder : Observer (Array Transition) := ⟨#[], Array.push⟩

end Observer

/-- Where an exploration stands between two steps. -/
structure State (σ : Type u) where
  /-- The words to be expanded, with their depths. -/
  frontier : Queue (Word × Nat)
  /-- The records so far. -/
  records : Records
  /-- The final words so far. -/
  finals : Array Word
  /-- What the observer has made of it so far. -/
  observed : σ

/-- What a step leads to. -/
inductive Progress (σ : Type u) where
  /-- The exploration goes on. -/
  | continued (state : State σ)
  /-- The exploration has ended. -/
  | ended (reason : Halt) (state : State σ)

namespace State

variable {σ : Type u}

/-! ## Recording words -/

/-- Puts a recorded word among the results if it is final, else at the end of the frontier. -/
def classify (g : Grammar) (w : Word) (depth : Nat) (s : State σ) : State σ :=
  if g.isFinal w then { s with finals := s.finals.push w }
  else { s with frontier := s.frontier.push (w, depth) }

/-- The state in which only the start word is recorded. -/
def initial (g : Grammar) (obs : Observer σ) : State σ :=
  classify g g.start 0
    { frontier := .empty
      records := Std.HashMap.emptyWithCapacity.insert g.start ⟨0, none⟩
      finals := #[]
      observed := obs.initial }

/-- Records a new word and tells the observer. -/
def discover (g : Grammar) (obs : Observer σ) (t : Transition) (s : State σ) : State σ :=
  classify g t.child t.depth
    { s with
      records := s.records.insert t.child ⟨t.depth, some t.parent⟩
      observed := obs.notify s.observed t }

/-- Records the unseen ones of some successors of `parent`, one after the other, unless a further
word would be one too many. -/
def expand (g : Grammar) (limits : Limits) (obs : Observer σ) (parent : Word) (depth : Nat) :
    List Word → State σ → Progress σ
  | [], s => .continued s
  | w :: ws, s =>
    if s.records.contains w then expand g limits obs parent depth ws s
    else if limits.refusesWord s.records.size then .ended .wordLimit s
    else expand g limits obs parent depth ws (s.discover g obs ⟨parent, w, depth⟩)

/-- One step of an exploration after `elapsed` milliseconds. -/
def step (g : Grammar) (limits : Limits) (obs : Observer σ) (elapsed : Nat) (s : State σ) :
    Progress σ :=
  match s.frontier.pop? with
  | none => .ended .exhausted s
  | some ((w, depth), frontier) =>
    if limits.maxDepth ≤ depth then .ended .depthBound s
    else if limits.isTimeOver elapsed then .ended .timeout s
    else expand g limits obs w (depth + 1) (successors g.rules w) { s with frontier }

/-! ## Why explorations end -/

/-- The number of chains of at most `n` steps from a word. -/
def chainCount (rules : List Rule) : Nat → Word → Nat
  | 0, _ => 1
  | n + 1, w => 1 + (successors rules w).foldr (fun w' total => chainCount rules n w' + total) 0

/-- The number of chains from the words of a frontier that respect the depth bound. -/
def frontierWork (rules : List Rule) (maxDepth : Nat) : List (Word × Nat) → Nat
  | [] => 0
  | (w, depth) :: ws => chainCount rules (maxDepth - depth) w + frontierWork rules maxDepth ws

theorem frontierWork_append (rules : List Rule) (maxDepth : Nat) (vs ws : List (Word × Nat)) :
    frontierWork rules maxDepth (vs ++ ws) =
      frontierWork rules maxDepth vs + frontierWork rules maxDepth ws := by
  induction vs with
  | nil => simp [frontierWork]
  | cons v vs ih => rw [List.cons_append, frontierWork, frontierWork, ih, Nat.add_assoc]

/-- The number of chains from the frontier that respect the depth bound. -/
def workload (g : Grammar) (limits : Limits) (s : State σ) : Nat :=
  frontierWork g.rules limits.maxDepth s.frontier.toList

theorem workload_classify_le (g : Grammar) (limits : Limits) (w : Word) (depth : Nat)
    (s : State σ) :
    (s.classify g w depth).workload g limits ≤
      s.workload g limits + chainCount g.rules (limits.maxDepth - depth) w := by
  unfold classify
  split
  · exact Nat.le_add_right _ _
  · simp [workload, frontierWork, frontierWork_append]

theorem workload_discover_le (g : Grammar) (limits : Limits) (obs : Observer σ) (t : Transition)
    (s : State σ) :
    (s.discover g obs t).workload g limits ≤
      s.workload g limits + chainCount g.rules (limits.maxDepth - t.depth) t.child :=
  workload_classify_le g limits t.child t.depth _

/-- An expansion adds at most the chains from the successors. -/
theorem workload_expand_le {g : Grammar} {limits : Limits} {obs : Observer σ} {parent : Word}
    {depth : Nat} {ws : List Word} {s s' : State σ}
    (h : expand g limits obs parent depth ws s = .continued s') :
    s'.workload g limits ≤
      s.workload g limits +
        ws.foldr (fun w total => chainCount g.rules (limits.maxDepth - depth) w + total) 0 := by
  induction ws generalizing s with
  | nil =>
    simp only [expand, Progress.continued.injEq] at h
    subst h
    exact Nat.le_add_right _ _
  | cons w ws ih =>
    rw [List.foldr_cons]
    rw [expand] at h
    split at h
    · have := ih h
      omega
    · split at h
      · simp at h
      · have h₁ := ih h
        have h₂ := workload_discover_le g limits obs ⟨parent, w, depth⟩ s
        simp only at h₂
        omega

/-- A step makes the workload smaller. -/
theorem workload_lt_of_step {g : Grammar} {limits : Limits} {obs : Observer σ} {elapsed : Nat}
    {s s' : State σ} (h : step g limits obs elapsed s = .continued s') :
    s'.workload g limits < s.workload g limits := by
  unfold step at h
  split at h
  · simp at h
  · next w depth frontier hpop =>
    split at h
    · simp at h
    · next hdepth =>
      split at h
      · simp at h
      · have hle := workload_expand_le h
        have hwork : s.workload g limits = chainCount g.rules (limits.maxDepth - depth) w +
            frontierWork g.rules limits.maxDepth frontier.toList := by
          rw [workload, Queue.toList_of_pop? hpop, frontierWork]
        have hcount : limits.maxDepth - depth = (limits.maxDepth - (depth + 1)) + 1 := by omega
        rw [hwork, hcount, chainCount]
        simp only [workload] at hle ⊢
        omega

end State

end StringRewriting
