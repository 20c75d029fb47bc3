/-!
# Queues

A first-in first-out queue kept as two lists: the front in order and the back in reverse order. Its
meaning is the list `toList` of its members, the oldest first.

* `toList_push`: a new member comes last.
* `pop?_eq_none_iff`, `toList_of_pop?`: the oldest member is taken, if there is one.
-/

namespace StringRewriting

universe u

/-- A first-in first-out queue. -/
structure Queue (α : Type u) where
  /-- The oldest members, the oldest first. -/
  front : List α
  /-- The other members, the newest first. -/
  back : List α
  deriving DecidableEq

namespace Queue

variable {α : Type u}

/-- The members, the oldest first. -/
def toList (q : Queue α) : List α := q.front ++ q.back.reverse

/-- The queue without members. -/
def empty : Queue α := ⟨[], []⟩

/-- The queue with a new member. -/
def push (q : Queue α) (a : α) : Queue α := ⟨q.front, a :: q.back⟩

/-- The oldest member and the queue without it. -/
def pop? (q : Queue α) : Option (α × Queue α) :=
  match q.front with
  | a :: l => some (a, ⟨l, q.back⟩)
  | [] =>
    match q.back.reverse with
    | a :: l => some (a, ⟨l, []⟩)
    | [] => none

@[simp] theorem toList_empty : (empty : Queue α).toList = [] := rfl

@[simp] theorem toList_push (q : Queue α) (a : α) : (q.push a).toList = q.toList ++ [a] := by
  simp [toList, push]

/-- Nothing can be taken exactly from a queue without members. -/
theorem pop?_eq_none_iff {q : Queue α} : q.pop? = none ↔ q.toList = [] := by
  unfold pop? toList
  split
  · next h => simp [h]
  · next h =>
    split
    · next h' => simp [h, h']
    · next h' => simp [h, h']

/-- The member that is taken is the oldest one, and the others stay in order. -/
theorem toList_of_pop? {q q' : Queue α} {a : α} (h : q.pop? = some (a, q')) :
    q.toList = a :: q'.toList := by
  unfold pop? at h
  split at h
  · next hf =>
    simp only [Option.some.injEq, Prod.mk.injEq] at h
    obtain ⟨rfl, rfl⟩ := h
    simp [toList, hf]
  · next hf =>
    split at h
    · next hb =>
      simp only [Option.some.injEq, Prod.mk.injEq] at h
      obtain ⟨rfl, rfl⟩ := h
      simp [toList, hf, hb]
    · simp at h

end Queue

end StringRewriting
