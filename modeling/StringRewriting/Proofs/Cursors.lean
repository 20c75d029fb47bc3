import Mathlib.Logic.Function.Iterate
import StringRewriting.Proofs.Occurrence

/-!
# Several cursors on one word

Cursors that were copied from one another go over the same occurrences. How far a cursor has come is
decided by the calls it has seen, those of the cursor it was copied from included up to the copy. So
the cursors may be replaced by the numbers of their calls: whatever is asked of them in whatever
order, the answers are the same.

* `Cursor.offsets_iterate_advance`, `Cursor.drain_iterate_advance`: what a cursor has left after a
  number of calls.
* `CallCounts.answers`: the answers to commands, given by the numbers of the calls alone.
* `Cursors.exec?_map`: a command on cursors and on their numbers of calls.
* `Cursors.answers_by_calls`: any number of commands, from the first cursor on.
-/

namespace StringRewriting

/-! ## One cursor -/

namespace Cursor

/-- The cursor after one call, which is the same cursor if no occurrence was left. -/
def advance (c : Cursor) : Cursor :=
  match c.next? with
  | none => c
  | some (_, c') => c'

theorem advance_of_next?_eq_none {c : Cursor} (h : c.next? = none) : c.advance = c := by
  rw [advance, h]

theorem advance_of_next?_eq_some {c c' : Cursor} {n : Nat} (h : c.next? = some (n, c')) :
    c.advance = c' := by
  rw [advance, h]

/-- A call leaves all occurrences but the first. -/
theorem offsets_advance (c : Cursor) : c.advance.offsets = c.offsets.tail := by
  cases h : c.next? with
  | none => rw [advance_of_next?_eq_none h, offsets_of_next?_eq_none h]; rfl
  | some a => rw [advance_of_next?_eq_some h, offsets_of_next?_eq_some h]; rfl

/-- After a number of calls the occurrences from that number on are left. -/
theorem offsets_iterate_advance (c : Cursor) (i : Nat) :
    (advance^[i] c).offsets = c.offsets.drop i := by
  induction i with
  | zero => rfl
  | succ i ih => rw [Function.iterate_succ_apply', offsets_advance, ih, List.tail_drop]

/-- The search for all occurrences makes one call for each and one that finds none. -/
theorem drain_snd (c : Cursor) : c.drain.2 = advance^[c.offsets.length + 1] c := by
  fun_induction drain c with
  | case1 c h =>
    rw [offsets_of_next?_eq_none h]
    exact (advance_of_next?_eq_none h).symm
  | case2 c n c' h _ rest ih =>
    rw [offsets_of_next?_eq_some h, List.length_cons, Function.iterate_succ_apply,
      advance_of_next?_eq_some h]
    exact ih

theorem drain_iterate_advance (c : Cursor) (i : Nat) :
    (advance^[i] c).drain = (c.offsets.drop i, advance^[max i c.offsets.length + 1] c) := by
  have hcalls : (c.offsets.drop i).length + 1 + i = max i c.offsets.length + 1 := by
    rw [List.length_drop]
    omega
  refine Prod.ext (offsets_iterate_advance c i) ?_
  rw [drain_snd, offsets_iterate_advance, ← Function.iterate_add_apply, hcalls]

end Cursor

/-! ## Numbers of calls -/

/-- Numbered cursors on the same occurrences, each given by the number of the calls it has seen. A
copy has seen the calls of the cursor it is a copy of. -/
abbrev CallCounts := List Nat

namespace CallCounts

variable (offsets : List Nat)

/-- The answer to a command and the numbers of the calls after it, unless the command names no
cursor. All the occurrences that are left are found by as many calls and one more, which finds none.
-/
def exec? (calls : CallCounts) : CursorCommand → Option (CursorAnswer × CallCounts)
  | .next k => calls[k]?.map fun i => (.offset offsets[i]?, calls.set k (i + 1))
  | .rest k => calls[k]?.map fun i =>
    (.offsets (offsets.drop i), calls.set k (max i offsets.length + 1))
  | .clone k => calls[k]?.map fun i => (.copied calls.length, calls ++ [i])

/-- The answers to commands given one after the other, up to one that names no cursor. -/
def answers (calls : CallCounts) : List CursorCommand → List CursorAnswer
  | [] => []
  | cmd :: cmds =>
    match exec? offsets calls cmd with
    | none => []
    | some (a, calls') => a :: answers calls' cmds

end CallCounts

/-! ## Several cursors -/

namespace Cursors

/-- A call answers the first occurrence that is left and moves this cursor only. -/
theorem exec?_next (cs : Cursors) (k : Nat) :
    exec? cs (.next k) = cs[k]?.map fun c => (.offset c.offsets.head?, cs.set k c.advance) := by
  rw [exec?]
  cases hk : cs[k]? with
  | none => rfl
  | some c =>
    rw [Option.map_some, Option.map_some]
    cases h : c.next? with
    | none =>
      -- the cursor stays where it is, which is to say that it is set to itself
      obtain ⟨hlt, rfl⟩ := List.getElem?_eq_some_iff.1 hk
      rw [Cursor.offsets_of_next?_eq_none h, Cursor.advance_of_next?_eq_none h,
        List.set_getElem_self]
      rfl
    | some a =>
      rw [Cursor.offsets_of_next?_eq_some h, Cursor.advance_of_next?_eq_some h]
      rfl

/-- A command does to cursors what it does to the numbers of their calls. -/
theorem exec?_map (c : Cursor) (calls : CallCounts) (cmd : CursorCommand) :
    exec? (calls.map fun i => Cursor.advance^[i] c) cmd =
      (calls.exec? c.offsets cmd).map fun p => (p.1, p.2.map fun i => Cursor.advance^[i] c) := by
  cases cmd with
  | next k =>
    rw [exec?_next, CallCounts.exec?, List.getElem?_map, Option.map_map, Option.map_map]
    congr 1
    funext i
    simp only [Function.comp_apply, Cursor.offsets_iterate_advance, List.head?_drop, List.map_set,
      Function.iterate_succ_apply']
  | rest k =>
    rw [exec?, CallCounts.exec?, List.getElem?_map, Option.map_map, Option.map_map]
    congr 1
    funext i
    simp only [Function.comp_apply, Cursor.drain_iterate_advance, List.map_set]
  | clone k =>
    rw [exec?, CallCounts.exec?, List.getElem?_map, Option.map_map, Option.map_map]
    congr 1
    funext i
    simp only [Function.comp_apply, List.length_map, List.map_append, List.map_singleton]

theorem answers_map (c : Cursor) (calls : CallCounts) (cmds : List CursorCommand) :
    answers (calls.map fun i => Cursor.advance^[i] c) cmds = calls.answers c.offsets cmds := by
  induction cmds generalizing calls with
  | nil => rfl
  | cons cmd cmds ih =>
    rw [answers, CallCounts.answers, exec?_map]
    cases calls.exec? c.offsets cmd with
    | none => rfl
    | some p => exact congrArg (p.1 :: ·) (ih p.2)

/-- **A cursor answers by the number of the calls it has seen, whatever is asked of the others.**
The occurrences of a pattern that is not empty are the byte offsets at which a symbol ends and the
pattern comes next, in ascending order. Starting from one cursor at the beginning of the word, after
any commands a cursor that has seen `i` calls, its own and those of the cursors it stems from,
answers the next call with the occurrence of number `i`, and with nothing from the last one on;
asked for all that is left, it answers all occurrences but the first `i`. -/
theorem answers_by_calls (input : Word) {pattern : Word} (h : pattern ≠ []) :
    (Word.occurrences pattern input).Pairwise (· < ·) ∧
    (∀ n, n ∈ Word.occurrences pattern input ↔
      ∃ u v, input = u ++ v ∧ u.utf8Size = n ∧ pattern <+: v) ∧
    ∃ c, Cursor.start? input pattern = some c ∧
      ∀ cmds, answers [c] cmds = CallCounts.answers (Word.occurrences pattern input) [0] cmds := by
  refine ⟨Word.pairwise_occurrences pattern input, fun n => Word.mem_occurrences,
    ⟨input, pattern, h, 0⟩, dif_neg h, fun cmds => ?_⟩
  rw [← Cursor.offsets_eq_occurrences (c := ⟨input, pattern, h, 0⟩) rfl]
  exact answers_map _ [0] cmds

/-- The occurrences overlap, the symbols have two bytes, and a copy is left behind. -/
theorem answers_by_calls_overlapping :
    ['é', 'é'] ≠ [] ∧
    ∃ c, Cursor.start? ['é', 'é', 'é'] ['é', 'é'] = some c ∧
      answers [c] [.clone 0, .next 0, .clone 0, .next 2, .next 2, .next 2, .next 0, .rest 1] =
        [.copied 1, .offset (some 0), .copied 2, .offset (some 2), .offset none, .offset none,
          .offset (some 2), .offsets [0, 2]] := by
  have hpattern : ['é', 'é'] ≠ [] := by decide
  obtain ⟨-, -, c, hc, hanswers⟩ := answers_by_calls ['é', 'é', 'é'] hpattern
  refine ⟨hpattern, c, hc, ?_⟩
  rw [hanswers]
  decide

end Cursors

end StringRewriting
