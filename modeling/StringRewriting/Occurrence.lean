import StringRewriting.Word

/-!
# Occurrences of a pattern

A cursor walks over the occurrences of a non-empty pattern in a word, overlapping ones included, and
gives them as byte offsets. It keeps the byte offset from which it searches on: after an occurrence
this is one symbol behind the occurrence's start. A cursor is a value, so a copy of it goes on from
the same place and neither moves the other.

* `Cursor.lt_index_of_next?`: a step moves the cursor forward.
* `Cursor.drain`: all occurrences that are left, and the cursor behind them.
* `Cursors.exec?`, `Cursors.answers`: commands on several cursors.
-/

namespace StringRewriting

/-- A place in the search for a pattern in a word. -/
structure Cursor where
  /-- The word that is searched. -/
  input : Word
  /-- What is searched for. -/
  pattern : Word
  /-- The empty pattern occurs everywhere and is not searched for. -/
  pattern_ne_nil : pattern ≠ []
  /-- The byte offset from which the search goes on. -/
  index : Nat

namespace Cursor

/-- The cursor before all occurrences of `pattern` in `input`, for a pattern that is not empty. -/
def start? (input pattern : Word) : Option Cursor :=
  if h : pattern = [] then none else some ⟨input, pattern, h, 0⟩

/-- The number of bytes of the symbol of a word that begins at a byte offset, and one where none
does. -/
def symbolWidth (w : Word) (n : Nat) : Nat :=
  match w.splitAtByte? n with
  | some (_, c :: _) => c.utf8Size
  | _ => 1

theorem symbolWidth_pos (w : Word) (n : Nat) : 0 < symbolWidth w n := by
  unfold symbolWidth
  split
  · exact Char.utf8Size_pos _
  · exact Nat.one_pos

/-- The next occurrence and the cursor behind it, or nothing if no occurrence is left. -/
def next? (c : Cursor) : Option (Nat × Cursor) := do
  let (_, rest) ← c.input.splitAtByte? c.index
  let n ← Word.firstOffset? c.pattern rest
  let offset := c.index + n
  return (offset, { c with index := offset + symbolWidth c.input offset })

/-- The number of bytes from the place of the search to the end of the word. -/
def remainingBytes (c : Cursor) : Nat :=
  c.input.utf8Size + 1 - c.index

/-- A step moves the cursor forward and starts inside the word. -/
theorem lt_index_of_next? {c c' : Cursor} {n : Nat} (h : c.next? = some (n, c')) :
    c.index ≤ n ∧ n < c'.index ∧ c.index ≤ c.input.utf8Size ∧ c'.input = c.input ∧
      c'.pattern = c.pattern := by
  simp only [next?, Option.bind_eq_bind, Option.bind_eq_some_iff, Prod.exists] at h
  obtain ⟨u, v, hs, k, -, h⟩ := h
  simp only [Option.pure_def, Option.some.injEq, Prod.mk.injEq] at h
  obtain ⟨rfl, rfl⟩ := h
  obtain ⟨hw, hn⟩ := Word.eq_append_of_splitAtByte? hs
  have hpos := symbolWidth_pos c.input (c.index + k)
  refine ⟨Nat.le_add_right _ _, by show _ < _ + _; omega, ?_, rfl, rfl⟩
  rw [hw, Word.utf8Size_append]
  omega

theorem remainingBytes_lt_of_next? {c c' : Cursor} {n : Nat} (h : c.next? = some (n, c')) :
    c'.remainingBytes < c.remainingBytes := by
  obtain ⟨h1, h2, h3, h4, -⟩ := lt_index_of_next? h
  unfold remainingBytes
  rw [h4]
  omega

/-- The occurrences that are left and the cursor behind them. -/
def drain (c : Cursor) : List Nat × Cursor :=
  match h : c.next? with
  | none => ([], c)
  | some (n, c') =>
    have := remainingBytes_lt_of_next? h
    let rest := c'.drain
    (n :: rest.1, rest.2)
termination_by c.remainingBytes

/-- The byte offsets of the occurrences that are left. -/
def offsets (c : Cursor) : List Nat := c.drain.1

end Cursor

/-! ## Several cursors -/

/-- What can be asked of numbered cursors. -/
inductive CursorCommand where
  /-- The next occurrence of a cursor. -/
  | next (cursor : Nat)
  /-- All the occurrences that a cursor has left. -/
  | rest (cursor : Nat)
  /-- A copy of a cursor, with a new number. -/
  | clone (cursor : Nat)
  deriving DecidableEq, Repr

/-- What is answered to a command. -/
inductive CursorAnswer where
  /-- The byte offset of the next occurrence, if there was one left. -/
  | offset (offset : Option Nat)
  /-- The byte offsets of all occurrences that were left. -/
  | offsets (offsets : List Nat)
  /-- The number of a copy. -/
  | copied (cursor : Nat)
  deriving DecidableEq, Repr

/-- Cursors numbered from zero. -/
abbrev Cursors := List Cursor

namespace Cursors

/-- The answer to a command and the cursors after it, unless the command names no cursor. -/
def exec? (cs : Cursors) : CursorCommand → Option (CursorAnswer × Cursors)
  | .next k => cs[k]?.map fun c =>
    match c.next? with
    | none => (.offset none, cs)
    | some (n, c') => (.offset (some n), cs.set k c')
  | .rest k => cs[k]?.map fun c => (.offsets c.drain.1, cs.set k c.drain.2)
  | .clone k => cs[k]?.map fun c => (.copied cs.length, cs ++ [c])

/-- The answers to commands given one after the other, up to one that names no cursor. -/
def answers (cs : Cursors) : List CursorCommand → List CursorAnswer
  | [] => []
  | cmd :: cmds =>
    match exec? cs cmd with
    | none => []
    | some (a, cs') => a :: answers cs' cmds

end Cursors

end StringRewriting
