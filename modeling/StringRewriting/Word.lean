/-!
# Words

A word is a finite list of symbols and a symbol is one Unicode scalar value. Words are compared by
code points, and positions inside a word are measured in bytes of its UTF-8 encoding, so that a
position is meaningful for the encoded text as well.

* `splitAtByte?_append`, `splitAtByte?_eq_some_iff`: a word can be cut at a byte offset exactly when
  a prefix of it has that many bytes, and the cut gives this prefix and the rest.
* `firstOffset?`: the least byte offset at which a pattern occurs.
* `containsFactor_iff`: the factor test holds exactly when the word factors around the pattern.
-/

namespace StringRewriting

/-- A symbol is one Unicode scalar value; nothing is normalised and no case is folded. -/
abbrev Symbol := Char

/-- A word is a finite list of symbols. -/
abbrev Word := List Symbol

namespace Word

/-- Words are hashed symbol by symbol, by their code points. -/
instance : Hashable Word where
  hash w := w.foldl (fun h c => mixHash h c.val.toUInt64) 7

/-! ## Order -/

/-- The order of words by code points, a proper prefix coming first. It is also the order of their
UTF-8 encodings. -/
def compare (v w : Word) : Ordering :=
  if v < w then .lt else if v = w then .eq else .gt

/-- The words of a list in ascending order, repetitions kept. -/
def sort (ws : List Word) : List Word :=
  ws.mergeSort fun v w => (compare v w).isLE

/-! ## Bytes -/

/-- The number of bytes of the UTF-8 encoding of a word. -/
def utf8Size : Word → Nat
  | [] => 0
  | c :: w => c.utf8Size + utf8Size w

@[simp] theorem utf8Size_nil : utf8Size [] = 0 := rfl

@[simp] theorem utf8Size_cons (c : Symbol) (w : Word) :
    utf8Size (c :: w) = c.utf8Size + utf8Size w := rfl

@[simp] theorem utf8Size_append (v w : Word) : utf8Size (v ++ w) = utf8Size v + utf8Size w := by
  induction v with
  | nil => simp
  | cons c v ih => simp [ih, Nat.add_assoc]

/-- The two parts of a word before and after a byte offset, unless the offset lies inside a symbol
or behind the end. -/
def splitAtByte? : Word → Nat → Option (Word × Word)
  | w, 0 => some ([], w)
  | [], _ + 1 => none
  | c :: w, n + 1 =>
    if c.utf8Size ≤ n + 1 then
      (splitAtByte? w (n + 1 - c.utf8Size)).map fun p => (c :: p.1, p.2)
    else none

@[simp] theorem splitAtByte?_zero (w : Word) : splitAtByte? w 0 = some ([], w) := by
  cases w <;> rfl

/-- A word is cut between the parts it was put together from. -/
theorem splitAtByte?_append (u v : Word) : splitAtByte? (u ++ v) (utf8Size u) = some (u, v) := by
  induction u with
  | nil => simp
  | cons c u ih =>
    have hpos := c.utf8Size_pos
    obtain ⟨n, hn⟩ : ∃ n, utf8Size (c :: u) = n + 1 :=
      ⟨utf8Size (c :: u) - 1, by simp only [utf8Size_cons]; omega⟩
    have hle : c.utf8Size ≤ n + 1 := by rw [← hn]; simp
    have hrest : n + 1 - c.utf8Size = utf8Size u := by rw [← hn]; simp
    rw [hn, List.cons_append, splitAtByte?, if_pos hle, hrest, ih]
    rfl

/-- The parts of a cut are a factorisation whose first part has the given number of bytes. -/
theorem eq_append_of_splitAtByte? {w u v : Word} {n : Nat} (h : splitAtByte? w n = some (u, v)) :
    w = u ++ v ∧ utf8Size u = n := by
  induction w generalizing n u v with
  | nil => cases n <;> simp_all [splitAtByte?]
  | cons c w ih =>
    cases n with
    | zero => simp_all [splitAtByte?]
    | succ n =>
      simp only [splitAtByte?] at h
      split at h
      · obtain ⟨⟨u', v'⟩, h', he⟩ := Option.map_eq_some_iff.1 h
        obtain ⟨rfl, hn⟩ := ih h'
        simp only [Prod.mk.injEq] at he
        obtain ⟨rfl, rfl⟩ := he
        exact ⟨rfl, by simp only [utf8Size_cons]; omega⟩
      · simp at h

/-- A cut exists exactly between the two parts of a factorisation. -/
theorem splitAtByte?_eq_some_iff {w u v : Word} {n : Nat} :
    splitAtByte? w n = some (u, v) ↔ w = u ++ v ∧ utf8Size u = n :=
  ⟨eq_append_of_splitAtByte?, fun ⟨hw, hn⟩ => hw ▸ hn ▸ splitAtByte?_append u v⟩

/-! ## Factors -/

/-- The least byte offset at which `p` occurs in a word. -/
def firstOffset? (p : Word) : Word → Option Nat
  | [] => if p.isEmpty then some 0 else none
  | c :: w => if p.isPrefixOf (c :: w) then some 0 else (firstOffset? p w).map (c.utf8Size + ·)

/-- Whether `p` is a factor of a word, that is a block of consecutive symbols of it. -/
def containsFactor (p : Word) : Word → Bool
  | [] => p.isEmpty
  | c :: w => p.isPrefixOf (c :: w) || containsFactor p w

theorem containsFactor_iff {p w : Word} : containsFactor p w ↔ ∃ u v, w = u ++ p ++ v := by
  induction w with
  | nil => cases p <;> simp [containsFactor]
  | cons c w ih =>
    rw [containsFactor, Bool.or_eq_true, List.isPrefixOf_iff_prefix, ih]
    constructor
    · rintro (⟨v, hv⟩ | ⟨u, v, rfl⟩)
      · exact ⟨[], v, by simpa using hv.symm⟩
      · exact ⟨c :: u, v, by simp⟩
    · rintro ⟨_ | ⟨d, u⟩, v, h⟩
      · exact .inl ⟨v, by simpa using h.symm⟩
      · simp only [List.cons_append, List.cons.injEq] at h
        exact .inr ⟨u, v, h.2⟩

end Word

end StringRewriting
