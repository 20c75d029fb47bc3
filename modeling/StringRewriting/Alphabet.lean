import StringRewriting.Word

/-!
# Alphabets

An alphabet is a finite set of symbols, kept as the strictly ascending list of its members, so that
two alphabets with the same members are equal.

* `mem_insert`, `mem_ofSymbols`: membership after an insertion and in an alphabet made from a word.
* `ext_mem`: an alphabet is determined by its members.
-/

namespace StringRewriting

/-- A finite set of symbols. -/
structure Alphabet where
  /-- The members in code point order. -/
  symbols : List Symbol
  /-- The members ascend strictly; in particular none is there twice. -/
  ascending : symbols.Pairwise (· < ·)
  deriving DecidableEq

namespace Alphabet

instance : Membership Symbol Alphabet where
  mem a c := c ∈ a.symbols

theorem mem_def {c : Symbol} {a : Alphabet} : c ∈ a ↔ c ∈ a.symbols := Iff.rfl

instance (c : Symbol) (a : Alphabet) : Decidable (c ∈ a) :=
  inferInstanceAs (Decidable (c ∈ a.symbols))

/-- The alphabet without symbols. -/
def empty : Alphabet := ⟨[], .nil⟩

/-- The number of symbols. -/
def size (a : Alphabet) : Nat := a.symbols.length

/-- Whether there is no symbol. -/
def isEmpty (a : Alphabet) : Bool := a.symbols.isEmpty

/-- The word made of the members in code point order, which is also how an alphabet is written. -/
def toWord (a : Alphabet) : Word := a.symbols

/-! ## Insertion -/

/-- An ascending list with one more member, which is left out if it is there already. -/
def insertAscending (c : Symbol) : List Symbol → List Symbol
  | [] => [c]
  | d :: l => if c < d then c :: d :: l else if c = d then d :: l else d :: insertAscending c l

theorem mem_insertAscending {b c : Symbol} {l : List Symbol} :
    b ∈ insertAscending c l ↔ b = c ∨ b ∈ l := by
  induction l with
  | nil => simp [insertAscending]
  | cons d l ih =>
    rw [insertAscending]
    split
    · simp
    · split
      · next h => subst h; simp
      · simp only [List.mem_cons, ih]
        exact or_left_comm

theorem pairwise_insertAscending (c : Symbol) {l : List Symbol} (h : l.Pairwise (· < ·)) :
    (insertAscending c l).Pairwise (· < ·) := by
  induction l with
  | nil => simp [insertAscending]
  | cons d l ih =>
    have hd := List.pairwise_cons.1 h
    rw [insertAscending]
    split
    · next hcd =>
      refine List.pairwise_cons.2 ⟨fun b hb => ?_, h⟩
      rcases List.mem_cons.1 hb with rfl | hb
      · exact hcd
      · exact Char.lt_trans hcd (hd.1 b hb)
    · next hcd =>
      split
      · exact h
      · next hne =>
        refine List.pairwise_cons.2 ⟨fun b hb => ?_, ih hd.2⟩
        rcases mem_insertAscending.1 hb with rfl | hb
        · exact Decidable.byContradiction fun h =>
            hne (Char.le_antisymm (Char.not_lt.1 h) (Char.not_lt.1 hcd))
        · exact hd.1 b hb

/-- The alphabet with one more symbol. -/
def insert (c : Symbol) (a : Alphabet) : Alphabet :=
  ⟨insertAscending c a.symbols, pairwise_insertAscending c a.ascending⟩

/-- The set of the symbols of a word. -/
def ofSymbols (w : Word) : Alphabet :=
  w.foldr insert empty

@[simp] theorem not_mem_empty (c : Symbol) : c ∉ empty := by simp [mem_def, empty]

@[simp] theorem mem_insert {b c : Symbol} {a : Alphabet} : b ∈ insert c a ↔ b = c ∨ b ∈ a :=
  mem_insertAscending

@[simp] theorem mem_ofSymbols {c : Symbol} {w : Word} : c ∈ ofSymbols w ↔ c ∈ w := by
  induction w with
  | nil => simp [ofSymbols]
  | cons d w ih => rw [ofSymbols, List.foldr_cons, mem_insert, ← ofSymbols, ih, List.mem_cons]

/-! ## Equality -/

/-- Two ascending lists with the same members are equal. -/
theorem eq_of_ascending {l m : List Symbol} (hl : l.Pairwise (· < ·)) (hm : m.Pairwise (· < ·))
    (h : ∀ c, c ∈ l ↔ c ∈ m) : l = m := by
  induction l generalizing m with
  | nil =>
    cases m with
    | nil => rfl
    | cons d m => exact absurd ((h d).2 (by simp)) (by simp)
  | cons c l ih =>
    cases m with
    | nil => exact absurd ((h c).1 (by simp)) (by simp)
    | cons d m =>
      obtain ⟨hc, hl⟩ := List.pairwise_cons.1 hl
      obtain ⟨hd, hm'⟩ := List.pairwise_cons.1 hm
      obtain rfl : c = d := by
        rcases List.mem_cons.1 ((h c).1 (by simp)) with e | hcm
        · exact e
        · rcases List.mem_cons.1 ((h d).2 (by simp)) with e | hdl
          · exact e.symm
          · exact absurd (Char.lt_trans (hc d hdl) (hd c hcm)) (Char.lt_irrefl c)
      congr 1
      refine ih hl hm' fun b => ⟨fun hb => ?_, fun hb => ?_⟩
      · rcases List.mem_cons.1 ((h b).1 (List.mem_cons_of_mem _ hb)) with rfl | h'
        · exact absurd (hc b hb) (Char.lt_irrefl b)
        · exact h'
      · rcases List.mem_cons.1 ((h b).2 (List.mem_cons_of_mem _ hb)) with rfl | h'
        · exact absurd (hd b hb) (Char.lt_irrefl b)
        · exact h'

/-- An alphabet is determined by its members. -/
theorem ext_mem {a b : Alphabet} (h : ∀ c, c ∈ a ↔ c ∈ b) : a = b := by
  obtain ⟨l, hl⟩ := a
  obtain ⟨m, hm⟩ := b
  obtain rfl : l = m := eq_of_ascending hl hm h
  rfl

theorem isEmpty_eq_false_iff {a : Alphabet} : a.isEmpty = false ↔ ∃ c, c ∈ a := by
  rw [isEmpty, List.isEmpty_eq_false_iff_exists_mem]
  rfl

end Alphabet

end StringRewriting
