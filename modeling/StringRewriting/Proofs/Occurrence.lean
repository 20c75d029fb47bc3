import StringRewriting.Occurrence

/-!
# The occurrences that a cursor finds

An occurrence of a pattern in a word is a factorisation of the word around the pattern. The cursor
searches by byte offsets and steps by the width of a symbol; its answers are the byte lengths of the
left parts of all factorisations, those with the shorter left part first.

* `mem_factorisations`, `pairwise_factorisations`: the list of the factorisations has all of them,
  in the order of their first parts.
* `firstOffset?_eq`: the search finds the first factorisation.
* `Cursor.offsets_eq`: a cursor finds all factorisations of what is left of its word.
* `occurrences`: where a pattern begins in a word.
-/

namespace StringRewriting

namespace Word

/-- The parts before and after a pattern in every factorisation of a word around it, those with the
shorter first part first. -/
def factorisations (p : Word) : Word → List (Word × Word)
  | [] => if p = [] then [([], [])] else []
  | c :: w =>
    let later := (factorisations p w).map fun f => (c :: f.1, f.2)
    if p.isPrefixOf (c :: w) then ([], (c :: w).drop p.length) :: later else later

theorem mem_factorisations {p w u v : Word} : (u, v) ∈ factorisations p w ↔ w = u ++ p ++ v := by
  induction w generalizing u with
  | nil =>
    rw [factorisations]
    split
    · next h => simp [h]
    · next h => simp [h]
  | cons c w ih =>
    have hfirst : ([], v) ∈ factorisations p (c :: w) ↔ c :: w = p ++ v := by
      rw [factorisations]
      split
      · next h =>
        obtain ⟨t, ht⟩ := List.isPrefixOf_iff_prefix.1 h
        rw [← ht]
        simp [eq_comm]
      · next h =>
        have hno : ¬ c :: w = p ++ v := fun hw => h (List.isPrefixOf_iff_prefix.2 ⟨v, hw.symm⟩)
        simp [hno]
    have hlater : ∀ d u', (d :: u', v) ∈ factorisations p (c :: w) ↔
        c = d ∧ (u', v) ∈ factorisations p w := by
      intro d u'
      rw [factorisations, and_comm]
      split <;> simp
    cases u with
    | nil => rw [hfirst, List.nil_append]
    | cons d u' => rw [hlater, ih, List.cons_append, List.cons_append, List.cons.injEq]

/-- In the list of the factorisations every first part begins with those before it and is longer. -/
theorem pairwise_factorisations (p w : Word) :
    (factorisations p w).Pairwise fun f f' => ∃ d t, f'.1 = f.1 ++ d :: t := by
  induction w with
  | nil =>
    rw [factorisations]
    split
    · exact List.pairwise_singleton ..
    · exact .nil
  | cons c w ih =>
    have hlater : ((factorisations p w).map fun f => (c :: f.1, f.2)).Pairwise
        fun f f' => ∃ d t, f'.1 = f.1 ++ d :: t := by
      refine List.pairwise_map.2 (ih.imp ?_)
      rintro f f' ⟨d, t, h⟩
      exact ⟨d, t, by rw [h, List.cons_append]⟩
    rw [factorisations]
    split
    · refine List.pairwise_cons.2 ⟨?_, hlater⟩
      rw [List.forall_mem_map]
      exact fun f _ => ⟨c, f.1, rfl⟩
    · exact hlater

/-- The search finds the first factorisation. -/
theorem firstOffset?_eq (p w : Word) :
    firstOffset? p w = (factorisations p w).head?.map fun f => utf8Size f.1 := by
  induction w with
  | nil =>
    rw [firstOffset?, factorisations]
    cases p <;> simp
  | cons c w ih =>
    rw [firstOffset?, factorisations]
    split
    · rfl
    · rw [ih]
      cases factorisations p w <;> simp

/-- The factorisations behind the first one are those of the word from the second symbol of the
first occurrence on. -/
theorem factorisations_eq_cons {c : Symbol} {p w a v : Word} {fs : List (Word × Word)}
    (h : factorisations (c :: p) w = (a, v) :: fs) :
    fs = (factorisations (c :: p) (p ++ v)).map fun f => (a ++ c :: f.1, f.2) := by
  induction w generalizing a fs with
  | nil => simp [factorisations] at h
  | cons d w ih =>
    rw [factorisations] at h
    split at h
    · next hpre =>
      obtain ⟨t, ht⟩ := List.isPrefixOf_iff_prefix.1 hpre
      rw [← ht] at h
      simp only [List.cons_append, List.cons.injEq] at ht
      obtain ⟨rfl, rfl⟩ := ht
      simp only [List.drop_left, List.cons.injEq, Prod.mk.injEq] at h
      obtain ⟨⟨rfl, rfl⟩, rfl⟩ := h
      rfl
    · cases hf : factorisations (c :: p) w with
      | nil => simp [hf] at h
      | cons f fs' =>
        simp only [hf, List.map_cons, List.cons.injEq, Prod.mk.injEq] at h
        obtain ⟨⟨rfl, rfl⟩, rfl⟩ := h
        rw [ih hf]
        simp

end Word

namespace Cursor

open Word

theorem symbolWidth_append (u : Word) (d : Symbol) (v : Word) :
    symbolWidth (u ++ d :: v) u.utf8Size = d.utf8Size := by
  rw [symbolWidth, splitAtByte?_append]

/-- The call of a cursor that stands between two parts of its word, taken apart. -/
theorem next?_eq_some_iff {c c' : Cursor} {u v : Word} {n : Nat} (hw : c.input = u ++ v)
    (hi : c.index = u.utf8Size) :
    c.next? = some (n, c') ↔ ∃ k, firstOffset? c.pattern v = some k ∧ n = c.index + k ∧
      c' = { c with index := n + symbolWidth c.input n } := by
  have hsplit : c.input.splitAtByte? c.index = some (u, v) := by
    rw [hw, hi, splitAtByte?_append]
  simp only [next?, hsplit, Option.bind_eq_bind, Option.bind_some, Option.bind_eq_some_iff,
    Option.pure_def, Option.some.injEq, Prod.mk.injEq]
  constructor
  · rintro ⟨k, hk, rfl, rfl⟩
    exact ⟨k, hk, rfl, rfl⟩
  · rintro ⟨k, hk, rfl, rfl⟩
    exact ⟨k, hk, rfl, rfl⟩

/-- Where a cursor stands between two parts of its word, its next answer is the first occurrence in
the second part, and afterwards it stands behind the first symbol of this occurrence. -/
theorem next?_eq_some {c : Cursor} {u a v p : Word} {d : Symbol}
    (hw : c.input = u ++ (a ++ d :: p ++ v)) (hi : c.index = u.utf8Size)
    (hfirst : (factorisations c.pattern (a ++ d :: p ++ v)).head? = some (a, v)) :
    c.next? = some ((u ++ a).utf8Size, { c with index := (u ++ a ++ [d]).utf8Size }) := by
  have hoffset : firstOffset? c.pattern (a ++ d :: p ++ v) = some a.utf8Size := by
    rw [firstOffset?_eq, hfirst, Option.map_some]
  have hwidth : symbolWidth c.input (u ++ a).utf8Size = d.utf8Size := by
    have hcut : c.input = (u ++ a) ++ d :: (p ++ v) := by simp [hw]
    rw [hcut, symbolWidth_append]
  have hindex : (u ++ a).utf8Size + d.utf8Size = (u ++ a ++ [d]).utf8Size := by
    simp [Nat.add_assoc]
  refine (next?_eq_some_iff hw hi).2 ⟨a.utf8Size, hoffset, ?_, ?_⟩
  · rw [hi, utf8Size_append]
  · rw [hwidth, hindex]

theorem next?_eq_none {c : Cursor} {u w : Word} (hw : c.input = u ++ w) (hi : c.index = u.utf8Size)
    (hnone : factorisations c.pattern w = []) : c.next? = none := by
  have hsplit : c.input.splitAtByte? c.index = some (u, w) := by
    rw [hw, hi, splitAtByte?_append]
  simp [next?, hsplit, firstOffset?_eq, hnone]

theorem drain_of_next?_eq_none {c : Cursor} (h : c.next? = none) : c.drain = ([], c) := by
  rw [drain]
  split
  · rfl
  · next h' => simp [h] at h'

theorem drain_of_next?_eq_some {c c' : Cursor} {n : Nat} (h : c.next? = some (n, c')) :
    c.drain = (n :: c'.offsets, c'.drain.2) := by
  rw [drain]
  split
  · next h' => simp [h] at h'
  · next h' =>
    rw [h] at h'
    simp only [Option.some.injEq, Prod.mk.injEq] at h'
    obtain ⟨rfl, rfl⟩ := h'
    rfl

theorem offsets_of_next?_eq_none {c : Cursor} (h : c.next? = none) : c.offsets = [] := by
  rw [offsets, drain_of_next?_eq_none h]

theorem offsets_of_next?_eq_some {c c' : Cursor} {n : Nat} (h : c.next? = some (n, c')) :
    c.offsets = n :: c'.offsets := by
  rw [offsets, drain_of_next?_eq_some h]

/-- A cursor that stands between two parts of its word finds the occurrences in the second part. -/
theorem offsets_eq {c : Cursor} {u w : Word} (hw : c.input = u ++ w) (hi : c.index = u.utf8Size) :
    c.offsets = (factorisations c.pattern w).map fun f => (u ++ f.1).utf8Size := by
  -- the induction follows what is left of the word, which an answer shortens
  induction hn : w.length using Nat.strongRecOn generalizing c u w with
  | ind n ih =>
    obtain ⟨d, p, hp⟩ := List.exists_cons_of_ne_nil c.pattern_ne_nil
    cases hf : factorisations c.pattern w with
    | nil => rw [offsets_of_next?_eq_none (next?_eq_none hw hi hf), List.map_nil]
    | cons f fs =>
      obtain ⟨a, v⟩ := f
      have hwf : w = a ++ d :: p ++ v := by
        rw [← hp]
        exact mem_factorisations.1 (by simp [hf])
      have hnext := next?_eq_some (hwf ▸ hw) hi (by rw [← hwf, hf]; rfl)
      have hrest : c.input = (u ++ a ++ [d]) ++ (p ++ v) := by simp [hw, hwf]
      have hlen : (p ++ v).length < n := by
        rw [← hn, hwf]
        simp only [List.length_append, List.length_cons]
        omega
      have htail := ih _ hlen (c := { c with index := (u ++ a ++ [d]).utf8Size }) hrest rfl rfl
      rw [offsets_of_next?_eq_some hnext, htail]
      rw [hp] at hf ⊢
      rw [factorisations_eq_cons hf]
      simp

end Cursor

/-! ## Where a pattern begins -/

namespace Word

/-- The byte offsets at which a pattern begins in a word, overlapping occurrences included. -/
def occurrences (p w : Word) : List Nat :=
  (factorisations p w).map fun f => utf8Size f.1

/-- They are the ends of symbols, and the pattern comes next. -/
theorem mem_occurrences {p w : Word} {n : Nat} :
    n ∈ occurrences p w ↔ ∃ u v, w = u ++ v ∧ utf8Size u = n ∧ p <+: v := by
  simp only [occurrences, List.mem_map, Prod.exists, mem_factorisations]
  constructor
  · rintro ⟨u, v, rfl, rfl⟩
    exact ⟨u, p ++ v, List.append_assoc .., rfl, v, rfl⟩
  · rintro ⟨u, -, rfl, rfl, v, rfl⟩
    exact ⟨u, v, (List.append_assoc ..).symm, rfl⟩

theorem pairwise_occurrences (p w : Word) : (occurrences p w).Pairwise (· < ·) := by
  refine List.pairwise_map.2 ((pairwise_factorisations p w).imp ?_)
  rintro f f' ⟨d, t, h⟩
  have hpos := d.utf8Size_pos
  rw [h, utf8Size_append, utf8Size_cons]
  omega

end Word

/-- A cursor at the beginning of its word finds all occurrences. -/
theorem Cursor.offsets_eq_occurrences {c : Cursor} (h : c.index = 0) :
    c.offsets = Word.occurrences c.pattern c.input :=
  c.offsets_eq (u := []) rfl h

end StringRewriting
