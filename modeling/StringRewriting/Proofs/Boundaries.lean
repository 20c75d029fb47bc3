import StringRewriting.Proofs.Cursors
import StringRewriting.Proofs.Encoding
import StringRewriting.Proofs.Rewriting

/-!
# Cuts between symbols

A cursor counts bytes, and the bytes of a word cannot be cut anywhere. But a cursor never comes to
stand inside a symbol: what it finds begins and ends between two symbols, and it goes on behind the
symbol with which that begins. So every cut that a rewriting step makes is one that can be made.

* `Cursor.IsAligned.exists_next?_iff`: a call finds the first place where the bytes of the pattern
  stand.
* `Cursor.IsAligned.of_next?_eq_some`, `Cursor.isAligned_iterate_advance`: one call keeps a cursor
  between two symbols, and so do any number of calls.
* `Rewriting.cuts_between_symbols`: all the cuts of a rewriting step.
-/

namespace StringRewriting

namespace Word

/-- The bytes of `p` stand at `pos` in the encoded `w`, and at no offset between `start` and `pos`,
be it inside a symbol. -/
def IsFirstMatch (p w : Word) (start pos : Nat) : Prop :=
  start ≤ pos ∧ bytes p <+: (bytes w).drop pos ∧
    ∀ n, start ≤ n → n < pos → ¬ bytes p <+: (bytes w).drop n

/-- Where the bytes of a pattern stand, they begin and end between two symbols. -/
theorem isBoundary_of_bytes_prefix {p w : Word} {pos : Nat} (hp : p ≠ [])
    (h : bytes p <+: (bytes w).drop pos) :
    IsBoundary w pos ∧ IsBoundary w (pos + (bytes p).length) := by
  obtain ⟨u, v, rfl, rfl, t, rfl⟩ := mem_occurrences.1 ((mem_occurrences_iff_bytes hp).2 h)
  constructor
  · exact isBoundary_append u (p ++ t)
  · rw [length_bytes, ← utf8Size_append, ← List.append_assoc]
    exact isBoundary_append (u ++ p) t

/-- Where the bytes of a pattern stand, a symbol begins. -/
theorem exists_symbol_of_bytes_prefix {p w : Word} {pos : Nat} (hp : p ≠ [])
    (h : bytes p <+: (bytes w).drop pos) :
    ∃ u d v, w = u ++ d :: v ∧ utf8Size u = pos := by
  obtain ⟨u, v, rfl, rfl, t, rfl⟩ := mem_occurrences.1 ((mem_occurrences_iff_bytes hp).2 h)
  obtain ⟨d, q, rfl⟩ := List.exists_cons_of_ne_nil hp
  exact ⟨u, d, q ++ t, rfl, rfl⟩

end Word

namespace Cursor

open Word

/-! ## One call -/

/-- A cursor that stands between two symbols of its word. -/
def IsAligned (c : Cursor) : Prop :=
  IsBoundary c.input c.index

section Aligned

variable {c c' : Cursor} {pos : Nat}

/-- A call answers with the first place where the bytes of the pattern stand, if they stand anywhere
from the place of the search on. -/
theorem IsAligned.exists_next?_iff (h : c.IsAligned) :
    (∃ c', c.next? = some (pos, c')) ↔ IsFirstMatch c.pattern c.input c.index pos := by
  obtain ⟨u, v, hw, hu⟩ := isBoundary_iff.1 h
  have hdrop : ∀ n, (bytes c.input).drop (c.index + n) = (bytes v).drop n := by
    intro n
    rw [← List.drop_drop, ← hu, hw, drop_bytes_append]
  simp only [next?_eq_some_iff hw hu.symm, firstOffset?_eq_some_iff c.pattern_ne_nil]
  constructor
  · rintro ⟨-, n, ⟨hmatch, hfirst⟩, rfl, -⟩
    refine ⟨Nat.le_add_right _ n, (hdrop n).symm ▸ hmatch, fun m hle hlt => ?_⟩
    obtain ⟨k, rfl⟩ := Nat.exists_eq_add_of_le hle
    rw [hdrop]
    exact hfirst k (by omega)
  · rintro ⟨hle, hmatch, hfirst⟩
    obtain ⟨n, rfl⟩ := Nat.exists_eq_add_of_le hle
    refine ⟨_, n, ⟨hdrop n ▸ hmatch, fun m hlt => ?_⟩, rfl, rfl⟩
    rw [← hdrop]
    exact hfirst (c.index + m) (Nat.le_add_right _ m) (by omega)

/-- The pattern stands at the answer of a call, and afterwards the cursor stands behind the symbol
that begins there. -/
theorem IsAligned.exists_symbol (h : c.IsAligned) (hnext : c.next? = some (pos, c')) :
    bytes c.pattern <+: (bytes c.input).drop pos ∧
      ∃ u d v, c.input = u ++ d :: v ∧ utf8Size u = pos ∧
        c' = { c with index := pos + d.utf8Size } := by
  have hmatch := (h.exists_next?_iff.1 ⟨c', hnext⟩).2.1
  obtain ⟨x, y, hxy, hx⟩ := isBoundary_iff.1 h
  obtain ⟨-, -, -, hc'⟩ := (next?_eq_some_iff hxy hx.symm).1 hnext
  obtain ⟨u, d, v, hw, hu⟩ := exists_symbol_of_bytes_prefix c.pattern_ne_nil hmatch
  have hwidth : symbolWidth c.input pos = d.utf8Size := by
    rw [hw, ← hu, symbolWidth_append]
  exact ⟨hmatch, u, d, v, hw, hu, hwidth ▸ hc'⟩

/-- A call keeps a cursor between two symbols. -/
theorem IsAligned.of_next?_eq_some (h : c.IsAligned) (hnext : c.next? = some (pos, c')) :
    c'.IsAligned := by
  obtain ⟨-, u, d, v, hw, hu, rfl⟩ := h.exists_symbol hnext
  apply isBoundary_iff.2
  refine ⟨u ++ [d], v, ?_, ?_⟩
  · show c.input = _
    rw [hw, List.append_assoc, List.singleton_append]
  · rw [utf8Size_append, hu, utf8Size_cons, utf8Size_nil, Nat.add_zero]

/-- What a cursor searches does not change. -/
theorem advance_eq (c : Cursor) : ∃ n, c.advance = { c with index := n } := by
  cases h : c.next? with
  | none => exact ⟨c.index, advance_of_next?_eq_none h⟩
  | some a =>
    obtain ⟨n, c'⟩ := a
    obtain ⟨-, -, -, hinput, hpattern⟩ := lt_index_of_next? h
    refine ⟨c'.index, ?_⟩
    rw [advance_of_next?_eq_some h]
    cases c'
    simp_all

theorem IsAligned.advance (h : c.IsAligned) : c.advance.IsAligned := by
  cases hnext : c.next? with
  | none => rwa [advance_of_next?_eq_none hnext]
  | some a => rw [advance_of_next?_eq_some hnext]; exact h.of_next?_eq_some hnext

/-- After any number of calls a cursor still stands between two symbols, and it still searches for
the same pattern in the same word. -/
theorem isAligned_iterate_advance (h : c.IsAligned) (i : Nat) :
    (Cursor.advance^[i] c).IsAligned ∧ ∃ n, Cursor.advance^[i] c = { c with index := n } := by
  induction i with
  | zero => exact ⟨h, c.index, rfl⟩
  | succ i ih =>
    obtain ⟨haligned, n, hn⟩ := ih
    rw [Function.iterate_succ_apply']
    refine ⟨haligned.advance, ?_⟩
    obtain ⟨m, hm⟩ := (Cursor.advance^[i] c).advance_eq
    exact ⟨m, by rw [hm, hn]⟩

end Aligned

end Cursor

/-! ## All the cuts of a rewriting step -/

/-- Every occurrence that the cursor finds is one that can be replaced. -/
theorem Rule.map_some_rewrites (r : Rule) (w : Word) :
    (r.rewrites w).map some =
      (Cursor.offsets ⟨w, r.lhs, r.lhs_ne_nil, 0⟩).map fun pos =>
        w.replaceAt? pos (Word.utf8Size r.lhs) r.rhs := by
  rw [Rule.rewrites_eq, Cursor.offsets_eq_occurrences rfl, Word.occurrences, List.map_map,
    List.map_map]
  apply List.map_congr_left
  intro f hf
  have hw : w = f.1 ++ r.lhs ++ f.2 := Word.mem_factorisations.1 hf
  rw [Function.comp_apply, Function.comp_apply]
  conv_rhs => rw [hw]
  exact (Word.replaceAt?_append f.1 r.lhs f.2 r.rhs).symm

/-- **A rewriting step cuts words between symbols only.** Between any two calls the cursor stands
between two symbols of the word. A call answers with the first place where the bytes of the left
side stand, and with nothing if there is none. There the left side begins and ends between two
symbols, so the symbol that begins there can be read, and the cursor goes on behind it; and the left
side can be replaced, without taking away more bytes than there are. Each answer gives one result,
whose length is the one that is reckoned beforehand. -/
theorem Rewriting.cuts_between_symbols (w rhs : Word) {lhs : Word} (h : lhs ≠ []) :
    ∃ c ws, Cursor.start? w lhs = some c ∧ applySides w lhs rhs = .ok ws ∧
      Rule.rewrites ⟨lhs, rhs, h⟩ w = ws ∧
      (∀ i, (Cursor.advance^[i] c).index ≤ (Word.bytes w).length ∧
        Word.IsBoundary w (Cursor.advance^[i] c).index ∧
        ∀ pos, (∃ c', (Cursor.advance^[i] c).next? = some (pos, c')) ↔
          Word.IsFirstMatch lhs w (Cursor.advance^[i] c).index pos) ∧
      (∀ i pos c', (Cursor.advance^[i] c).next? = some (pos, c') →
        Word.IsBoundary w pos ∧ Word.IsBoundary w (pos + (Word.bytes lhs).length) ∧
        pos + (Word.bytes lhs).length ≤ (Word.bytes w).length ∧
        (∃ u d v, w.splitAtByte? pos = some (u, d :: v) ∧
          c'.index = pos + (String.utf8EncodeChar d).length) ∧
        ∃ w', w.replaceAt? pos (Word.bytes lhs).length rhs = some w' ∧
          Word.bytes w' = (Word.bytes w).take pos ++ Word.bytes rhs ++
            (Word.bytes w).drop (pos + (Word.bytes lhs).length)) ∧
      ws.map some = c.offsets.map (fun pos => w.replaceAt? pos (Word.bytes lhs).length rhs) ∧
      ∀ w' ∈ ws, (Word.bytes lhs).length ≤ (Word.bytes w).length ∧
        (Word.bytes w').length =
          (Word.bytes w).length - (Word.bytes lhs).length + (Word.bytes rhs).length := by
  have hstart : Cursor.IsAligned ⟨w, lhs, h, 0⟩ := Word.isBoundary_append [] w
  have hresults := Rule.map_some_rewrites ⟨lhs, rhs, h⟩ w
  rw [← Word.length_bytes] at hresults
  refine ⟨⟨w, lhs, h, 0⟩, _, dif_neg h, applySides_lhs_rhs w ⟨lhs, rhs, h⟩, rfl, fun i => ?_,
    fun i pos c' hnext => ?_, hresults, fun w' hw' => ?_⟩
  · obtain ⟨haligned, n, hn⟩ := Cursor.isAligned_iterate_advance hstart i
    rw [hn] at haligned ⊢
    exact ⟨haligned.le, haligned, fun pos => haligned.exists_next?_iff⟩
  · obtain ⟨haligned, n, hn⟩ := Cursor.isAligned_iterate_advance hstart i
    rw [hn] at haligned hnext
    obtain ⟨hmatch, u, d, v, hw, hu, rfl⟩ := haligned.exists_symbol hnext
    obtain ⟨hpos, hend⟩ := Word.isBoundary_of_bytes_prefix h hmatch
    obtain ⟨w', hw'⟩ := Word.exists_replaceAt?_iff.2 ⟨hpos, hend⟩
    refine ⟨hpos, hend, hend.le, ⟨u, d, v, Word.splitAtByte?_eq_some_iff.2 ⟨hw, hu⟩, ?_⟩, w', hw',
      Word.bytes_of_replaceAt? hw'⟩
    rw [String.length_utf8EncodeChar]
  · have hmem : some w' ∈ (Rule.rewrites ⟨lhs, rhs, h⟩ w).map some := List.mem_map_of_mem hw'
    rw [hresults, List.mem_map] at hmem
    obtain ⟨pos, -, hpos⟩ := hmem
    exact Word.length_bytes_of_replaceAt? hpos

/-- The occurrences overlap, and their symbols have two bytes. -/
theorem Rewriting.cuts_between_symbols_overlapping :
    ['é', 'é'] ≠ [] ∧ ∃ c ws, Cursor.start? ['€', 'é', 'é', 'é'] ['é', 'é'] = some c ∧
      applySides ['€', 'é', 'é', 'é'] ['é', 'é'] ['a'] = .ok ws ∧
      (∃ c', (Cursor.advance^[1] c).next? = some (5, c')) ∧
      Word.IsBoundary ['€', 'é', 'é', 'é'] 5 ∧ Word.IsBoundary ['€', 'é', 'é', 'é'] 9 ∧
      ∀ w' ∈ ws, (Word.bytes w').length = 6 := by
  have hlhs : ['é', 'é'] ≠ [] := by decide
  obtain ⟨c, ws, hc, hws, -, -, hanswers, -, hlength⟩ :=
    cuts_between_symbols ['€', 'é', 'é', 'é'] ['a'] hlhs
  obtain rfl : ⟨['€', 'é', 'é', 'é'], ['é', 'é'], hlhs, 0⟩ = c := Option.some.inj hc
  have hnext : (Cursor.advance^[1] ⟨['€', 'é', 'é', 'é'], ['é', 'é'], hlhs, 0⟩).next? =
      some (5, ⟨['€', 'é', 'é', 'é'], ['é', 'é'], hlhs, 7⟩) := rfl
  obtain ⟨hpos, hend, -⟩ := hanswers 1 5 _ hnext
  refine ⟨hlhs, _, ws, hc, hws, ⟨_, hnext⟩, hpos, ?_, fun w' hw' => ?_⟩
  · exact hend
  · exact (hlength w' hw').2

end StringRewriting
