import StringRewriting.Proofs.Occurrence
import StringRewriting.Rewriting

/-!
# Words as bytes

The positions in a word count the bytes of its UTF-8 encoding, and a search in an encoded word
compares bytes, not symbols. It finds nothing else for that: the byte with which a symbol begins is
never a later byte of a symbol, so the bytes of a pattern that is not empty stand only where the
pattern itself stands.

* `Word.isBoundary_iff`: the offsets that do not lie inside a symbol are the ends of the prefixes.
* `Word.bytes_prefix_bytes_iff`, `Word.mem_occurrences_iff_bytes`: bytes match where symbols match.
* `Word.firstOffset?_eq_some_iff`, `Word.firstOffset?_eq_none_iff`: the search finds the first place
  where the bytes stand.
* `Word.exists_splitAtByte?_iff`, `Word.exists_replaceAt?_iff`: where a word can be cut.
* `Word.bytes_of_replaceAt?`, `Word.length_bytes_of_replaceAt?`: the bytes after a replacement.
-/

namespace StringRewriting.Word

/-- The UTF-8 encoding of a word. -/
def bytes (w : Word) : List UInt8 :=
  w.flatMap String.utf8EncodeChar

@[simp] theorem bytes_nil : bytes [] = [] := rfl

@[simp] theorem bytes_cons (c : Symbol) (w : Word) :
    bytes (c :: w) = String.utf8EncodeChar c ++ bytes w := rfl

@[simp] theorem bytes_append (v w : Word) : bytes (v ++ w) = bytes v ++ bytes w :=
  List.flatMap_append

@[simp] theorem length_bytes (w : Word) : (bytes w).length = utf8Size w := by
  induction w with
  | nil => rfl
  | cons c w ih =>
    rw [bytes_cons, List.length_append, String.length_utf8EncodeChar, ih, utf8Size_cons]

/-! ## Boundaries of symbols -/

/-- An offset lies between two symbols if it is the end of the encoded word or if a symbol begins
with the byte behind it. -/
def IsBoundary (w : Word) (n : Nat) : Prop :=
  n = (bytes w).length ∨ ∃ b, (bytes w)[n]? = some b ∧ b.IsUTF8FirstByte

theorem IsBoundary.le {w : Word} {n : Nat} (h : IsBoundary w n) : n ≤ (bytes w).length := by
  rcases h with rfl | ⟨b, hb, -⟩
  · exact Nat.le_refl _
  · obtain ⟨hlt, -⟩ := List.getElem?_eq_some_iff.1 hb
    exact Nat.le_of_lt hlt

/-- Of the bytes of the first symbol only the first begins a symbol. -/
theorem isBoundary_cons_iff {c : Symbol} {w : Word} {n : Nat} :
    IsBoundary (c :: w) n ↔ n = 0 ∨ c.utf8Size ≤ n ∧ IsBoundary w (n - c.utf8Size) := by
  have hpos := c.utf8Size_pos
  have hlength : (String.utf8EncodeChar c).length = c.utf8Size := String.length_utf8EncodeChar c
  by_cases hn : n < c.utf8Size
  · have hbyte : n < (String.utf8EncodeChar c).length := hlength ▸ hn
    have hget : (bytes (c :: w))[n]? = some (String.utf8EncodeChar c)[n] := by
      rw [bytes_cons, List.getElem?_append_left hbyte, List.getElem?_eq_getElem hbyte]
    have hend : n ≠ (bytes (c :: w)).length := by
      rw [length_bytes, utf8Size_cons]
      omega
    constructor
    · rintro (h | ⟨b, hb, hfirst⟩)
      · exact absurd h hend
      · rw [hget, Option.some.injEq] at hb
        subst hb
        exact .inl (UInt8.isUTF8FirstByte_getElem_utf8EncodeChar.1 hfirst)
    · rintro (h | ⟨h, -⟩)
      · exact .inr ⟨_, hget, UInt8.isUTF8FirstByte_getElem_utf8EncodeChar.2 h⟩
      · omega
  · have hge : (String.utf8EncodeChar c).length ≤ n := by omega
    rw [IsBoundary, IsBoundary, bytes_cons, List.getElem?_append_right hge, List.length_append,
      hlength]
    constructor
    · rintro (h | h)
      · exact .inr ⟨by omega, .inl (by omega)⟩
      · exact .inr ⟨by omega, .inr h⟩
    · rintro (h | ⟨-, h | h⟩)
      · omega
      · exact .inl (by omega)
      · exact .inr h

/-- The offsets between two symbols are the lengths of the encoded prefixes. -/
theorem isBoundary_iff {w : Word} {n : Nat} :
    IsBoundary w n ↔ ∃ u v, w = u ++ v ∧ utf8Size u = n := by
  induction w generalizing n with
  | nil =>
    constructor
    · rintro (h | ⟨b, hb, -⟩)
      · exact ⟨[], [], rfl, h.symm⟩
      · simp at hb
    · rintro ⟨u, v, huv, rfl⟩
      obtain ⟨rfl, -⟩ := List.append_eq_nil_iff.1 huv.symm
      exact .inl rfl
  | cons c w ih =>
    rw [isBoundary_cons_iff, ih]
    constructor
    · rintro (rfl | ⟨hle, u, v, rfl, hu⟩)
      · exact ⟨[], c :: w, rfl, rfl⟩
      · exact ⟨c :: u, v, rfl, by rw [utf8Size_cons]; omega⟩
    · rintro ⟨_ | ⟨d, u⟩, v, huv, rfl⟩
      · exact .inl rfl
      · rw [List.cons_append, List.cons.injEq] at huv
        obtain ⟨rfl, rfl⟩ := huv
        rw [utf8Size_cons]
        exact .inr ⟨by omega, u, v, rfl, by omega⟩

theorem isBoundary_append (u v : Word) : IsBoundary (u ++ v) (utf8Size u) :=
  isBoundary_iff.2 ⟨u, v, rfl, rfl⟩

/-! ## Matches -/

/-- The encoding of a word is a prefix of another one's only if the word is. -/
theorem bytes_prefix_bytes_iff {u v : Word} : bytes u <+: bytes v ↔ u <+: v := by
  constructor
  · rintro ⟨t, ht⟩
    refine List.isPrefix_of_utf8Encode_append_eq_utf8Encode t.toByteArray ?_
    rw [List.utf8Encode, List.utf8Encode, ← List.toByteArray_append]
    exact congrArg List.toByteArray ht
  · rintro ⟨t, rfl⟩
    exact ⟨bytes t, (bytes_append u t).symm⟩

theorem drop_bytes_append (u v : Word) : (bytes (u ++ v)).drop (utf8Size u) = bytes v := by
  rw [bytes_append, ← length_bytes, List.drop_left]

/-- A pattern begins with a byte that begins a symbol, so its bytes never stand inside one. -/
theorem IsBoundary.of_bytes_prefix {p w : Word} {n : Nat} (hp : p ≠ [])
    (h : bytes p <+: (bytes w).drop n) : IsBoundary w n := by
  obtain ⟨c, q, rfl⟩ := List.exists_cons_of_ne_nil hp
  have hpos : 0 < (String.utf8EncodeChar c).length := by
    rw [String.length_utf8EncodeChar]
    exact c.utf8Size_pos
  obtain ⟨t, ht⟩ := h
  have hget : (bytes w)[n]? = some (String.utf8EncodeChar c)[0] := by
    calc (bytes w)[n]? = ((bytes w).drop n)[0]? := by rw [List.getElem?_drop, Nat.add_zero]
      _ = (String.utf8EncodeChar c ++ (bytes q ++ t))[0]? := by
        rw [← ht, bytes_cons, List.append_assoc]
      _ = some (String.utf8EncodeChar c)[0] := by
        rw [List.getElem?_append_left hpos, List.getElem?_eq_getElem hpos]
  exact .inr ⟨_, hget, UInt8.isUTF8FirstByte_getElem_utf8EncodeChar.2 rfl⟩

/-- The bytes of a pattern stand exactly where the pattern stands. -/
theorem mem_occurrences_iff_bytes {p w : Word} {n : Nat} (hp : p ≠ []) :
    n ∈ occurrences p w ↔ bytes p <+: (bytes w).drop n := by
  rw [mem_occurrences]
  constructor
  · rintro ⟨u, v, rfl, rfl, hpv⟩
    rw [drop_bytes_append]
    exact bytes_prefix_bytes_iff.2 hpv
  · intro h
    obtain ⟨u, v, rfl, rfl⟩ := isBoundary_iff.1 (IsBoundary.of_bytes_prefix hp h)
    rw [drop_bytes_append] at h
    exact ⟨u, v, rfl, rfl, bytes_prefix_bytes_iff.1 h⟩

theorem firstOffset?_eq_head? (p w : Word) : firstOffset? p w = (occurrences p w).head? := by
  rw [firstOffset?_eq, occurrences, List.head?_map]

/-- The search finds nothing exactly if the bytes of the pattern stand nowhere. -/
theorem firstOffset?_eq_none_iff {p w : Word} (hp : p ≠ []) :
    firstOffset? p w = none ↔ ∀ n, ¬ bytes p <+: (bytes w).drop n := by
  rw [firstOffset?_eq_head?, List.head?_eq_none_iff, List.eq_nil_iff_forall_not_mem]
  exact forall_congr' fun n => not_congr (mem_occurrences_iff_bytes hp)

/-- The search finds the first place where the bytes of the pattern stand. -/
theorem firstOffset?_eq_some_iff {p w : Word} {n : Nat} (hp : p ≠ []) :
    firstOffset? p w = some n ↔
      bytes p <+: (bytes w).drop n ∧ ∀ m < n, ¬ bytes p <+: (bytes w).drop m := by
  simp only [← mem_occurrences_iff_bytes hp]
  rw [firstOffset?_eq_head?]
  have hsorted := pairwise_occurrences p w
  cases hocc : occurrences p w with
  | nil => simp
  | cons k ks =>
    rw [hocc, List.pairwise_cons] at hsorted
    rw [List.head?_cons, Option.some.injEq]
    constructor
    · rintro rfl
      refine ⟨List.mem_cons_self, fun m hm hmem => ?_⟩
      rcases List.mem_cons.1 hmem with rfl | hmem
      · exact Nat.lt_irrefl _ hm
      · exact Nat.lt_asymm hm (hsorted.1 m hmem)
    · rintro ⟨hmem, hleast⟩
      rcases List.mem_cons.1 hmem with rfl | hmem
      · rfl
      · exact absurd List.mem_cons_self (hleast k (hsorted.1 n hmem))

/-! ## Cuts -/

/-- A word can be cut exactly between two symbols. -/
theorem exists_splitAtByte?_iff {w : Word} {n : Nat} :
    (∃ u v, splitAtByte? w n = some (u, v)) ↔ IsBoundary w n := by
  rw [isBoundary_iff]
  exact exists_congr fun u => exists_congr fun v => splitAtByte?_eq_some_iff

theorem replaceAt?_eq_some_iff {w rhs w' : Word} {pos n : Nat} :
    w.replaceAt? pos n rhs = some w' ↔
      ∃ u p v, w = u ++ p ++ v ∧ utf8Size u = pos ∧ utf8Size p = n ∧ w' = u ++ rhs ++ v := by
  constructor
  · intro h
    simp only [replaceAt?, Option.bind_eq_bind, Option.bind_eq_some_iff, Prod.exists,
      splitAtByte?_eq_some_iff, Option.pure_def, Option.some.injEq] at h
    obtain ⟨u, _, ⟨rfl, hu⟩, p, v, ⟨rfl, hp⟩, rfl⟩ := h
    exact ⟨u, p, v, (List.append_assoc ..).symm, hu, hp, rfl⟩
  · rintro ⟨u, p, v, rfl, rfl, rfl, rfl⟩
    exact replaceAt?_append u p v rhs

/-- A block can be replaced exactly if both its ends lie between symbols. -/
theorem exists_replaceAt?_iff {w rhs : Word} {pos n : Nat} :
    (∃ w', w.replaceAt? pos n rhs = some w') ↔ IsBoundary w pos ∧ IsBoundary w (pos + n) := by
  simp only [replaceAt?_eq_some_iff]
  constructor
  · rintro ⟨-, u, p, v, rfl, rfl, rfl, -⟩
    constructor
    · rw [List.append_assoc]
      exact isBoundary_append u (p ++ v)
    · rw [← utf8Size_append]
      exact isBoundary_append (u ++ p) v
  · rintro ⟨hpos, hend⟩
    obtain ⟨u, x, hux, rfl⟩ := isBoundary_iff.1 hpos
    obtain ⟨y, v, hyv, hy⟩ := isBoundary_iff.1 hend
    -- both prefixes are prefixes of one word, and the one with fewer bytes is the shorter
    have hu : bytes u <+: bytes w := bytes_prefix_bytes_iff.2 ⟨x, hux.symm⟩
    have hy' : bytes y <+: bytes w := bytes_prefix_bytes_iff.2 ⟨v, hyv.symm⟩
    have hle : (bytes u).length ≤ (bytes y).length := by
      rw [length_bytes, length_bytes, hy]
      exact Nat.le_add_right _ n
    have hprefix : u <+: y :=
      bytes_prefix_bytes_iff.1 (List.prefix_of_prefix_length_le hu hy' hle)
    obtain ⟨p, rfl⟩ := hprefix
    rw [utf8Size_append] at hy
    exact ⟨_, u, p, v, hyv, rfl, by omega, rfl⟩

/-- A replacement leaves the bytes before and behind the block as they were. -/
theorem bytes_of_replaceAt? {w rhs w' : Word} {pos n : Nat} (h : w.replaceAt? pos n rhs = some w') :
    bytes w' = (bytes w).take pos ++ bytes rhs ++ (bytes w).drop (pos + n) := by
  obtain ⟨u, p, v, rfl, rfl, rfl, rfl⟩ := replaceAt?_eq_some_iff.1 h
  have htake : (bytes (u ++ p ++ v)).take (utf8Size u) = bytes u := by
    rw [List.append_assoc, bytes_append, ← length_bytes, List.take_left]
  rw [← utf8Size_append, drop_bytes_append, htake, bytes_append, bytes_append]

/-- The bytes of the block go and those of the right side come. -/
theorem length_bytes_of_replaceAt? {w rhs w' : Word} {pos n : Nat}
    (h : w.replaceAt? pos n rhs = some w') :
    n ≤ (bytes w).length ∧ (bytes w').length = (bytes w).length - n + (bytes rhs).length := by
  obtain ⟨u, p, v, rfl, rfl, rfl, rfl⟩ := replaceAt?_eq_some_iff.1 h
  simp only [length_bytes, utf8Size_append]
  omega

end StringRewriting.Word
