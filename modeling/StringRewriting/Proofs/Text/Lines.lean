import StringRewriting.Text.Lines

/-!
# Lines as pieces between line feeds

Reading the lines of a text is splitting it at its line feeds, and trimming a line leaves alone what
stands in front of any symbol that is no blank.

* `lines_eq_pieces`: the lines of a text are its pieces.
* `trimEnd_append_cons`, `trimEnd_intercalate`: only the last of several texts in a row is trimmed.
-/

namespace StringRewriting.Text

/-! ## Pieces -/

/-- The pieces of a text between its line feeds, without the empty one behind a final line feed. -/
def pieces (t : Text) : List Text :=
  if (t.splitOn '\n').getLast? = some [] then (t.splitOn '\n').dropLast else t.splitOn '\n'

theorem exists_splitOn_eq_cons (x : Char) (t : Text) : ∃ p ps, t.splitOn x = p :: ps :=
  List.exists_cons_of_ne_nil (List.splitOn_ne_nil x t)

theorem splitOn_cons_of_ne {c x : Char} (h : c ≠ x) (t : Text) :
    (c :: t).splitOn x = (t.splitOn x).modifyHead (c :: ·) := by
  rw [List.splitOn_cons_eq_if_modifyHead, if_neg (by simpa using h)]

theorem splitOn_cons_self (x : Char) (t : Text) : (x :: t).splitOn x = [] :: t.splitOn x := by
  rw [List.splitOn_cons_eq_if_modifyHead, if_pos (by simp)]

theorem notMem_of_mem_splitOn {x : Char} {t p : Text} (h : p ∈ t.splitOn x) : x ∉ p := by
  induction t generalizing p with
  | nil => simp_all
  | cons c t ih =>
    by_cases hc : c = x
    · subst hc
      rw [splitOn_cons_self, List.mem_cons] at h
      rcases h with rfl | h
      · exact List.not_mem_nil
      · exact ih h
    · obtain ⟨q, qs, hq⟩ := exists_splitOn_eq_cons x t
      rw [splitOn_cons_of_ne hc, hq, List.modifyHead_cons, List.mem_cons] at h
      rcases h with rfl | h
      · have hxq : x ∉ q := ih (by simp [hq])
        simp [hxq, Ne.symm hc]
      · exact ih (by simp [hq, h])

theorem mem_of_mem_splitOn {c x : Char} {t p : Text} (h : p ∈ t.splitOn x) (hc : c ∈ p) :
    c ∈ t := by
  have hmem : ∀ ps : List Text, p ∈ ps → c ∈ List.intercalate [x] ps := by
    intro ps hps
    induction ps with
    | nil => simp at hps
    | cons q qs ih =>
      rcases List.mem_cons.1 hps with rfl | hps
      · cases qs <;> simp [hc]
      · obtain ⟨r, rs, rfl⟩ := List.exists_cons_of_ne_nil (List.ne_nil_of_mem hps)
        simp [ih hps]
  have hc := hmem _ h
  rwa [List.intercalate_splitOn] at hc

theorem notMem_intercalate {c : Char} {sep : Text} (hsep : c ∉ sep) {ts : List Text}
    (h : ∀ t ∈ ts, c ∉ t) : c ∉ List.intercalate sep ts := by
  induction ts with
  | nil => exact List.not_mem_nil
  | cons t ts ih =>
    rw [List.forall_mem_cons] at h
    cases ts with
    | nil => simpa using h.1
    | cons u us =>
      rw [List.intercalate_cons_cons, List.mem_append, List.mem_append]
      rintro ((ht | hc) | hus)
      · exact h.1 ht
      · exact hsep hc
      · exact ih h.2 hus

/-- The lines of a text are its pieces between line feeds. -/
theorem lines_eq_pieces (t : Text) : lines t = pieces t := by
  induction t with
  | nil => rfl
  | cons c t ih =>
    obtain ⟨p, ps, hps⟩ := exists_splitOn_eq_cons '\n' t
    rw [lines, ih, pieces, pieces]
    by_cases hc : c = '\n'
    · subst hc
      rw [if_pos rfl, splitOn_cons_self, hps, List.getLast?_cons_cons, List.dropLast_cons_cons]
      split <;> rfl
    · rw [if_neg hc, splitOn_cons_of_ne hc, hps, List.modifyHead_cons]
      -- the first piece gets the symbol; it is the last piece only if there is no other one
      cases ps with
      | nil => cases p <;> simp
      | cons q qs =>
        simp only [List.getLast?_cons_cons, List.dropLast_cons_cons]
        by_cases hlast : (q :: qs).getLast? = some []
        · rw [if_pos hlast, if_pos hlast]
        · rw [if_neg hlast, if_neg hlast]

/-! ## Blanks at the end -/

theorem mem_of_mem_trimEnd {l : Text} {c : Char} (h : c ∈ trimEnd l) : c ∈ l := by
  obtain ⟨b, hb, -⟩ := exists_eq_trimEnd_append l
  rw [hb]
  exact List.mem_append_left b h

/-- Behind a symbol that is no blank, trimming goes on as if nothing stood in front. -/
theorem trimEnd_append_cons {c : Char} (hc : isBlank c = false) (a l : Text) :
    trimEnd (a ++ c :: l) = a ++ c :: trimEnd l := by
  obtain ⟨b, hb, hblank⟩ := exists_eq_trimEnd_append l
  have hends : endsBlank (a ++ c :: trimEnd l) = false := by
    have hl := endsBlank_trimEnd l
    unfold endsBlank at hl ⊢
    cases hlast : (trimEnd l).getLast? with
    | none => simp [List.getLast?_cons, hlast, hc]
    | some d =>
      rw [hlast] at hl
      simpa [List.getLast?_cons, hlast] using hl
  calc trimEnd (a ++ c :: l) = trimEnd (a ++ c :: trimEnd l ++ b) := by
        rw [List.append_assoc, List.cons_append, ← hb]
    _ = trimEnd (a ++ c :: trimEnd l) := trimEnd_append_blanks _ hblank
    _ = a ++ c :: trimEnd l := trimEnd_eq_self_iff.2 hends

/-- The texts of a list, the last one trimmed. -/
def trimLast : List Text → List Text
  | [] => []
  | [a] => [trimEnd a]
  | a :: b :: as => a :: trimLast (b :: as)

theorem trimLast_ne_nil {as : List Text} (h : as ≠ []) : trimLast as ≠ [] := by
  cases as with
  | nil => exact absurd rfl h
  | cons a as => cases as <;> simp [trimLast]

theorem exists_mem_of_mem_trimLast {as : List Text} {a : Text} (h : a ∈ trimLast as) :
    ∃ b ∈ as, ∀ c ∈ a, c ∈ b := by
  fun_induction trimLast as with
  | case1 => simp at h
  | case2 b =>
    obtain rfl := List.mem_singleton.1 h
    exact ⟨b, by simp, fun c hc => mem_of_mem_trimEnd hc⟩
  | case3 b b' bs ih =>
    rcases List.mem_cons.1 h with rfl | h
    · exact ⟨a, by simp, fun c hc => hc⟩
    · obtain ⟨d, hd, hsub⟩ := ih h
      exact ⟨d, List.mem_cons_of_mem b hd, hsub⟩

/-- Of several texts with a sign between them, the last one is trimmed. -/
theorem trimEnd_intercalate {x : Char} (hx : isBlank x = false) (as : List Text) :
    trimEnd (List.intercalate [x] as) = List.intercalate [x] (trimLast as) := by
  fun_induction trimLast as with
  | case1 => rfl
  | case2 a => simp
  | case3 a b as ih =>
    obtain ⟨d, ds, hds⟩ := List.exists_cons_of_ne_nil (trimLast_ne_nil (List.cons_ne_nil b as))
    rw [List.intercalate_cons_cons, List.append_assoc, List.singleton_append,
      trimEnd_append_cons hx, ih, hds, List.intercalate_cons_cons, List.append_assoc,
      List.singleton_append]

end StringRewriting.Text
