import StringRewriting.Text.Blank

/-!
# Lines of a text

A text is cut into lines at every line feed and nowhere else. A line feed at the end closes the last
line and opens no further one, so the empty text has no line. Blanks at the end of a line are no
part of what the line says.

* `lines_unlines`: lines without a line feed are read back as they were written.
* `lines_append_unlines`: what is read from a text that begins with whole lines.
* `trimEnd_append_blanks`, `trimEnd_eq_self_iff`: trimming removes all blanks at the end and only
  them.
-/

namespace StringRewriting

/-- A finite list of Unicode scalar values. -/
abbrev Text := List Char

namespace Text

/-! ## Cutting into lines -/

/-- The lines of a text, without the line feeds. -/
def lines : Text → List Text
  | [] => []
  | c :: t =>
    if c = '\n' then [] :: lines t
    else match lines t with
      | [] => [[c]]
      | l :: ls => (c :: l) :: ls

/-- The text of some lines, each closed by a line feed. -/
def unlines (ls : List Text) : Text :=
  ls.flatMap (· ++ ['\n'])

@[simp] theorem lines_nil : lines [] = [] := rfl

@[simp] theorem unlines_nil : unlines [] = [] := rfl

@[simp] theorem unlines_cons (l : Text) (ls : List Text) :
    unlines (l :: ls) = l ++ '\n' :: unlines ls := by
  simp [unlines]

/-- A closed line is read first. -/
theorem lines_append_newline {l : Text} (h : '\n' ∉ l) (t : Text) :
    lines (l ++ '\n' :: t) = l :: lines t := by
  induction l with
  | nil => rfl
  | cons c l ih =>
    rw [List.mem_cons, not_or] at h
    rw [List.cons_append, lines, if_neg (Ne.symm h.1), ih h.2]

theorem lines_append_unlines {ls : List Text} (h : ∀ l ∈ ls, '\n' ∉ l) (t : Text) :
    lines (unlines ls ++ t) = ls ++ lines t := by
  induction ls with
  | nil => rfl
  | cons l ls ih =>
    rw [List.forall_mem_cons] at h
    rw [unlines_cons, List.append_assoc, List.cons_append, lines_append_newline h.1, ih h.2,
      List.cons_append]

/-- Lines without a line feed are read back as they were written. -/
theorem lines_unlines {ls : List Text} (h : ∀ l ∈ ls, '\n' ∉ l) : lines (unlines ls) = ls := by
  simpa using lines_append_unlines h []

/-- No line contains a line feed. -/
theorem newline_notMem_of_mem_lines {t l : Text} (h : l ∈ lines t) : '\n' ∉ l := by
  induction t generalizing l with
  | nil => simp at h
  | cons c t ih =>
    rw [lines] at h
    split at h
    · rcases List.mem_cons.1 h with rfl | h
      · simp
      · exact ih h
    · next hc =>
      split at h
      · obtain rfl := List.mem_singleton.1 h
        simpa using Ne.symm hc
      · next m ms hms =>
        rcases List.mem_cons.1 h with rfl | h
        · have := ih (l := m) (by rw [hms]; simp)
          simp [Ne.symm hc, this]
        · exact ih (by rw [hms]; exact List.mem_cons_of_mem _ h)

/-! ## Blanks at the end of a line -/

/-- A line without the blanks at its end. -/
def trimEnd (l : Text) : Text :=
  (l.reverse.dropWhile isBlank).reverse

/-- Whether the last symbol of a text is a blank. -/
def endsBlank (l : Text) : Bool :=
  l.getLast?.any isBlank

theorem trimEnd_eq_self_iff {l : Text} : trimEnd l = l ↔ endsBlank l = false := by
  unfold trimEnd endsBlank
  rcases List.eq_nil_or_concat l with rfl | ⟨l, c, rfl⟩
  · simp
  · cases h : isBlank c with
    | false => simp [h]
    | true =>
      simp only [List.concat_eq_append, List.reverse_append, List.reverse_cons, List.reverse_nil,
        List.nil_append, List.cons_append, List.dropWhile_cons, h, if_true]
      refine iff_of_false (fun heq => ?_) (by simp [h])
      have hlen := congrArg List.length heq
      have hle := (List.dropWhile_sublist (p := isBlank) (l := l.reverse)).length_le
      simp only [List.length_reverse, List.length_append, List.length_cons, List.length_nil]
        at hlen hle
      omega

/-- All the blanks at the end are removed. -/
theorem endsBlank_trimEnd (l : Text) : endsBlank (trimEnd l) = false := by
  unfold endsBlank trimEnd
  rw [List.getLast?_reverse]
  have h := List.head?_dropWhile_not isBlank l.reverse
  cases hd : (l.reverse.dropWhile isBlank).head? with
  | none => rfl
  | some c => simpa [hd] using h

/-- Nothing but blanks at the end is removed. -/
theorem exists_eq_trimEnd_append (l : Text) : ∃ b, l = trimEnd l ++ b ∧ ∀ c ∈ b, isBlank c := by
  refine ⟨(l.reverse.takeWhile isBlank).reverse, ?_, fun c hc => ?_⟩
  · rw [trimEnd, ← List.reverse_append, List.takeWhile_append_dropWhile, List.reverse_reverse]
  · exact List.all_eq_true.1 List.all_takeWhile c (List.mem_reverse.1 hc)

theorem trimEnd_append_blanks (l : Text) {b : Text} (h : ∀ c ∈ b, isBlank c) :
    trimEnd (l ++ b) = trimEnd l := by
  unfold trimEnd
  rw [List.reverse_append, List.dropWhile_append_of_pos fun c hc => h c (List.mem_reverse.1 hc)]

@[simp] theorem trimEnd_trimEnd (l : Text) : trimEnd (trimEnd l) = trimEnd l :=
  trimEnd_eq_self_iff.2 (endsBlank_trimEnd l)

end Text

end StringRewriting
