import Mathlib.Tactic.SplitIfs
import StringRewriting.Proofs.Text.Lines
import StringRewriting.Text.Quoted

/-!
# Quoted text stays on its line

Whatever symbols are taken to be plain, quoting leaves no line feed in a text.

* `Quoted.exists_digit_of_mem_hexadecimal`: a code point is written in digits.
* `Quoted.newline_notMem_list`: the quoted texts of a list are on one line.
-/

namespace StringRewriting.Quoted

theorem exists_digit_of_mem_hexadecimal {n : Nat} {c : Char} (h : c ∈ hexadecimal n) :
    ∃ d < 16, c = d.digitChar := by
  fun_induction hexadecimal n with
  | case1 n hn => exact ⟨n, hn, List.mem_singleton.1 h⟩
  | case2 n hn ih =>
    rcases List.mem_append.1 h with h | h
    · exact ih h
    · exact ⟨n % 16, Nat.mod_lt n (by decide), List.mem_singleton.1 h⟩

theorem notMem_hexadecimal {c : Char} (h : ∀ d < 16, c ≠ d.digitChar) (n : Nat) :
    c ∉ hexadecimal n := by
  intro hc
  obtain ⟨d, hd, hdigit⟩ := exists_digit_of_mem_hexadecimal hc
  exact h d hd hdigit

theorem newline_notMem_hexadecimal (n : Nat) : '\n' ∉ hexadecimal n :=
  notMem_hexadecimal (by decide) n

variable (plain : Char → Bool)

theorem newline_notMem_escapeSymbol (c : Char) : '\n' ∉ escapeSymbol plain c := by
  by_cases hc : c = '\n'
  · simp [escapeSymbol, hc]
  · unfold escapeSymbol
    split_ifs <;> simp [newline_notMem_hexadecimal, Ne.symm hc]

theorem newline_notMem_text (t : Text) : '\n' ∉ text plain t := by
  have hescape : '\n' ∉ escape plain t := by
    rw [escape, List.mem_flatMap]
    rintro ⟨c, -, hc⟩
    exact newline_notMem_escapeSymbol plain c hc
  simp [text, hescape]

/-- The quoted texts of a list are on one line. -/
theorem newline_notMem_list (ts : List Text) : '\n' ∉ list plain ts := by
  have htexts : '\n' ∉ List.intercalate [',', ' '] (ts.map (text plain)) := by
    refine Text.notMem_intercalate (by decide) fun t ht => ?_
    obtain ⟨s, -, rfl⟩ := List.mem_map.1 ht
    exact newline_notMem_text plain s
  simp [list, htexts]

end StringRewriting.Quoted
