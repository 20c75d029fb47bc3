/-!
# Sets of code points

Properties of Unicode scalar values are given as ascending lists of disjoint inclusive ranges of
code points. `mem_iff`: on such a list the search that stops at the first range behind the code
point finds exactly the members of the ranges.
-/

namespace StringRewriting.Ranges

/-- Whether a code point lies in one of the inclusive ranges of an ascending list. -/
def mem (n : Nat) : List (Nat × Nat) → Bool
  | [] => false
  | (lo, hi) :: rs => if n < lo then false else n ≤ hi || mem n rs

/-- Behind the first range and before the second there are no members. -/
theorem mem_eq_false_of_between {n : Nat} {r s : Nat × Nat} {rs : List (Nat × Nat)}
    (hr : r.2 < n) (hs : n < s.1) : mem n (r :: s :: rs) = false := by
  rw [mem, mem, if_pos hs]
  split
  · rfl
  · simpa using hr

/-- On ascending ranges the search misses no member. -/
theorem mem_iff {n : Nat} {rs : List (Nat × Nat)} (h : rs.Pairwise fun r s => r.1 ≤ s.1) :
    mem n rs ↔ ∃ r ∈ rs, r.1 ≤ n ∧ n ≤ r.2 := by
  induction rs with
  | nil => simp [mem]
  | cons r rs ih =>
    obtain ⟨hr, hrs⟩ := List.pairwise_cons.1 h
    rw [mem]
    split
    · next hlt =>
      simp only [Bool.false_eq_true, false_iff]
      rintro ⟨s, hs, hle, -⟩
      rcases List.mem_cons.1 hs with rfl | hs
      · omega
      · have := hr s hs
        omega
    · next hge =>
      simp only [Bool.or_eq_true, decide_eq_true_eq, ih hrs, List.mem_cons, exists_eq_or_imp]
      exact or_congr_left ⟨fun hle => ⟨by omega, hle⟩, And.right⟩

end StringRewriting.Ranges
