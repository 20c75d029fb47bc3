import StringRewriting.Grammar.Source
import StringRewriting.Proofs.Text.Lines

/-!
# Rule lines

A line with exactly one sign between sides states a left-hand side and, split at the bars, its
alternatives. Any other line is at fault, and so is one without a left-hand side.

* `RuleLine.readAlternatives_append`, `RuleLine.read?_append`: the longest rule line at the front.
* `RuleLine.ofLine_append`, `RuleLine.ofLine_append_of_mem`, `RuleLine.ofLine_of_notMem`: a whole
  line.
* `Text.IsRuleLine`, `Text.isRuleLine_iff`: the lines that are not at fault.
* `Rule.mapM_ofSides_eq_ok_iff`, `RuleLine.rules_eq`: the rules of a line are those with its sides.
-/

namespace StringRewriting

namespace RuleLine

/-! ## Reading a line -/

/-- Up to the next sign between sides, the alternatives are the pieces between bars. -/
theorem readAlternatives_append {u rest : Text} {first : Word} {others : List Word} (hu : '=' ∉ u)
    (hrest : ∀ c ∈ rest.head?, c = '=') (h : u.splitOn '|' = first :: others) :
    readAlternatives (u ++ rest) = (first, others, rest) := by
  induction u generalizing first others with
  | nil =>
    simp only [List.splitOn_nil, List.cons.injEq] at h
    obtain ⟨rfl, rfl⟩ := h
    cases rest with
    | nil => rfl
    | cons c t =>
      obtain rfl : c = '=' := hrest c rfl
      rfl
  | cons c u ih =>
    rw [List.mem_cons, not_or] at hu
    obtain ⟨p, ps, hps⟩ := Text.exists_splitOn_eq_cons '|' u
    rw [List.cons_append, readAlternatives, if_neg (Ne.symm hu.1), ih hu.2 hps]
    by_cases hc : c = '|'
    · subst hc
      rw [Text.splitOn_cons_self, hps, List.cons.injEq] at h
      obtain ⟨rfl, rfl⟩ := h
      rfl
    · rw [Text.splitOn_cons_of_ne hc, hps, List.modifyHead_cons, List.cons.injEq] at h
      obtain ⟨rfl, rfl⟩ := h
      simp only [if_neg hc]

theorem read?_append {lhs : Text} (h : '=' ∉ lhs) (t : Text) :
    read? (lhs ++ '=' :: t) =
      some (⟨lhs, (readAlternatives t).1, (readAlternatives t).2.1⟩, (readAlternatives t).2.2) := by
  induction lhs with
  | nil => rfl
  | cons c lhs ih =>
    rw [List.mem_cons, not_or] at h
    rw [List.cons_append, read?, if_neg (Ne.symm h.1), ih h.2]
    rfl

theorem read?_of_notMem {t : Text} (h : '=' ∉ t) : read? t = none := by
  induction t with
  | nil => rfl
  | cons c t ih =>
    rw [List.mem_cons, not_or] at h
    rw [read?, if_neg (Ne.symm h.1), ih h.2]
    rfl

theorem ofLine_of_notMem {t : Text} (h : '=' ∉ t) : ofLine t = .error .noSeparator := by
  rw [ofLine, read?_of_notMem h]

/-- A line with one sign between sides states the two sides, the right one split at the bars. -/
theorem ofLine_append {lhs u : Text} {first : Word} {others : List Word} (hlhs : '=' ∉ lhs)
    (hu : '=' ∉ u) (h : u.splitOn '|' = first :: others) :
    ofLine (lhs ++ '=' :: u) = .ok ⟨lhs, first, others⟩ := by
  have hread : readAlternatives (u ++ []) = (first, others, []) :=
    readAlternatives_append hu (by simp) h
  rw [List.append_nil] at hread
  rw [ofLine, read?_append hlhs, hread]

theorem ofLine_append_of_mem {lhs u : Text} (hlhs : '=' ∉ lhs) (hu : '=' ∈ u) :
    ofLine (lhs ++ '=' :: u) = .error .extraSeparator := by
  obtain ⟨a, b, rfl, ha⟩ := List.eq_append_cons_of_mem hu
  obtain ⟨p, ps, hps⟩ := Text.exists_splitOn_eq_cons '|' a
  have hread : readAlternatives (a ++ '=' :: b) = (p, ps, '=' :: b) :=
    readAlternatives_append ha (by simp) hps
  rw [ofLine, read?_append hlhs, hread]

end RuleLine

/-! ## Lines that are not at fault -/

/-- A line states rules if it has exactly one sign between sides, and something in front of it. -/
def Text.IsRuleLine (t : Text) : Prop :=
  t.count '=' = 1 ∧ t.head? ≠ some '='

instance (t : Text) : Decidable t.IsRuleLine :=
  inferInstanceAs (Decidable (_ ∧ _))

theorem Text.exists_append_of_count_pos {t : Text} (h : 0 < t.count '=') :
    ∃ lhs u, t = lhs ++ '=' :: u ∧ '=' ∉ lhs ∧ t.count '=' = u.count '=' + 1 := by
  obtain ⟨lhs, u, rfl, hlhs⟩ := List.eq_append_cons_of_mem (List.count_pos_iff.1 h)
  refine ⟨lhs, u, rfl, hlhs, ?_⟩
  rw [List.count_append, List.count_eq_zero.2 hlhs, List.count_cons_self, Nat.zero_add]

theorem Text.isRuleLine_iff {t : Text} :
    t.IsRuleLine ↔ ∃ lhs u, t = lhs ++ '=' :: u ∧ lhs ≠ [] ∧ '=' ∉ lhs ∧ '=' ∉ u := by
  constructor
  · rintro ⟨hcount, hhead⟩
    obtain ⟨lhs, u, rfl, hlhs, hu⟩ := exists_append_of_count_pos (t := t) (by omega)
    refine ⟨lhs, u, rfl, ?_, hlhs, List.count_eq_zero.1 (by omega)⟩
    rintro rfl
    exact hhead rfl
  · rintro ⟨lhs, u, rfl, hne, hlhs, hu⟩
    obtain ⟨c, lhs, rfl⟩ := List.exists_cons_of_ne_nil hne
    constructor
    · rw [List.count_append, List.count_eq_zero.2 hlhs, List.count_cons_self,
        List.count_eq_zero.2 hu]
    · intro hhead
      simp_all

/-! ## Making rules -/

/-- Both sides of a rule. -/
def Rule.sides (r : Rule) : Word × Word := (r.lhs, r.rhs)

theorem Rule.sides_injective {r r' : Rule} (h : r.sides = r'.sides) : r = r' := by
  cases r
  cases r'
  simpa [sides] using h

/-- What is made in two attempts is made in both. -/
theorem bind_eq_ok_iff {ε α β : Type} {x : Except ε α} {f : α → Except ε β} {b : β} :
    (x >>= f) = .ok b ↔ ∃ a, x = .ok a ∧ f a = .ok b := by
  cases x with
  | error e => exact iff_of_false nofun (by rintro ⟨_, ⟨⟩, _⟩)
  | ok a =>
    constructor
    · intro h
      exact ⟨a, rfl, h⟩
    · rintro ⟨_, ⟨⟩, h⟩
      exact h

/-- Rules are made from pairs of sides exactly when they have these sides. -/
theorem Rule.mapM_ofSides_eq_ok_iff {ps : List (Word × Word)} {rs : List Rule} :
    (ps.mapM fun p => ofSides p.1 p.2) = .ok rs ↔ rs.map sides = ps := by
  induction ps generalizing rs with
  | nil =>
    rw [List.mapM_nil, List.map_eq_nil_iff]
    exact ⟨fun h => (Except.ok.inj h).symm, fun h => h ▸ rfl⟩
  | cons p ps ih =>
    simp only [List.mapM_cons, bind_eq_ok_iff, ofSides_eq_ok_iff, ih, List.map_eq_cons_iff]
    constructor
    · rintro ⟨r, ⟨hlhs, hrhs⟩, rs', hrs', h⟩
      obtain rfl := Except.ok.inj h
      exact ⟨r, rs', rfl, Prod.ext hlhs hrhs, hrs'⟩
    · rintro ⟨r, rs', rfl, rfl, hrs'⟩
      exact ⟨r, ⟨rfl, rfl⟩, rs', hrs', rfl⟩

/-- Pairs with left-hand sides are the sides of rules. -/
theorem Rule.exists_map_sides {ps : List (Word × Word)} (h : ∀ p ∈ ps, p.1 ≠ []) :
    ∃ rs : List Rule, rs.map sides = ps := by
  refine ⟨ps.pmap (fun p hp => ⟨p.1, p.2, hp⟩) h, ?_⟩
  rw [List.map_pmap]
  exact (List.pmap_eq_map h).trans (List.map_id ps)

namespace RuleLine

/-- The sides of the rules that a line states: what stands in front of the sign, with every piece
between bars behind it. -/
def sides (t : Text) : List (Word × Word) :=
  ((t.dropWhile (· ≠ '=')).tail.splitOn '|').map fun rhs => (t.takeWhile (· ≠ '='), rhs)

theorem sides_append {lhs : Text} (h : '=' ∉ lhs) (u : Text) :
    sides (lhs ++ '=' :: u) = (u.splitOn '|').map (lhs, ·) := by
  have hne : ∀ c ∈ lhs, decide (c ≠ '=') = true := by
    intro c hc
    exact decide_eq_true fun e => h (e ▸ hc)
  rw [sides, List.takeWhile_append_of_pos hne, List.dropWhile_append_of_pos hne]
  simp

/-- The sides that a line states have a left-hand side, and no sign of the format is left in them.
-/
theorem notMem_of_mem_sides {t : Text} (h : t.IsRuleLine) {p : Word × Word} (hp : p ∈ sides t) :
    p.1 ≠ [] ∧ '=' ∉ p.1 ∧ '=' ∉ p.2 ∧ '|' ∉ p.2 ∧ ∀ c ∉ t, c ∉ p.1 ∧ c ∉ p.2 := by
  obtain ⟨lhs, u, rfl, hne, hlhs, hu⟩ := Text.isRuleLine_iff.1 h
  rw [sides_append hlhs, List.mem_map] at hp
  obtain ⟨rhs, hrhs, rfl⟩ := hp
  have hsub : ∀ c ∈ rhs, c ∈ u := fun c hc => Text.mem_of_mem_splitOn hrhs hc
  refine ⟨hne, hlhs, fun hc => hu (hsub _ hc), Text.notMem_of_mem_splitOn hrhs, fun c hc => ?_⟩
  rw [List.mem_append, List.mem_cons, not_or, not_or] at hc
  exact ⟨hc.1, fun hmem => hc.2.2 (hsub c hmem)⟩

/-- The rules of a line are those with its sides. -/
theorem rules_eq (l : RuleLine) :
    l.rules = (l.alternatives.map (l.lhs, ·)).mapM fun p => Rule.ofSides p.1 p.2 := by
  rw [rules, List.mapM_map]
  rfl

end RuleLine

end StringRewriting
