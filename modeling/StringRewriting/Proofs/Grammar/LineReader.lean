import StringRewriting.Proofs.Grammar.RuleLine
import StringRewriting.Proofs.Text.Readers

/-!
# Rule lines from general readers

A rule line can be read with readers that know nothing of rules: up to the sign between sides, the
sign, and a list of alternatives with bars in between. Put together they read what `RuleLine.read?`
reads symbol by symbol, and they fail where it fails.

* `RuleLine.read?_eq_some_iff`: what is read is the one way to cut a text into the parts of a rule
  line and a rest that begins with the sign between sides.
* `Combinators.ruleLine`, `Combinators.Lawful.ruleLine_eq`: the readers put together.
* `Combinators.ruleLine_loses_nothing`: every line.
-/

namespace StringRewriting

/-! ## The parts of a rule line -/

namespace RuleLine

/-- The parts of a rule line with what is left behind it make up a text, and each part ends at the
first sign that can end it. -/
structure Splits (t lhs : Text) (alternatives : List Text) (rest : Text) : Prop where
  /-- There is an alternative, be it the empty one. -/
  ne_nil : alternatives ≠ []
  /-- Nothing is lost. -/
  append_eq : lhs ++ '=' :: (List.intercalate ['|'] alternatives ++ rest) = t
  /-- The left side ends at the first sign between sides. -/
  sign_notMem_lhs : '=' ∉ lhs
  /-- An alternative ends at the first bar or sign between sides. -/
  notMem_alternatives : ∀ a ∈ alternatives, '=' ∉ a ∧ '|' ∉ a
  /-- The last alternative ends only at a sign between sides or where the text ends. -/
  rest_cases : rest = [] ∨ ∃ u, rest = '=' :: u

/-- A text is cut in front of its first sign between sides, if there is one. -/
theorem exists_append_of_sign (t : Text) :
    ∃ a rest, t = a ++ rest ∧ '=' ∉ a ∧ (rest = [] ∨ ∃ u, rest = '=' :: u) := by
  by_cases h : '=' ∈ t
  · obtain ⟨a, u, rfl, ha⟩ := List.eq_append_cons_of_mem h
    exact ⟨a, '=' :: u, rfl, ha, .inr ⟨u, rfl⟩⟩
  · exact ⟨t, [], (List.append_nil t).symm, h, .inl rfl⟩

theorem eq_sign_of_mem_head? {rest : Text} (h : rest = [] ∨ ∃ u, rest = '=' :: u) :
    ∀ c ∈ rest.head?, c = '=' := by
  rcases h with rfl | ⟨u, rfl⟩
  · simp
  · simp

/-- What is read is the one way to cut a text into the parts of a rule line. -/
theorem read?_eq_some_iff {t rest : Text} {l : RuleLine} :
    read? t = some (l, rest) ↔ Splits t l.lhs l.alternatives rest := by
  constructor
  · intro h
    have hsign : '=' ∈ t := Decidable.byContradiction fun hno => by
      rw [read?_of_notMem hno] at h
      exact nomatch h
    obtain ⟨lhs, t, rfl, hlhs⟩ := List.eq_append_cons_of_mem hsign
    obtain ⟨u, r, rfl, hu, hr⟩ := exists_append_of_sign t
    obtain ⟨p, ps, hps⟩ := Text.exists_splitOn_eq_cons '|' u
    rw [read?_append hlhs, readAlternatives_append hu (eq_sign_of_mem_head? hr) hps,
      Option.some.injEq, Prod.mk.injEq] at h
    obtain ⟨rfl, rfl⟩ := h
    have hpieces : u.splitOn '|' = alternatives ⟨lhs, p, ps⟩ := hps
    refine ⟨List.cons_ne_nil p ps, ?_, hlhs, fun a ha => ?_, hr⟩
    · rw [← hpieces, List.intercalate_splitOn]
    · rw [← hpieces] at ha
      exact ⟨fun hc => hu (Text.mem_of_mem_splitOn ha hc), Text.notMem_of_mem_splitOn ha⟩
  · rintro ⟨hne, rfl, hlhs, hnotMem, hrest⟩
    have hu : '=' ∉ List.intercalate ['|'] l.alternatives :=
      Text.notMem_intercalate (by decide) fun a ha => (hnotMem a ha).1
    have hpieces : (List.intercalate ['|'] l.alternatives).splitOn '|' = l.first :: l.others :=
      List.splitOn_intercalate '|' (fun a ha => (hnotMem a ha).2) hne
    rw [read?_append hlhs, readAlternatives_append hu (eq_sign_of_mem_head? hrest) hpieces]

theorem read?_eq_none_iff {t : Text} : read? t = none ↔ '=' ∉ t := by
  constructor
  · intro h hsign
    obtain ⟨lhs, u, rfl, hlhs⟩ := List.eq_append_cons_of_mem hsign
    rw [read?_append hlhs] at h
    simp at h
  · exact read?_of_notMem

/-- A whole line is read exactly if it has one sign between sides. -/
theorem exists_ofLine_eq_ok_iff {t : Text} : (∃ l, ofLine t = .ok l) ↔ t.count '=' = 1 := by
  by_cases hzero : t.count '=' = 0
  · rw [ofLine_of_notMem (List.count_eq_zero.1 hzero), hzero]
    exact iff_of_false nofun nofun
  · obtain ⟨lhs, u, rfl, hlhs, hcount⟩ := Text.exists_append_of_count_pos (Nat.pos_of_ne_zero hzero)
    rw [hcount]
    by_cases hu : '=' ∈ u
    · have hpos : 0 < u.count '=' := List.count_pos_iff.2 hu
      rw [ofLine_append_of_mem hlhs hu]
      exact iff_of_false nofun (by omega)
    · obtain ⟨p, ps, hps⟩ := Text.exists_splitOn_eq_cons '|' u
      rw [ofLine_append hlhs hu hps, List.count_eq_zero.2 hu]
      exact iff_of_true ⟨_, rfl⟩ rfl

end RuleLine

/-! ## The reader of a rule line -/

namespace Combinators

/-- Whether a symbol ends an alternative. -/
def endsAlternative (c : Char) : Bool :=
  c == '|' || c == '='

/-- Reads a left-hand side and its alternatives. -/
def ruleLine (k : Combinators) : Reader (Text × List Text) :=
  k.separatedPair (k.takeTill (· == '=')) (k.symbol '=')
    (k.separatedList (k.symbol '|') (k.takeTill endsAlternative))

namespace Lawful

variable {k : Combinators}

/-- The first alternative ends at a bar or a sign between sides, and bars and alternatives stand in
turn behind it. -/
theorem exists_alternates (hk : k.Lawful) {t rest : Text} {first : Word} {others : List Word}
    (h : RuleLine.readAlternatives t = (first, others, rest)) :
    ∃ t₁, k.takeTill endsAlternative t = .ok (first, t₁) ∧ t₁.length ≤ t.length ∧
      Reader.Alternates (k.symbol '|') (k.takeTill endsAlternative) t₁ others rest := by
  induction t generalizing first others rest with
  | nil =>
    simp only [RuleLine.readAlternatives, Prod.mk.injEq] at h
    obtain ⟨rfl, rfl, rfl⟩ := h
    exact ⟨[], hk.takeTill _ _, Nat.le_refl _, .noSeparator (hk.symbol_nil '|')⟩
  | cons c t ih =>
    obtain ⟨f, o, r, hread⟩ : ∃ f o r, RuleLine.readAlternatives t = (f, o, r) := ⟨_, _, _, rfl⟩
    obtain ⟨t₁, htake, hle, halternates⟩ := ih hread
    rw [RuleLine.readAlternatives, hread] at h
    by_cases hsign : c = '='
    · subst hsign
      simp only [if_true, Prod.mk.injEq] at h
      obtain ⟨rfl, rfl, rfl⟩ := h
      exact ⟨'=' :: t, hk.takeTill_cons_of_stop rfl t, Nat.le_refl _,
        .noSeparator (hk.symbol_of_head?_ne '|' ('=' :: t) (by simp))⟩
    by_cases hbar : c = '|'
    · -- the alternative is empty, and those of the rest follow behind the bar
      subst hbar
      simp only [if_neg hsign, if_true, Prod.mk.injEq] at h
      obtain ⟨rfl, rfl, rfl⟩ := h
      exact ⟨'|' :: t, hk.takeTill_cons_of_stop rfl t, Nat.le_refl _,
        .more (hk.symbol_cons '|' t) (Nat.lt_succ_self _) htake hle halternates⟩
    · simp only [if_neg hsign, if_neg hbar, Prod.mk.injEq] at h
      obtain ⟨rfl, rfl, rfl⟩ := h
      have hpass : endsAlternative c = false := by simp [endsAlternative, hsign, hbar]
      exact ⟨t₁, hk.takeTill_cons_of_pass hpass htake, Nat.le_succ_of_le hle, halternates⟩

/-- The readers read the alternatives that are read symbol by symbol. -/
theorem separatedList_eq (hk : k.Lawful) (t : Text) :
    k.separatedList (k.symbol '|') (k.takeTill endsAlternative) t =
      .ok ((RuleLine.readAlternatives t).1 :: (RuleLine.readAlternatives t).2.1,
        (RuleLine.readAlternatives t).2.2) := by
  obtain ⟨t₁, htake, -, halternates⟩ := hk.exists_alternates (t := t) rfl
  exact hk.separatedList_of_ok _ _ htake halternates

/-- A text is read up to its first sign between sides. -/
theorem takeTill_append (hk : k.Lawful) {a rest : Text} (ha : '=' ∉ a)
    (hrest : rest = [] ∨ ∃ u, rest = '=' :: u) :
    k.takeTill (· == '=') (a ++ rest) = .ok (a, rest) := by
  induction a with
  | nil =>
    rcases hrest with rfl | ⟨u, rfl⟩
    · exact hk.takeTill _ _
    · exact hk.takeTill_cons_of_stop rfl u
  | cons c a ih =>
    rw [List.mem_cons, not_or] at ha
    exact hk.takeTill_cons_of_pass (beq_false_of_ne (Ne.symm ha.1)) (ih ha.2)

/-- The readers read the rule line that is read symbol by symbol, and fail where there is none. -/
theorem ruleLine_eq (hk : k.Lawful) (t : Text) :
    k.ruleLine t = match RuleLine.read? t with
      | some (l, rest) => .ok ((l.lhs, l.alternatives), rest)
      | none => .error ⟨.symbol, []⟩ := by
  obtain ⟨lhs, rest, rfl, hlhs, hrest⟩ := RuleLine.exists_append_of_sign t
  rw [ruleLine, hk.separatedPair, hk.takeTill_append hlhs hrest]
  show (k.symbol '=' rest >>= _) = _
  rcases hrest with rfl | ⟨u, rfl⟩
  · rw [List.append_nil, RuleLine.read?_of_notMem hlhs, hk.symbol_nil]
    rfl
  · rw [RuleLine.read?_append hlhs, hk.symbol_cons]
    show (k.separatedList (k.symbol '|') (k.takeTill endsAlternative) u >>= _) = _
    rw [hk.separatedList_eq]
    rfl

theorem ruleLine_eq_ok_iff (hk : k.Lawful) {t lhs rest : Text} {alternatives : List Text} :
    k.ruleLine t = .ok ((lhs, alternatives), rest) ↔
      RuleLine.Splits t lhs alternatives rest := by
  rw [hk.ruleLine_eq]
  constructor
  · intro h
    cases hread : RuleLine.read? t with
    | none => simp [hread] at h
    | some p =>
      obtain ⟨l, r⟩ := p
      simp only [hread, Except.ok.injEq, Prod.mk.injEq] at h
      obtain ⟨⟨rfl, rfl⟩, rfl⟩ := h
      exact RuleLine.read?_eq_some_iff.1 hread
  · intro h
    obtain ⟨first, others, rfl⟩ := List.exists_cons_of_ne_nil h.ne_nil
    rw [RuleLine.read?_eq_some_iff (l := ⟨lhs, first, others⟩).2 h]
    rfl

end Lawful

end Combinators

/-! ## Whole lines -/

/-- What is wrong with a line on which a reader fails, as far as there is a wording for it. -/
def LineFault.ofReader? : Reader.Fault → Option LineFault
  | ⟨.symbol, _⟩ => some .noSeparator
  | ⟨.unread, '=' :: _⟩ => some .extraSeparator
  | _ => none

namespace Combinators

variable {k : Combinators}

/-- A whole line is read by the readers as it is read symbol by symbol, and what is wrong with it
has a wording. -/
theorem Lawful.allConsuming_ruleLine (hk : k.Lawful) (t : Text) :
    (∃ l, RuleLine.ofLine t = .ok l ∧
      k.allConsuming k.ruleLine t = .ok ((l.lhs, l.alternatives), [])) ∨
    ∃ e fault, k.allConsuming k.ruleLine t = .error e ∧ LineFault.ofReader? e = some fault ∧
      RuleLine.ofLine t = .error fault := by
  have hline := hk.ruleLine_eq t
  cases hread : RuleLine.read? t with
  | none =>
    rw [hread] at hline
    have hoff : RuleLine.ofLine t = .error .noSeparator := by rw [RuleLine.ofLine, hread]
    exact .inr ⟨_, _, hk.allConsuming_of_error _ hline, rfl, hoff⟩
  | some p =>
    obtain ⟨l, rest⟩ := p
    rw [hread] at hline
    rcases (RuleLine.read?_eq_some_iff.1 hread).rest_cases with rfl | ⟨u, rfl⟩
    · have hwhole : RuleLine.ofLine t = .ok l := by rw [RuleLine.ofLine, hread]
      exact .inl ⟨l, hwhole, hk.allConsuming_of_nil _ hline⟩
    · have hextra : RuleLine.ofLine t = .error .extraSeparator := by rw [RuleLine.ofLine, hread]
      exact .inr ⟨_, _, hk.allConsuming_of_cons _ hline, rfl, hextra⟩

/-- **Reading a rule line loses nothing and stops only at a sign between sides.** The readers fail
exactly if there is no such sign. Else they read the left side in front of the first one and at
least one alternative, and what remains is nothing or begins with the second one: there is one such
way to cut the line, and it is the one that is read symbol by symbol. A whole line is read exactly
if it has one sign between sides; where it has not, the failure is one that has a wording. -/
theorem ruleLine_loses_nothing (hk : k.Lawful) (t : Text) :
    ((∃ e, k.ruleLine t = .error e) ↔ '=' ∉ t) ∧
    (∀ lhs alternatives rest, k.ruleLine t = .ok ((lhs, alternatives), rest) ↔
      RuleLine.Splits t lhs alternatives rest) ∧
    (∀ l rest, RuleLine.read? t = some (l, rest) ↔
      k.ruleLine t = .ok ((l.lhs, l.alternatives), rest)) ∧
    ((∃ r, k.allConsuming k.ruleLine t = .ok r) ↔ t.count '=' = 1) ∧
    ((∃ l, RuleLine.ofLine t = .ok l ∧
      k.allConsuming k.ruleLine t = .ok ((l.lhs, l.alternatives), [])) ∨
    ∃ e fault, k.allConsuming k.ruleLine t = .error e ∧ LineFault.ofReader? e = some fault ∧
      RuleLine.ofLine t = .error fault) := by
  refine ⟨?_, fun lhs alternatives rest => hk.ruleLine_eq_ok_iff, fun l rest => ?_, ?_,
    hk.allConsuming_ruleLine t⟩
  · rw [← RuleLine.read?_eq_none_iff, hk.ruleLine_eq]
    cases RuleLine.read? t with
    | none => exact iff_of_true ⟨_, rfl⟩ rfl
    | some p => exact iff_of_false nofun nofun
  · rw [hk.ruleLine_eq_ok_iff, RuleLine.read?_eq_some_iff]
  · rw [← RuleLine.exists_ofLine_eq_ok_iff]
    rcases hk.allConsuming_ruleLine t with ⟨l, hwhole, hall⟩ | ⟨e, fault, hall, -, hfault⟩
    · exact iff_of_true ⟨_, hall⟩ ⟨l, hwhole⟩
    · rw [hall, hfault]
      exact iff_of_false nofun nofun

/-- Two of the alternatives are empty, and a second sign between sides follows the last of them. -/
theorem ruleLine_loses_nothing_empty : plain.Lawful ∧
    plain.ruleLine ['S', '=', 'a', '|', '|', 'b', '|', '=', 'c'] =
      .ok ((['S'], [['a'], [], ['b'], []]), ['=', 'c']) ∧
    RuleLine.read? ['S', '=', 'a', '|', '|', 'b', '|', '=', 'c'] =
      some (⟨['S'], ['a'], [[], ['b'], []]⟩, ['=', 'c']) := by
  obtain ⟨-, hread, hsame, -⟩ :=
    ruleLine_loses_nothing plain_lawful ['S', '=', 'a', '|', '|', 'b', '|', '=', 'c']
  have hline := (hread ['S'] [['a'], [], ['b'], []] ['=', 'c']).2
    ⟨by decide, rfl, by decide, by decide, .inr ⟨['c'], rfl⟩⟩
  exact ⟨plain_lawful, hline, (hsame ⟨['S'], ['a'], [[], ['b'], []]⟩ ['=', 'c']).2 hline⟩

end Combinators

end StringRewriting
