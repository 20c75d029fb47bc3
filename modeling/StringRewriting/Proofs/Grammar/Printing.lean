import StringRewriting.Proofs.Grammar.Reading

/-!
# Reading what was printed

A grammar is printed without any escapes: a line takes all the consecutive rules with one left side,
and reading trims its end. So what is read back are the same rules, but the last one of every run
has lost the blanks at the end of its right side.

* `RuleLine.ofRules_cons`: how a rule joins the lines of the rules behind it.
* `Rule.trimRuns`, `RuleLine.flatMap_sides_ofRules`: the rules that the printed lines state.
* `Grammar.ofSource_render`: the grammar that is read back.
-/

namespace StringRewriting

/-! ## Words without signs of the format -/

/-- Neither side of a rule has a sign that would end it when it is read. -/
structure Rule.IsPlain (r : Rule) : Prop where
  /-- The left-hand side stays on one line. -/
  newline_notMem_lhs : '\n' ∉ r.lhs
  /-- The left-hand side has no sign between sides. -/
  sign_notMem_lhs : '=' ∉ r.lhs
  /-- The right-hand side stays on one line. -/
  newline_notMem_rhs : '\n' ∉ r.rhs
  /-- The right-hand side has no sign between sides. -/
  sign_notMem_rhs : '=' ∉ r.rhs
  /-- The right-hand side has no bar. -/
  bar_notMem_rhs : '|' ∉ r.rhs

/-- The headers stay on one line each, and the rules have no sign of the format in them. -/
structure Grammar.IsPlain (g : Grammar) : Prop where
  /-- The start word stays on one line. -/
  newline_notMem_start : '\n' ∉ g.start
  /-- The line feed is no symbol to be rewritten. -/
  newline_notMem_nonTerminals : '\n' ∉ g.nonTerminals
  /-- The line feed is no terminal. -/
  newline_notMem_terminals : '\n' ∉ g.terminals
  /-- The rules have no sign of the format in them. -/
  rules : ∀ r ∈ g.rules, r.IsPlain

/-! ## The rules on printed lines -/

/-- A rule without the blanks at the end of its right-hand side. -/
def Rule.trimmed (r : Rule) : Rule := { r with rhs := Text.trimEnd r.rhs }

/-- Rules of which the last ones of runs with one left-hand side are trimmed. -/
def Rule.trimRuns : List Rule → List Rule
  | [] => []
  | r :: rs => (if rs.head?.map Rule.lhs = some r.lhs then r else r.trimmed) :: trimRuns rs

namespace RuleLine

/-- A rule joins the first line of the rules behind it if the left-hand sides agree. Otherwise it
has a line to itself. -/
theorem ofRules_cons (r : Rule) (rs : List Rule) :
    (rs.head?.map Rule.lhs = some r.lhs ∧ ∃ l ls, ofRules rs = l :: ls ∧ l.lhs = r.lhs ∧
      ofRules (r :: rs) = ⟨r.lhs, r.rhs, l.alternatives⟩ :: ls) ∨
    (rs.head?.map Rule.lhs ≠ some r.lhs ∧
      ofRules (r :: rs) = ⟨r.lhs, r.rhs, []⟩ :: ofRules rs) := by
  have hhead : (ofRules rs).head?.map RuleLine.lhs = rs.head?.map Rule.lhs := by
    cases rs with
    | nil => rfl
    | cons r' rs' =>
      rw [ofRules]
      split
      · rfl
      · split <;> rfl
  rw [← hhead, ofRules]
  cases hrs : ofRules rs with
  | nil => exact .inr ⟨by simp, rfl⟩
  | cons l ls =>
    by_cases hl : l.lhs = r.lhs
    · exact .inl ⟨by simp [hl], l, ls, rfl, hl, if_pos hl⟩
    · exact .inr ⟨by simpa using hl, if_neg hl⟩

/-- Each alternative of a line is the right-hand side of one of the rules. -/
theorem exists_rule_of_mem_ofRules {rs : List Rule} {l : RuleLine} (hl : l ∈ ofRules rs) {a : Word}
    (ha : a ∈ l.alternatives) : ∃ r ∈ rs, r.lhs = l.lhs ∧ r.rhs = a := by
  induction rs generalizing l with
  | nil => simp [ofRules] at hl
  | cons r rs ih =>
    rcases ofRules_cons r rs with ⟨-, l₁, ls, hrs, hlhs, hcons⟩ | ⟨-, hcons⟩
    · rw [hcons, List.mem_cons] at hl
      rcases hl with rfl | hl
      · rcases List.mem_cons.1 ha with rfl | ha
        · exact ⟨r, by simp, rfl, rfl⟩
        · obtain ⟨r', hr', hlhs', hrhs⟩ := ih (l := l₁) (by simp [hrs]) ha
          exact ⟨r', by simp [hr'], hlhs'.trans hlhs, hrhs⟩
      · obtain ⟨r', hr', h⟩ := ih (by simp [hrs, hl]) ha
        exact ⟨r', by simp [hr'], h⟩
    · rw [hcons, List.mem_cons] at hl
      rcases hl with rfl | hl
      · obtain rfl := List.mem_singleton.1 ha
        exact ⟨r, by simp, rfl, rfl⟩
      · obtain ⟨r', hr', h⟩ := ih hl ha
        exact ⟨r', by simp [hr'], h⟩

/-- The sides of the rules on a line whose last alternative is trimmed. -/
def trimmedSides (l : RuleLine) : List (Word × Word) :=
  (Text.trimLast l.alternatives).map (l.lhs, ·)

/-- Trimming every line trims the last rule of every run. -/
theorem flatMap_trimmedSides_ofRules (rs : List Rule) :
    (ofRules rs).flatMap trimmedSides = (Rule.trimRuns rs).map Rule.sides := by
  induction rs with
  | nil => rfl
  | cons r rs ih =>
    rw [Rule.trimRuns, List.map_cons]
    rcases ofRules_cons r rs with ⟨hsame, l, ls, hrs, hlhs, hcons⟩ | ⟨hother, hcons⟩
    · rw [hcons, if_pos hsame, ← ih, hrs, List.flatMap_cons, List.flatMap_cons, ← List.cons_append]
      congr 1
      rw [trimmedSides, trimmedSides, hlhs]
      rfl
    · rw [hcons, if_neg hother, ← ih]
      rfl

/-- A line whose words have no sign of the format in them is read back as it was written, but for
the blanks at its end. -/
theorem sides_trimEnd_render {l : RuleLine} (hne : l.lhs ≠ []) (hlhs : '=' ∉ l.lhs)
    (halts : ∀ a ∈ l.alternatives, '=' ∉ a ∧ '|' ∉ a) :
    (Text.trimEnd l.render).IsRuleLine ∧ sides (Text.trimEnd l.render) = l.trimmedSides := by
  have hrender : Text.trimEnd l.render =
      l.lhs ++ '=' :: List.intercalate ['|'] (Text.trimLast l.alternatives) := by
    rw [render, Text.trimEnd_append_cons (by decide), Text.trimEnd_intercalate (by decide)]
  have htrim : ∀ a ∈ Text.trimLast l.alternatives, '=' ∉ a ∧ '|' ∉ a := by
    intro a ha
    obtain ⟨b, hb, hsub⟩ := Text.exists_mem_of_mem_trimLast ha
    exact ⟨fun hc => (halts b hb).1 (hsub _ hc), fun hc => (halts b hb).2 (hsub _ hc)⟩
  rw [hrender]
  constructor
  · refine Text.isRuleLine_iff.2 ⟨l.lhs, _, rfl, hne, hlhs, ?_⟩
    exact Text.notMem_intercalate (by decide) fun a ha => (htrim a ha).1
  · rw [sides_append hlhs, List.splitOn_intercalate '|' (fun a ha => (htrim a ha).2)
      (Text.trimLast_ne_nil (List.cons_ne_nil _ _)), trimmedSides]

theorem newline_notMem_render {l : RuleLine} (hlhs : '\n' ∉ l.lhs)
    (halts : ∀ a ∈ l.alternatives, '\n' ∉ a) : '\n' ∉ l.render := by
  have hbody : '\n' ∉ List.intercalate ['|'] l.alternatives :=
    Text.notMem_intercalate (by decide) halts
  simp [render, hlhs, hbody]

end RuleLine

/-! ## Whole sources -/

namespace Grammar

variable {g : Grammar}

theorem sourceLines_render (h : g.IsPlain) :
    sourceLines g.render = Text.trimEnd g.start :: Text.trimEnd g.nonTerminals.toWord ::
      Text.trimEnd g.terminals.toWord ::
        (RuleLine.ofRules g.rules).map fun l => Text.trimEnd l.render := by
  have hlines : ∀ t ∈ g.start :: g.nonTerminals.toWord :: g.terminals.toWord ::
      (RuleLine.ofRules g.rules).map RuleLine.render, '\n' ∉ t := by
    simp only [List.forall_mem_cons, List.forall_mem_map]
    refine ⟨h.newline_notMem_start, h.newline_notMem_nonTerminals, h.newline_notMem_terminals, ?_⟩
    intro l hl
    obtain ⟨r, hr, hlhs, -⟩ :=
      RuleLine.exists_rule_of_mem_ofRules hl (a := l.first) (List.mem_cons_self ..)
    refine RuleLine.newline_notMem_render (hlhs ▸ (h.rules r hr).newline_notMem_lhs) fun a ha => ?_
    obtain ⟨r', hr', -, rfl⟩ := RuleLine.exists_rule_of_mem_ofRules hl ha
    exact (h.rules r' hr').newline_notMem_rhs
  rw [sourceLines, ← Text.lines_eq_pieces, render, Text.lines_unlines hlines]
  simp only [List.map_cons, List.map_map]
  rfl

/-- **What is read back from a printed grammar without signs of the format in it**: blanks at the
ends of its lines are lost, and nothing else. -/
theorem ofSource_render (h : g.IsPlain) :
    ofSource g.render = .ok ⟨Text.trimEnd g.start, .ofSymbols (Text.trimEnd g.nonTerminals.toWord),
      .ofSymbols (Text.trimEnd g.terminals.toWord), Rule.trimRuns g.rules⟩ := by
  have hline : ∀ l ∈ RuleLine.ofRules g.rules, (Text.trimEnd l.render).IsRuleLine ∧
      RuleLine.sides (Text.trimEnd l.render) = l.trimmedSides := by
    intro l hl
    obtain ⟨r, hr, hlhs, -⟩ :=
      RuleLine.exists_rule_of_mem_ofRules hl (a := l.first) (List.mem_cons_self ..)
    refine RuleLine.sides_trimEnd_render (hlhs ▸ r.lhs_ne_nil)
      (hlhs ▸ (h.rules r hr).sign_notMem_lhs) fun a ha => ?_
    obtain ⟨r', hr', -, rfl⟩ := RuleLine.exists_rule_of_mem_ofRules hl ha
    exact ⟨(h.rules r' hr').sign_notMem_rhs, (h.rules r' hr').bar_notMem_rhs⟩
  refine ofSource_eq_ok_iff.2 ⟨_, _, _, _, sourceLines_render h, ?_, rfl, rfl, rfl, ?_⟩
  · rw [List.forall_mem_map]
    exact fun l hl => (hline l hl).1
  · rw [List.flatMap_map, ← RuleLine.flatMap_trimmedSides_ofRules, List.flatMap_def,
      List.flatMap_def, List.map_congr_left fun l hl => (hline l hl).2]

end Grammar

end StringRewriting
