import StringRewriting.Proofs.Grammar.RoundTrip

/-!
# Printing grammars that were read

The lines of a source carry no blanks at their ends, and a run of rules with one left side ends
where a line ended. So a grammar that was read keeps its start word and its rules when it is printed
and read again. Its alphabets are printed in code point order, which may put a blank at the end of a
line where there was none in the source; this blank is then lost.

* `Rule.trimRuns_append_eq_self`, `Rule.trimRuns_eq_self_of_sides`: rules that trimming leaves
  alone.
* `Alphabet.mem_ofSymbols_trimEnd`: what is left of a printed alphabet.
* `Grammar.ofSource_render_of_ofSource`: what is read the second time.
* `Grammar.ofSource_render_keeps_rules`: the start word and the rules.
* `Grammar.ofSource_render_alphabets`, `Grammar.ofSource_render_drops_blank`: the alphabets.
-/

namespace StringRewriting

/-! ## Lines of a source -/

/-- Of a text without blanks at its end, trimming leaves the last piece alone, too. -/
theorem Text.trimLast_splitOn {x : Char} (hx : isBlank x = false) {u : Text}
    (hu : trimEnd u = u) : trimLast (u.splitOn x) = u.splitOn x := by
  have hnotMem : ∀ p ∈ trimLast (u.splitOn x), x ∉ p := by
    intro p hp hc
    obtain ⟨q, hq, hsub⟩ := exists_mem_of_mem_trimLast hp
    exact notMem_of_mem_splitOn hq (hsub x hc)
  have hsame : List.intercalate [x] (trimLast (u.splitOn x)) = u := by
    rw [← trimEnd_intercalate hx, List.intercalate_splitOn, hu]
  rw [← List.splitOn_intercalate x hnotMem (trimLast_ne_nil (List.splitOn_ne_nil x u)), hsame]

namespace Rule

/-- Where trimming leaves two lists of rules alone, it leaves alone the one behind the other. -/
theorem trimRuns_append_eq_self {rs rs' : List Rule} (h : trimRuns rs = rs)
    (h' : trimRuns rs' = rs') : trimRuns (rs ++ rs') = rs ++ rs' := by
  induction rs with
  | nil => exact h'
  | cons r rs ih =>
    rw [trimRuns, List.cons.injEq] at h
    obtain ⟨hr, hrs⟩ := h
    rw [List.cons_append, trimRuns, ih hrs, List.cons.injEq, and_iff_left rfl]
    cases rs with
    | nil =>
      -- the rule ends its run, so that it is trimmed already, whatever comes behind it
      rw [List.head?_nil, Option.map_none, if_neg (Option.some_ne_none _).symm] at hr
      rw [hr, ite_self]
    | cons r' rs => exact hr

/-- The rules of one line are a run, and its last alternative ends it. -/
theorem map_sides_trimRuns {lhs : Word} {alternatives : List Word} {rs : List Rule}
    (h : rs.map sides = alternatives.map (lhs, ·)) :
    (trimRuns rs).map sides = (Text.trimLast alternatives).map (lhs, ·) := by
  fun_induction Text.trimLast alternatives generalizing rs with
  | case1 =>
    rw [List.map_nil, List.map_eq_nil_iff] at h
    rw [h]
    rfl
  | case2 a =>
    obtain ⟨r, rs', rfl, hr, hrs'⟩ := List.map_eq_cons_iff.1 h
    rw [List.map_nil, List.map_eq_nil_iff] at hrs'
    obtain ⟨rfl, rfl⟩ := Prod.mk.inj hr
    rw [hrs']
    rfl
  | case3 a b as ih =>
    obtain ⟨r, rs', rfl, hr, hrs'⟩ := List.map_eq_cons_iff.1 h
    obtain ⟨r', rs'', rfl, hr', -⟩ := List.map_eq_cons_iff.1 hrs'
    have hlhs : r'.lhs = r.lhs := (congrArg Prod.fst hr').trans (congrArg Prod.fst hr).symm
    have hsame : (r' :: rs'').head?.map Rule.lhs = some r.lhs := congrArg some hlhs
    rw [trimRuns, if_pos hsame, List.map_cons, ih hrs', hr, List.map_cons]

/-- Rules that lines without blanks at their ends state are left alone by trimming. -/
theorem trimRuns_eq_self_of_sides {ts : List Text} (hts : ∀ t ∈ ts, t.IsRuleLine)
    (htrim : ∀ t ∈ ts, Text.trimEnd t = t) {rs : List Rule}
    (h : rs.map sides = ts.flatMap RuleLine.sides) : trimRuns rs = rs := by
  induction ts generalizing rs with
  | nil =>
    rw [List.flatMap_nil, List.map_eq_nil_iff] at h
    rw [h]
    rfl
  | cons t ts ih =>
    rw [List.forall_mem_cons] at hts htrim
    rw [List.flatMap_cons] at h
    obtain ⟨rs₁, rs₂, rfl, h₁, h₂⟩ := List.map_eq_append_iff.1 h
    obtain ⟨lhs, u, rfl, -, hlhs, -⟩ := Text.isRuleLine_iff.1 hts.1
    have hu : Text.trimEnd u = u := by
      have hline := htrim.1
      rw [Text.trimEnd_append_cons (by decide), List.append_cancel_left_eq,
        List.cons.injEq] at hline
      exact hline.2
    rw [RuleLine.sides_append hlhs] at h₁
    refine trimRuns_append_eq_self ?_ (ih hts.2 htrim.2 h₂)
    refine (List.map_inj_right fun _ _ => sides_injective).1 ?_
    rw [map_sides_trimRuns h₁, Text.trimLast_splitOn (by decide) hu, h₁]

end Rule

/-! ## Alphabets -/

/-- Of a written alphabet are left the symbols up to the greatest one that is no blank. -/
theorem Alphabet.mem_ofSymbols_trimEnd {a : Alphabet} {c : Symbol} :
    c ∈ ofSymbols (Text.trimEnd a.toWord) ↔ c ∈ a ∧ ∃ d ∈ a, c ≤ d ∧ isBlank d = false := by
  obtain ⟨l, hl⟩ := a
  obtain ⟨b, hb, hblank⟩ := Text.exists_eq_trimEnd_append l
  have hascending := hl
  rw [hb, List.pairwise_append] at hascending
  obtain ⟨hkept, -, hbefore⟩ := hascending
  rw [mem_ofSymbols]
  simp only [mem_def, toWord]
  constructor
  · intro hc
    obtain ⟨d, hd⟩ := Option.ne_none_iff_exists'.1
      (mt List.getLast?_eq_none_iff.1 (List.ne_nil_of_mem hc))
    have hends : isBlank d = false := by
      have hends := Text.endsBlank_trimEnd l
      rwa [Text.endsBlank, hd, Option.any_some] at hends
    obtain ⟨hmem, hmax⟩ := (getLast?_eq_some_iff hkept).1 hd
    exact ⟨Text.mem_of_mem_trimEnd hc, d, Text.mem_of_mem_trimEnd hmem, hmax c hc, hends⟩
  · rintro ⟨hc, d, hd, hle, hends⟩
    rw [hb, List.mem_append] at hc hd
    have hdkept : d ∈ Text.trimEnd l := by
      refine hd.resolve_right fun hd => ?_
      rw [hblank d hd] at hends
      exact absurd hends (by decide)
    refine hc.resolve_right fun hc => ?_
    exact absurd (hbefore d hdkept c hc) (Char.not_lt.2 hle)

/-! ## Grammars -/

namespace Grammar

variable {s : Text} {g : Grammar}

theorem trimEnd_of_mem_sourceLines {t : Text} (h : t ∈ sourceLines s) : Text.trimEnd t = t := by
  obtain ⟨l, -, rfl⟩ := List.mem_map.1 h
  exact Text.trimEnd_trimEnd l

/-- **What is read from the printed form of a grammar that was read**: only the alphabets are
trimmed. -/
theorem ofSource_render_of_ofSource (h : ofSource s = .ok g) :
    ofSource g.render = .ok { g with
      nonTerminals := .ofSymbols (Text.trimEnd g.nonTerminals.toWord)
      terminals := .ofSymbols (Text.trimEnd g.terminals.toWord) } := by
  obtain ⟨start, nonTerminals, terminals, ts, hs, hts, hstart, -, -, hsides⟩ :=
    ofSource_eq_ok_iff.1 h
  have hlines : ∀ t ∈ start :: nonTerminals :: terminals :: ts, Text.trimEnd t = t := by
    intro t ht
    exact trimEnd_of_mem_sourceLines (hs ▸ ht)
  have htrim : Text.trimEnd g.start = g.start := by
    rw [hstart]
    exact hlines start (by simp)
  have hrules : Rule.trimRuns g.rules = g.rules :=
    Rule.trimRuns_eq_self_of_sides hts (fun t ht => hlines t (by simp [ht])) hsides
  rw [ofSource_render (isPlain_of_ofSource h), htrim, hrules]

/-- **Printing a grammar that was read keeps its start word and its rules**, with their order and
repetitions, whatever blanks and bars are in its words and on however many lines the rules were. -/
theorem ofSource_render_keeps_rules (h : ofSource s = .ok g) :
    ∃ g', ofSource g.render = .ok g' ∧ g'.start = g.start ∧ g'.rules = g.rules :=
  ⟨_, ofSource_render_of_ofSource h, rfl, rfl⟩

/-- The rules of one left side, which has a bar and begins with a blank, are on two lines, and the
first alternative ends with a blank. -/
theorem ofSource_render_keeps_rules_blanks :
    ∃ g g', ofSource "S\nS\nab\n |S=a |b\n |S= \nS=\t".toList = .ok g ∧
      g.render = "S\nS\nab\n |S=a |b|\nS=\n".toList ∧
      ofSource g.render = .ok g' ∧ g'.start = g.start ∧ g'.rules = g.rules := by
  obtain ⟨g, hg⟩ : ∃ g, ofSource "S\nS\nab\n |S=a |b\n |S= \nS=\t".toList = .ok g :=
    (ofSource_reads _).1.2 (by decide +kernel)
  obtain ⟨g', hg', hstart, hrules⟩ := ofSource_render_keeps_rules hg
  have hrender : (ofSource "S\nS\nab\n |S=a |b\n |S= \nS=\t".toList).map render =
      .ok "S\nS\nab\n |S=a |b|\nS=\n".toList := rfl
  rw [hg] at hrender
  exact ⟨g, g', hg, Except.ok.inj hrender, hg', hstart, hrules⟩

/-- **Printing a grammar that was read keeps of each alphabet the symbols up to the greatest one
that is no blank.** So an alphabet is kept exactly if its greatest symbol is no blank. -/
theorem ofSource_render_alphabets (h : ofSource s = .ok g) :
    ∃ g', ofSource g.render = .ok g' ∧
      (∀ c, c ∈ g'.nonTerminals ↔
        c ∈ g.nonTerminals ∧ ∃ d ∈ g.nonTerminals, c ≤ d ∧ isBlank d = false) ∧
      (∀ c, c ∈ g'.terminals ↔
        c ∈ g.terminals ∧ ∃ d ∈ g.terminals, c ≤ d ∧ isBlank d = false) ∧
      (g'.nonTerminals = g.nonTerminals ↔
        ∀ c ∈ g.nonTerminals, (∀ d ∈ g.nonTerminals, d ≤ c) → isBlank c = false) ∧
      (g'.terminals = g.terminals ↔
        ∀ c ∈ g.terminals, (∀ d ∈ g.terminals, d ≤ c) → isBlank c = false) :=
  ⟨_, ofSource_render_of_ofSource h, fun _ => Alphabet.mem_ofSymbols_trimEnd,
    fun _ => Alphabet.mem_ofSymbols_trimEnd, Alphabet.ofSymbols_trimEnd_eq_self_iff,
    Alphabet.ofSymbols_trimEnd_eq_self_iff⟩

/-- A source in which a no-break space stands in front of the other non-terminal. -/
def noBreakSource : Text := "A\n\u00a0A\na\nA=a\n".toList

/-- The grammar of that source. -/
def noBreak : Grammar :=
  ⟨['A'], .ofSymbols ['\u00a0', 'A'], .ofSymbols ['a'], [⟨['A'], ['a'], by decide⟩]⟩

theorem ofSource_render_alphabets_noBreak :
    ofSource noBreakSource = .ok noBreak ∧
      ∃ g', ofSource noBreak.render = .ok g' ∧ 'A' ∈ g'.nonTerminals ∧
        '\u00a0' ∉ g'.nonTerminals ∧ g'.terminals = noBreak.terminals := by
  have hsource : ofSource noBreakSource = .ok noBreak := rfl
  obtain ⟨g', hg', hnonTerminals, -, -, hterminals⟩ := ofSource_render_alphabets hsource
  refine ⟨hsource, g', hg', ?_, ?_, hterminals.2 ?_⟩
  · exact (hnonTerminals 'A').2 ⟨by decide, 'A', by decide, Char.le_refl _, by decide⟩
  · intro hmem
    obtain ⟨-, d, hd, hle, hblank⟩ := (hnonTerminals '\u00a0').1 hmem
    simp only [noBreak, Alphabet.mem_ofSymbols, List.mem_cons, List.not_mem_nil, or_false] at hd
    obtain rfl | rfl := hd
    · exact absurd hblank (by decide)
    · exact absurd hle (by decide)
  · intro c hc _
    obtain rfl : c = 'a' := by simpa [noBreak] using hc
    decide

/-- **Printing does not keep the alphabets of all grammars that were read**: the no-break space is
printed behind the letter and is lost there. -/
theorem ofSource_render_drops_blank :
    ¬ ∀ s g, ofSource s = .ok g → ∃ g', ofSource g.render = .ok g' ∧
      (∀ c, c ∈ g'.nonTerminals ↔ c ∈ g.nonTerminals) ∧
      ∀ c, c ∈ g'.terminals ↔ c ∈ g.terminals := by
  intro h
  have hsource : ofSource noBreakSource = .ok noBreak := rfl
  have hread : ofSource noBreak.render =
      .ok { noBreak with nonTerminals := .ofSymbols ['A'] } := rfl
  obtain ⟨g', hg', hnonTerminals, -⟩ := h noBreakSource noBreak hsource
  obtain rfl := Except.ok.inj (hg'.symm.trans hread)
  exact absurd ((hnonTerminals '\u00a0').2 (by decide)) (by decide)

end Grammar

end StringRewriting
