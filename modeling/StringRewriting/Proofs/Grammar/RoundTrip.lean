import StringRewriting.Proofs.Grammar.Printing

/-!
# The grammars that survive printing

The format has no escapes, so only some grammars are read back as they were before they were
printed.

* `isPlain_of_ofSource`: a grammar that was read has no sign of the format in its words.
* `Printable`: what a grammar needs to be read back.
* `ofSource_render_eq_self_iff`: it is read back exactly then.
-/

namespace StringRewriting

/-! ## What is lost at the ends of lines -/

namespace Alphabet

/-- The greatest member of an ascending list is its last one. -/
theorem getLast?_eq_some_iff {l : List Symbol} (h : l.Pairwise (· < ·)) {c : Symbol} :
    l.getLast? = some c ↔ c ∈ l ∧ ∀ d ∈ l, d ≤ c := by
  rcases List.eq_nil_or_concat l with rfl | ⟨l, e, rfl⟩
  · simp
  · have hle : ∀ d ∈ l, d < e := by
      rw [List.concat_eq_append, List.pairwise_append] at h
      exact fun d hd => h.2.2 d hd e (by simp)
    rw [List.concat_eq_append, List.getLast?_concat, Option.some.injEq]
    constructor
    · rintro rfl
      refine ⟨by simp, fun d hd => ?_⟩
      rcases List.mem_append.1 hd with hd | hd
      · exact Char.not_lt.1 (Char.lt_asymm (hle d hd))
      · exact List.mem_singleton.1 hd ▸ Char.le_refl d
    · rintro ⟨hc, hmax⟩
      rcases List.mem_append.1 hc with hc | hc
      · exact absurd (hle c hc) (Char.not_lt.2 (hmax e (by simp)))
      · exact (List.mem_singleton.1 hc).symm

/-- Trimming a written alphabet loses nothing exactly if its greatest symbol is no blank. -/
theorem ofSymbols_trimEnd_eq_self_iff {a : Alphabet} :
    ofSymbols (Text.trimEnd a.toWord) = a ↔ ∀ c ∈ a, (∀ d ∈ a, d ≤ c) → isBlank c = false := by
  obtain ⟨l, hl⟩ := a
  obtain ⟨b, hb, -⟩ := Text.exists_eq_trimEnd_append l
  have htrim : (Text.trimEnd l).Pairwise (· < ·) := by
    rw [hb, List.pairwise_append] at hl
    exact hl.1
  have hsymbols : ofSymbols (Text.trimEnd l) = ⟨Text.trimEnd l, htrim⟩ :=
    ext_mem fun c => mem_ofSymbols
  have hends : Text.endsBlank l = false ↔ ∀ c, l.getLast? = some c → isBlank c = false := by
    unfold Text.endsBlank
    cases l.getLast? <;> simp
  simp only [toWord, hsymbols, mk.injEq, Text.trimEnd_eq_self_iff, hends, getLast?_eq_some_iff hl,
    and_imp, mem_def]

end Alphabet

theorem Rule.trimmed_eq_self_iff {r : Rule} : r.trimmed = r ↔ Text.endsBlank r.rhs = false := by
  rw [← Text.trimEnd_eq_self_iff]
  constructor
  · exact fun h => congrArg Rule.rhs h
  · exact fun h => sides_injective (Prod.ext rfl h)

/-- Trimming the last rules of runs loses nothing exactly if each rule that ends with a blank has a
rule with the same left-hand side behind it. -/
theorem Rule.trimRuns_eq_self_iff {rs : List Rule} :
    trimRuns rs = rs ↔ ∀ before r after, rs = before ++ r :: after →
      after.head?.map Rule.lhs ≠ some r.lhs → Text.endsBlank r.rhs = false := by
  induction rs with
  | nil => simp [trimRuns]
  | cons r rs ih =>
    have hfirst : (if rs.head?.map Rule.lhs = some r.lhs then r else r.trimmed) = r ↔
        (rs.head?.map Rule.lhs ≠ some r.lhs → Text.endsBlank r.rhs = false) := by
      by_cases hsame : rs.head?.map Rule.lhs = some r.lhs
      · simp [hsame]
      · simp [hsame, trimmed_eq_self_iff]
    rw [trimRuns, List.cons.injEq, ih, hfirst]
    constructor
    · rintro ⟨hr, hrs⟩ before r' after h
      cases before with
      | nil =>
        obtain ⟨rfl, rfl⟩ := List.cons.inj h
        exact hr
      | cons r₀ before => exact hrs before r' after (List.cons.inj h).2
    · intro h
      exact ⟨h [] r rs rfl, fun before r' after hrs => h (r :: before) r' after (by rw [hrs]; rfl)⟩

namespace Grammar

/-- A grammar that was read has no sign of the format in its words. -/
theorem isPlain_of_ofSource {s : Text} {g : Grammar} (h : ofSource s = .ok g) : g.IsPlain := by
  obtain ⟨start, nonTerminals, terminals, ts, hs, hts, hstart, hnonTerminals, hterminals, hsides⟩ :=
    ofSource_eq_ok_iff.1 h
  have hline : ∀ t ∈ start :: nonTerminals :: terminals :: ts, '\n' ∉ t := by
    intro t ht
    exact newline_notMem_of_mem_sourceLines (hs ▸ ht)
  simp only [List.forall_mem_cons] at hline
  obtain ⟨hline₁, hline₂, hline₃, hlines⟩ := hline
  refine ⟨hstart ▸ hline₁, ?_, ?_, fun r hr => ?_⟩
  · rwa [hnonTerminals, Alphabet.mem_ofSymbols]
  · rwa [hterminals, Alphabet.mem_ofSymbols]
  · have hmem : r.sides ∈ ts.flatMap RuleLine.sides := hsides ▸ List.mem_map_of_mem hr
    obtain ⟨t, ht, hrt⟩ := List.mem_flatMap.1 hmem
    obtain ⟨-, hlhs, hrhs, hbar, hsub⟩ := RuleLine.notMem_of_mem_sides (hts t ht) hrt
    obtain ⟨hnewline, hnewline'⟩ := hsub '\n' (hlines t ht)
    exact ⟨hnewline, hlhs, hnewline', hrhs, hbar⟩

/-- What a grammar needs to be read back as it was before it was printed. -/
structure Printable (g : Grammar) : Prop where
  /-- The start word stays on one line, and nothing of it is trimmed. -/
  start : '\n' ∉ g.start ∧ Text.endsBlank g.start = false
  /-- The non-terminals stay on one line, and the greatest one is not trimmed. -/
  nonTerminals : '\n' ∉ g.nonTerminals ∧
    ∀ c ∈ g.nonTerminals, (∀ d ∈ g.nonTerminals, d ≤ c) → isBlank c = false
  /-- The terminals stay on one line, and the greatest one is not trimmed. -/
  terminals : '\n' ∉ g.terminals ∧
    ∀ c ∈ g.terminals, (∀ d ∈ g.terminals, d ≤ c) → isBlank c = false
  /-- No left-hand side has a sign that would end it. -/
  lhs : ∀ r ∈ g.rules, '=' ∉ r.lhs ∧ '\n' ∉ r.lhs
  /-- No right-hand side has a sign that would end it. -/
  rhs : ∀ r ∈ g.rules, '=' ∉ r.rhs ∧ '|' ∉ r.rhs ∧ '\n' ∉ r.rhs
  /-- The last rule of a run with one left-hand side ends a line and does not end with a blank. -/
  runs : ∀ before r after, g.rules = before ++ r :: after →
    after.head?.map Rule.lhs ≠ some r.lhs → Text.endsBlank r.rhs = false

theorem Printable.isPlain {g : Grammar} (h : g.Printable) : g.IsPlain where
  newline_notMem_start := h.start.1
  newline_notMem_nonTerminals := h.nonTerminals.1
  newline_notMem_terminals := h.terminals.1
  rules r hr := ⟨(h.lhs r hr).2, (h.lhs r hr).1, (h.rhs r hr).2.2, (h.rhs r hr).1, (h.rhs r hr).2.1⟩

/-- **A grammar is read back from its printed form exactly if it is printable.** In every other case
the printed form is at fault or describes another grammar. -/
theorem ofSource_render_eq_self_iff (g : Grammar) : ofSource g.render = .ok g ↔ g.Printable := by
  constructor
  · intro h
    have hplain := isPlain_of_ofSource h
    rw [ofSource_render hplain, Except.ok.injEq] at h
    have hstart := Text.trimEnd_eq_self_iff.1 (congrArg Grammar.start h)
    have hnonTerminals := Alphabet.ofSymbols_trimEnd_eq_self_iff.1 (congrArg Grammar.nonTerminals h)
    have hterminals := Alphabet.ofSymbols_trimEnd_eq_self_iff.1 (congrArg Grammar.terminals h)
    have hruns := Rule.trimRuns_eq_self_iff.1 (congrArg Grammar.rules h)
    exact ⟨⟨hplain.newline_notMem_start, hstart⟩,
      ⟨hplain.newline_notMem_nonTerminals, hnonTerminals⟩,
      ⟨hplain.newline_notMem_terminals, hterminals⟩,
      fun r hr => ⟨(hplain.rules r hr).sign_notMem_lhs, (hplain.rules r hr).newline_notMem_lhs⟩,
      fun r hr => ⟨(hplain.rules r hr).sign_notMem_rhs, (hplain.rules r hr).bar_notMem_rhs,
        (hplain.rules r hr).newline_notMem_rhs⟩, hruns⟩
  · intro h
    rw [ofSource_render h.isPlain, Text.trimEnd_eq_self_iff.2 h.start.2,
      Alphabet.ofSymbols_trimEnd_eq_self_iff.2 h.nonTerminals.2,
      Alphabet.ofSymbols_trimEnd_eq_self_iff.2 h.terminals.2, Rule.trimRuns_eq_self_iff.2 h.runs]

end Grammar

end StringRewriting
