import StringRewriting.Proofs.Grammar.RuleLine
import StringRewriting.Proofs.Text.Escapes

/-!
# What a source says

The first line that is at fault decides what is wrong with a source. Where no line is at fault, the
source describes the grammar with the pairs of sides that its lines state.

* `readRules_append_of_error`: the first line at fault decides.
* `readRules_eq_ok_iff`, `ofSource_eq_ok_iff`: when rules and grammars are read, and which.
* `RefusedAt`, `ofSource_reads`: every source.
* `GrammarError.message_eq`, `message_of_ofSource_eq_error`: what is said of a source that is
  refused.
-/

namespace StringRewriting

theorem Text.head?_splitOn (x : Char) (t : Text) :
    (t.splitOn x).head? = some (t.takeWhile (· ≠ x)) := by
  induction t with
  | nil => rfl
  | cons c t ih =>
    by_cases hc : c = x
    · rw [hc, splitOn_cons_self]
      simp
    · rw [splitOn_cons_of_ne hc, List.head?_modifyHead, ih]
      simp [hc]

namespace Grammar

/-! ## Lines at fault -/

section Fault

variable {t : Text} (n : Nat) (ts : List Text)

theorem readRules_cons_of_count_eq_zero (h : t.count '=' = 0) :
    readRules n (t :: ts) = .error (.format n .noSeparator) := by
  rw [readRules, RuleLine.ofLine_of_notMem (List.count_eq_zero.1 h)]
  rfl

theorem readRules_cons_of_two_le_count (h : 2 ≤ t.count '=') :
    readRules n (t :: ts) = .error (.format n .extraSeparator) := by
  obtain ⟨lhs, u, rfl, hlhs, hu⟩ := Text.exists_append_of_count_pos (t := t) (by omega)
  have hmem : '=' ∈ u := List.count_pos_iff.1 (by omega)
  rw [readRules, RuleLine.ofLine_append_of_mem hlhs hmem]
  rfl

theorem readRules_cons_of_head (h : t.count '=' = 1) (hhead : t.head? = some '=') :
    readRules n (t :: ts) = .error (.emptyLeft (t.tail.takeWhile (· ≠ '|'))) := by
  obtain ⟨u, rfl⟩ := List.head?_eq_some_iff.1 hhead
  have hu : '=' ∉ u := by
    rw [List.count_cons_self] at h
    exact List.count_eq_zero.1 (by omega)
  obtain ⟨p, ps, hps⟩ := Text.exists_splitOn_eq_cons '|' u
  have hfirst : p = u.takeWhile (· ≠ '|') := by
    have hhead := Text.head?_splitOn '|' u
    rw [hps] at hhead
    exact Option.some.inj hhead
  have hnil : '=' ∉ ([] : Text) := List.not_mem_nil
  have hline : RuleLine.ofLine ('=' :: u) = .ok ⟨[], p, ps⟩ := RuleLine.ofLine_append hnil hu hps
  rw [readRules, hline, List.tail_cons, ← hfirst]
  rfl

theorem exists_readRules_cons_eq_error (h : ¬ t.IsRuleLine) :
    ∃ e, readRules n (t :: ts) = .error e := by
  by_cases hzero : t.count '=' = 0
  · exact ⟨_, readRules_cons_of_count_eq_zero n ts hzero⟩
  · by_cases htwo : 2 ≤ t.count '='
    · exact ⟨_, readRules_cons_of_two_le_count n ts htwo⟩
    · have hone : t.count '=' = 1 := by omega
      have hhead : t.head? = some '=' := Decidable.byContradiction fun hne => h ⟨hone, hne⟩
      exact ⟨_, readRules_cons_of_head n ts hone hhead⟩

end Fault

/-! ## Lines that are not at fault -/

/-- A line that is not at fault adds its rules to those of the later lines. -/
theorem readRules_cons {t : Text} (h : t.IsRuleLine) :
    ∃ rs : List Rule, rs.map Rule.sides = RuleLine.sides t ∧
      ∀ n ts, readRules n (t :: ts) = do return rs ++ (← readRules (n + 1) ts) := by
  obtain ⟨lhs, u, rfl, -, hlhs, hu⟩ := Text.isRuleLine_iff.1 h
  obtain ⟨p, ps, hps⟩ := Text.exists_splitOn_eq_cons '|' u
  obtain ⟨rs, hrs⟩ := Rule.exists_map_sides fun p hp => (RuleLine.notMem_of_mem_sides h hp).1
  have hrules : RuleLine.rules ⟨lhs, p, ps⟩ = .ok rs := by
    rw [RuleLine.rules_eq]
    refine Rule.mapM_ofSides_eq_ok_iff.2 ?_
    rw [hrs, RuleLine.sides_append hlhs, hps]
    rfl
  refine ⟨rs, hrs, fun n ts => ?_⟩
  rw [readRules, RuleLine.ofLine_append hlhs hu hps]
  show RuleLine.rules _ >>= _ = _
  rw [hrules]
  rfl

/-- The first line at fault decides. -/
theorem readRules_append_of_error {ts us : List Text} {n : Nat} {e : GrammarError}
    (h : ∀ t ∈ ts, t.IsRuleLine) (hus : readRules (n + ts.length) us = .error e) :
    readRules n (ts ++ us) = .error e := by
  induction ts generalizing n with
  | nil => exact hus
  | cons t ts ih =>
    rw [List.forall_mem_cons] at h
    obtain ⟨rs, -, hread⟩ := readRules_cons h.1
    have hnumber : n + 1 + ts.length = n + (t :: ts).length := by
      rw [List.length_cons]
      omega
    rw [List.cons_append, hread, ih h.2 (hnumber ▸ hus)]
    rfl

/-- Rules are read exactly where no line is at fault, and they have the sides that the lines state.
-/
theorem readRules_eq_ok_iff {n : Nat} {ts : List Text} {rs : List Rule} :
    readRules n ts = .ok rs ↔
      (∀ t ∈ ts, t.IsRuleLine) ∧ rs.map Rule.sides = ts.flatMap RuleLine.sides := by
  induction ts generalizing n rs with
  | nil => simp [readRules, eq_comm]
  | cons t ts ih =>
    rw [List.forall_mem_cons, List.flatMap_cons]
    by_cases ht : t.IsRuleLine
    · obtain ⟨rs₁, hrs₁, hread⟩ := readRules_cons ht
      rw [hread, bind_eq_ok_iff, and_iff_right ht, ← hrs₁]
      constructor
      · rintro ⟨rs₂, hrs₂, h⟩
        obtain rfl := Except.ok.inj h
        obtain ⟨hts, hsides⟩ := ih.1 hrs₂
        exact ⟨hts, by rw [List.map_append, hsides]⟩
      · rintro ⟨hts, hsides⟩
        obtain ⟨rs₁', rs₂, rfl, hrs₁', hrs₂⟩ := List.map_eq_append_iff.1 hsides
        obtain rfl := (List.map_inj_right fun _ _ => Rule.sides_injective).1 hrs₁'
        exact ⟨rs₂, ih.2 ⟨hts, hrs₂⟩, rfl⟩
    · obtain ⟨e, he⟩ := exists_readRules_cons_eq_error n ts ht
      rw [he]
      exact iff_of_false nofun fun h => ht h.1.1

/-! ## Whole sources -/

/-- The lines of a source: its pieces between line feeds without the blanks at their ends. -/
def sourceLines (s : Text) : List Text :=
  (Text.pieces s).map Text.trimEnd

theorem ofSource_eq (s : Text) : ofSource s = ofLines (sourceLines s) := by
  rw [ofSource, Text.lines_eq_pieces, sourceLines]

theorem newline_notMem_of_mem_sourceLines {s t : Text} (h : t ∈ sourceLines s) : '\n' ∉ t := by
  rw [sourceLines, ← Text.lines_eq_pieces, List.mem_map] at h
  obtain ⟨l, hl, rfl⟩ := h
  exact fun hc => Text.newline_notMem_of_mem_lines hl (Text.mem_of_mem_trimEnd hc)

theorem ofLines_of_three_headers (start nonTerminals terminals : Text) (ts : List Text) :
    ofLines (start :: nonTerminals :: terminals :: ts) = do
      return ⟨start, .ofSymbols nonTerminals, .ofSymbols terminals, ← readRules 4 ts⟩ := rfl

/-- With fewer lines than headers, the first header that is missing is the fault. -/
theorem exists_ofLines_eq_error {ls : List Text} (h : ls.length < 3) :
    ∃ header : Header, header.line = ls.length + 1 ∧
      ofLines ls = .error (.format (ls.length + 1) (.missing header)) := by
  match ls, h with
  | [], _ => exact ⟨.start, rfl, rfl⟩
  | [_], _ => exact ⟨.nonTerminals, rfl, rfl⟩
  | [_, _], _ => exact ⟨.terminals, rfl, rfl⟩
  | _ :: _ :: _ :: _, h => simp only [List.length_cons] at h; omega

theorem exists_three_headers {ls : List Text} (h : 3 ≤ ls.length) :
    ∃ start nonTerminals terminals ts, ls = start :: nonTerminals :: terminals :: ts := by
  match ls, h with
  | start :: nonTerminals :: terminals :: ts, _ =>
    exact ⟨start, nonTerminals, terminals, ts, rfl⟩

/-- A grammar is read exactly where there are three headers and no line behind them is at fault. -/
theorem ofSource_eq_ok_iff {s : Text} {g : Grammar} :
    ofSource s = .ok g ↔ ∃ start nonTerminals terminals ts,
      sourceLines s = start :: nonTerminals :: terminals :: ts ∧ (∀ t ∈ ts, t.IsRuleLine) ∧
        g.start = start ∧ g.nonTerminals = .ofSymbols nonTerminals ∧
        g.terminals = .ofSymbols terminals ∧
        g.rules.map Rule.sides = ts.flatMap RuleLine.sides := by
  rw [ofSource_eq]
  by_cases hshort : (sourceLines s).length < 3
  · obtain ⟨header, -, he⟩ := exists_ofLines_eq_error hshort
    rw [he]
    refine iff_of_false nofun ?_
    rintro ⟨start, nonTerminals, terminals, ts, hs, -⟩
    rw [hs] at hshort
    simp only [List.length_cons] at hshort
    omega
  · obtain ⟨start, nonTerminals, terminals, ts, hs⟩ := exists_three_headers (Nat.not_lt.1 hshort)
    rw [hs, ofLines_of_three_headers, bind_eq_ok_iff]
    simp only [readRules_eq_ok_iff]
    constructor
    · rintro ⟨rs, ⟨hts, hrs⟩, h⟩
      obtain rfl := Except.ok.inj h
      exact ⟨_, _, _, ts, rfl, hts, rfl, rfl, rfl, hrs⟩
    · rintro ⟨_, _, _, _, ⟨⟩, hts, rfl, hnonTerminals, hterminals, hrs⟩
      refine ⟨g.rules, ⟨hts, hrs⟩, ?_⟩
      rw [← hnonTerminals, ← hterminals]
      rfl

/-- The grammar that a list of pairs of sides makes. -/
theorem ofPairs_eq_ok_iff {start nonTerminals terminals : Word} {ps : List (Word × Word)}
    {g : Grammar} : ofPairs start nonTerminals terminals ps = .ok g ↔
      g.start = start ∧ g.nonTerminals = .ofSymbols nonTerminals ∧
        g.terminals = .ofSymbols terminals ∧ g.rules.map Rule.sides = ps := by
  rw [ofPairs, bind_eq_ok_iff]
  simp only [Rule.mapM_ofSides_eq_ok_iff]
  constructor
  · rintro ⟨rs, hrs, h⟩
    obtain rfl := Except.ok.inj h
    exact ⟨rfl, rfl, rfl, hrs⟩
  · rintro ⟨rfl, hnonTerminals, hterminals, hrs⟩
    refine ⟨g.rules, hrs, ?_⟩
    rw [← hnonTerminals, ← hterminals]
    rfl

section Headers

variable {s start nonTerminals terminals : Text} {ts : List Text}
  (hs : sourceLines s = start :: nonTerminals :: terminals :: ts)
include hs

theorem exists_ofSource_eq_ok (hts : ∀ t ∈ ts, t.IsRuleLine) :
    ∃ g, ofSource s = .ok g ∧
      ofPairs start nonTerminals terminals (ts.flatMap RuleLine.sides) = .ok g := by
  have hlefts : ∀ p ∈ ts.flatMap RuleLine.sides, p.1 ≠ [] := by
    intro p hp
    obtain ⟨t, ht, hpt⟩ := List.mem_flatMap.1 hp
    exact (RuleLine.notMem_of_mem_sides (hts t ht) hpt).1
  obtain ⟨rs, hrs⟩ := Rule.exists_map_sides hlefts
  refine ⟨⟨start, .ofSymbols nonTerminals, .ofSymbols terminals, rs⟩, ?_, ?_⟩
  · exact ofSource_eq_ok_iff.2 ⟨_, _, _, ts, hs, hts, rfl, rfl, rfl, hrs⟩
  · exact ofPairs_eq_ok_iff.2 ⟨rfl, rfl, rfl, hrs⟩

theorem ofSource_eq_error_of_readRules {e : GrammarError} (h : readRules 4 ts = .error e) :
    ofSource s = .error e := by
  rw [ofSource_eq, hs, ofLines_of_three_headers, h]
  rfl

end Headers

/-! ## Sources that are refused -/

/-- A source is refused because its line `n` is not as it should be, which is worded as `reason`. -/
def RefusedAt (s : Text) (n : Nat) (reason : String) : Prop :=
  ∃ fault : LineFault, ofSource s = .error (.format n fault) ∧ fault.message = reason

/-- The first header that is missing is reported at the line where it would stand. -/
theorem refusedAt_of_missing {s : Text} (header : Header)
    (h : (sourceLines s).length + 1 = header.line) :
    RefusedAt s header.line (LineFault.missing header).message := by
  have hshort : (sourceLines s).length < 3 := by
    cases header <;> simp only [Header.line] at h <;> omega
  obtain ⟨header', hline, he⟩ := exists_ofLines_eq_error hshort
  obtain rfl : header' = header := Header.line_injective (hline.trans h)
  exact ⟨_, by rw [ofSource_eq, he, h], rfl⟩

section Fault

variable {s start nonTerminals terminals t : Text} {before after : List Text}
  (hs : sourceLines s = start :: nonTerminals :: terminals :: (before ++ t :: after))
  (hbefore : ∀ u ∈ before, u.IsRuleLine)
include hs hbefore

theorem ofSource_eq_error_of_line {e : GrammarError}
    (h : readRules (before.length + 4) (t :: after) = .error e) : ofSource s = .error e := by
  rw [Nat.add_comm] at h
  exact ofSource_eq_error_of_readRules hs (readRules_append_of_error hbefore h)

/-- A line without a sign between sides. -/
theorem refusedAt_of_count_eq_zero (h : t.count '=' = 0) :
    RefusedAt s (before.length + 4) "expected '=' separator" :=
  ⟨_, ofSource_eq_error_of_line hs hbefore (readRules_cons_of_count_eq_zero _ after h), rfl⟩

/-- A line with more than one of them. -/
theorem refusedAt_of_two_le_count (h : 2 ≤ t.count '=') :
    RefusedAt s (before.length + 4) "more than one '=' separator" :=
  ⟨_, ofSource_eq_error_of_line hs hbefore (readRules_cons_of_two_le_count _ after h), rfl⟩

/-- A line with nothing in front of its only one. -/
theorem ofSource_eq_error_of_head (h : t.count '=' = 1) (hhead : t.head? = some '=') :
    ofSource s = .error (.emptyLeft (t.tail.takeWhile (· ≠ '|'))) :=
  ofSource_eq_error_of_line hs hbefore (readRules_cons_of_head _ after h hhead)

end Fault

/-- **A source is read exactly if it has the required form, and its first fault is reported.** There
must be three headers, and every line behind them must have exactly one sign between sides and
something in front of it. A missing header is reported at the line where it would stand. Else the
first line at fault decides, and its signs are counted before its left side is looked at. Without a
fault the source describes the grammar with the pairs of sides that its lines state. -/
theorem ofSource_reads (s : Text) :
    ((∃ g, ofSource s = .ok g) ↔
      3 ≤ (sourceLines s).length ∧ ∀ t ∈ (sourceLines s).drop 3, t.IsRuleLine) ∧
    ((sourceLines s).length = 0 → RefusedAt s 1 "missing start word") ∧
    ((sourceLines s).length = 1 → RefusedAt s 2 "missing non-terminal alphabet") ∧
    ((sourceLines s).length = 2 → RefusedAt s 3 "missing terminal alphabet") ∧
    (∀ start nonTerminals terminals before t after,
      sourceLines s = start :: nonTerminals :: terminals :: (before ++ t :: after) →
      (∀ u ∈ before, u.IsRuleLine) →
      (t.count '=' = 0 → RefusedAt s (before.length + 4) "expected '=' separator") ∧
      (2 ≤ t.count '=' → RefusedAt s (before.length + 4) "more than one '=' separator") ∧
      (t.count '=' = 1 → t.head? = some '=' →
        ofSource s = .error (.emptyLeft (t.tail.takeWhile (· ≠ '|'))))) ∧
    (∀ start nonTerminals terminals ts,
      sourceLines s = start :: nonTerminals :: terminals :: ts → (∀ t ∈ ts, t.IsRuleLine) →
      ∃ g, ofSource s = .ok g ∧
        ofPairs start nonTerminals terminals (ts.flatMap RuleLine.sides) = .ok g) := by
  refine ⟨?_, fun h => ?_, fun h => ?_, fun h => ?_, ?_, ?_⟩
  · constructor
    · rintro ⟨g, hg⟩
      obtain ⟨start, nonTerminals, terminals, ts, hs, hts, -⟩ := ofSource_eq_ok_iff.1 hg
      rw [hs]
      exact ⟨by simp, by simpa using hts⟩
    · rintro ⟨hlength, hts⟩
      obtain ⟨start, nonTerminals, terminals, ts, hs⟩ := exists_three_headers hlength
      obtain ⟨g, hg, -⟩ := exists_ofSource_eq_ok hs (by simpa [hs] using hts)
      exact ⟨g, hg⟩
  · exact refusedAt_of_missing .start (congrArg (· + 1) h)
  · exact refusedAt_of_missing .nonTerminals (congrArg (· + 1) h)
  · exact refusedAt_of_missing .terminals (congrArg (· + 1) h)
  · intro start nonTerminals terminals before t after hs hbefore
    exact ⟨refusedAt_of_count_eq_zero hs hbefore, refusedAt_of_two_le_count hs hbefore,
      ofSource_eq_error_of_head hs hbefore⟩
  · intro start nonTerminals terminals ts hs hts
    exact exists_ofSource_eq_ok hs hts

/-- The fifth line has a second sign between sides; the sixth has no left-hand side. -/
theorem ofSource_reads_two_faults :
    sourceLines "S \nS\nab\nS=b\nS=a=b\n=c".toList =
        [['S'], ['S'], ['a', 'b'], ['S', '=', 'b'], ['S', '=', 'a', '=', 'b'], ['=', 'c']] ∧
      RefusedAt "S \nS\nab\nS=b\nS=a=b\n=c".toList 5 "more than one '=' separator" := by
  have hs : sourceLines "S \nS\nab\nS=b\nS=a=b\n=c".toList =
      [['S'], ['S'], ['a', 'b'], ['S', '=', 'b'], ['S', '=', 'a', '=', 'b'], ['=', 'c']] := by
    decide +kernel
  obtain ⟨-, -, -, -, hfirst, -⟩ := ofSource_reads "S \nS\nab\nS=b\nS=a=b\n=c".toList
  have hfault := hfirst ['S'] ['S'] ['a', 'b'] [['S', '=', 'b']] ['S', '=', 'a', '=', 'b']
    [['=', 'c']] hs (by decide)
  exact ⟨hs, hfault.2.1 (by decide)⟩

end Grammar

/-! ## What is said of a source that is refused -/

/-- The reasons for which a line is not as it should be. -/
def LineFault.reasons : List String :=
  ["missing start word", "missing non-terminal alphabet", "missing terminal alphabet",
    "expected '=' separator", "more than one '=' separator"]

theorem LineFault.message_mem_reasons (fault : LineFault) : fault.message ∈ reasons := by
  cases fault with
  | missing header => cases header <;> decide
  | noSeparator => decide
  | extraSeparator => decide

/-- A line that is not as it should be is told by its number and one of five reasons, a rule without
a left-hand side by its right-hand side between quotes. -/
theorem GrammarError.message_eq (e : GrammarError) :
    (∀ n fault, e = .format n fault → fault.message ∈ LineFault.reasons ∧
      e.message = "malformed grammar at line " ++ toString n ++ ": " ++ fault.message) ∧
    ∀ rhs, e = .emptyLeft rhs → e.message = "rule with empty left-hand side (rewrites to \"" ++
      String.ofList (Quoted.escape isVisible rhs) ++ "\")" := by
  refine ⟨?_, ?_⟩
  · rintro n fault rfl
    exact ⟨fault.message_mem_reasons, rfl⟩
  · rintro rhs rfl
    calc (emptyLeft rhs).message
        = "rule with empty left-hand side (rewrites to " ++
            ("\"" ++ String.ofList (Quoted.escape isVisible rhs) ++ "\"") ++ ")" :=
          congrArg (fun q => "rule with empty left-hand side (rewrites to " ++ q ++ ")")
            (Quoted.ofList_text isVisible rhs)
      _ = ("rule with empty left-hand side (rewrites to " ++ "\"") ++
            String.ofList (Quoted.escape isVisible rhs) ++ ("\"" ++ ")") := by
          simp only [String.append_assoc]
      _ = "rule with empty left-hand side (rewrites to \"" ++
            String.ofList (Quoted.escape isVisible rhs) ++ "\")" := rfl

namespace Grammar

theorem exists_first_fault {ts : List Text} (h : ¬ ∀ t ∈ ts, t.IsRuleLine) :
    ∃ before t after, ts = before ++ t :: after ∧ (∀ u ∈ before, u.IsRuleLine) ∧
      ¬ t.IsRuleLine := by
  obtain ⟨u, hu, hfault⟩ : ∃ u ∈ ts, ¬ u.IsRuleLine := by simpa using h
  have hfound : (ts.find? fun t => decide (¬ t.IsRuleLine)).isSome :=
    List.find?_isSome.2 ⟨u, hu, decide_eq_true hfault⟩
  obtain ⟨t, ht⟩ := Option.isSome_iff_exists.1 hfound
  obtain ⟨ht, before, after, hts, hbefore⟩ := List.find?_eq_some_iff_append.1 ht
  exact ⟨before, t, after, hts, by simpa using hbefore, of_decide_eq_true ht⟩

/-- **What is said of a source that is refused.** Either a line is named, one of the source or the
one that would follow it, and one of five reasons, or the right-hand side of a rule that has no
left-hand side. -/
theorem message_of_ofSource_eq_error {s : Text} {e : GrammarError} (h : ofSource s = .error e) :
    (∃ n reason, RefusedAt s n reason ∧ reason ∈ LineFault.reasons ∧
      1 ≤ n ∧ n ≤ (sourceLines s).length + 1 ∧
      e.message = "malformed grammar at line " ++ toString n ++ ": " ++ reason) ∨
    ∃ t ∈ (sourceLines s).drop 3, t.count '=' = 1 ∧ t.head? = some '=' ∧
      e.message = "rule with empty left-hand side (rewrites to \"" ++
        String.ofList (Quoted.escape isVisible (t.tail.takeWhile (· ≠ '|'))) ++ "\")" := by
  -- a line that is refused is the one that the error names
  have hline : ∀ n reason, RefusedAt s n reason → reason ∈ LineFault.reasons ∧
      e.message = "malformed grammar at line " ++ toString n ++ ": " ++ reason := by
    rintro n _ ⟨fault, hfault, rfl⟩
    obtain rfl := Except.error.inj (h.symm.trans hfault)
    exact (GrammarError.message_eq _).1 n fault rfl
  by_cases hshort : (sourceLines s).length < 3
  · obtain ⟨header, hheader, -⟩ := exists_ofLines_eq_error hshort
    have hrefused := refusedAt_of_missing header hheader.symm
    obtain ⟨hreason, hmessage⟩ := hline _ _ hrefused
    exact .inl ⟨_, _, hrefused, hreason, by omega, by omega, hmessage⟩
  · obtain ⟨start, nonTerminals, terminals, ts, hs⟩ := exists_three_headers (Nat.not_lt.1 hshort)
    have hts : ¬ ∀ t ∈ ts, t.IsRuleLine := by
      intro hts
      obtain ⟨g, hg, -⟩ := exists_ofSource_eq_ok hs hts
      rw [hg] at h
      cases h
    obtain ⟨before, t, after, rfl, hbefore, hfault⟩ := exists_first_fault hts
    have hnumber : before.length + 4 ≤ (sourceLines s).length + 1 := by
      rw [hs]
      simp only [List.length_cons, List.length_append]
      omega
    have hnamed : ∀ reason, RefusedAt s (before.length + 4) reason →
        ∃ n reason, RefusedAt s n reason ∧ reason ∈ LineFault.reasons ∧
          1 ≤ n ∧ n ≤ (sourceLines s).length + 1 ∧
          e.message = "malformed grammar at line " ++ toString n ++ ": " ++ reason := by
      intro reason hrefused
      obtain ⟨hreason, hmessage⟩ := hline _ _ hrefused
      exact ⟨_, _, hrefused, hreason, by omega, hnumber, hmessage⟩
    by_cases hzero : t.count '=' = 0
    · exact .inl (hnamed _ (refusedAt_of_count_eq_zero hs hbefore hzero))
    · by_cases htwo : 2 ≤ t.count '='
      · exact .inl (hnamed _ (refusedAt_of_two_le_count hs hbefore htwo))
      · have hone : t.count '=' = 1 := by omega
        have hhead : t.head? = some '=' := Decidable.byContradiction fun hne => hfault ⟨hone, hne⟩
        have he := ofSource_eq_error_of_head hs hbefore hone hhead
        obtain rfl := Except.error.inj (h.symm.trans he)
        exact .inr ⟨t, by simp [hs], hone, hhead, (GrammarError.message_eq _).2 _ rfl⟩

end Grammar

end StringRewriting
