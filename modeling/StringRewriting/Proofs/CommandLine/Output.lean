import StringRewriting.CommandLine.Report
import StringRewriting.Proofs.Exploration.Derivation
import StringRewriting.Proofs.Exploration.Timing
import StringRewriting.Proofs.Grammar.RoundTrip
import StringRewriting.Proofs.Text.Unquoting

/-!
# What a run writes

A run whose arguments state settings and whose path leads to a text either fails with what is wrong
with the grammar, or reports the exploration line by line: the trace, the result, and a derivation
of every final word. The words of a grammar that was read stay on one line each.

* `Grammar.newline_notMem_of_mem_discoveries`: no recorded word has a line feed.
* `Report.newline_notMem_of_mem_lines`: a report is cut into its lines again.
* `Report.result_tells_words`: the line with the results tells them.
* `Outcome.Started`, `Outcome.ofArguments_writes`: what is left by a whole run.
-/

namespace StringRewriting

/-! ## Line feeds -/

namespace Grammar

variable {g : Grammar} {limits : Limits} {clock : Clock}

/-- Rewriting puts no line feed into a word. -/
theorem newline_notMem_of_mem_discoveries (h : g.IsPlain) {w : Word}
    (hw : w ∈ g.discoveries limits clock) : '\n' ∉ w := by
  intro hc
  rcases symbol_of_mem_discoveries hw hc with hstart | ⟨r, hr, hrhs⟩
  · exact h.newline_notMem_start hstart
  · exact (h.rules r hr).newline_notMem_rhs hrhs

end Grammar

theorem Transition.newline_notMem_render {t : Transition} (hparent : '\n' ∉ t.parent)
    (hchild : '\n' ∉ t.child) : '\n' ∉ t.render := by
  simp [render, hparent, hchild]

namespace Report

section Fields

variable (settings : Settings) (g : Grammar) (e : Exploration (Array Transition))

theorem trace_ofExploration : (ofExploration settings g e).trace =
    if settings.trace then e.observed.toList.map Transition.render else [] := rfl

theorem result_ofExploration :
    (ofExploration settings g e).result = Quoted.list isVisible e.words := rfl

theorem derivations_ofExploration : (ofExploration settings g e).derivations =
    if settings.derivations then (e.words.filterMap e.derivation?).map derivationLine else [] := rfl

end Fields

variable {g : Grammar} {limits : Limits} {clock : Clock}

theorem length_trace_ofExploration (settings : Settings) :
    (ofExploration settings g (g.explore limits .recorder clock)).trace.length =
      if settings.trace then (g.explore limits .recorder clock).discovered - 1 else 0 := by
  have htrace : (g.explore limits .recorder clock).observed.toList = g.trace limits clock := rfl
  rw [trace_ofExploration, htrace, Grammar.discovered_eq_length_trace, Nat.add_sub_cancel_left]
  split
  · exact List.length_map _
  · exact List.length_nil

theorem length_derivations_ofExploration (settings : Settings) :
    (ofExploration settings g (g.explore limits .recorder clock)).derivations.length =
      if settings.derivations then (g.explore limits .recorder clock).words.length else 0 := by
  rw [derivations_ofExploration, Grammar.forall₂_derivation?_words.length_eq]
  split
  · exact List.length_map _
  · exact List.length_nil

/-- The lines of a report on a grammar without line feeds have none. -/
theorem newline_notMem_of_mem_lines (h : g.IsPlain) (settings : Settings) {l : Text}
    (hl : l ∈ (ofExploration settings g (g.explore limits .recorder clock)).lines) : '\n' ∉ l := by
  have hword : ∀ w ∈ g.discoveries limits clock, '\n' ∉ w := fun w hw =>
    Grammar.newline_notMem_of_mem_discoveries h hw
  rw [lines, List.mem_append, List.mem_cons] at hl
  rcases hl with hl | rfl | hl
  · -- a line of the trace
    simp only [trace_ofExploration, List.mem_ite_nil_right, List.mem_map] at hl
    obtain ⟨-, t, ht, rfl⟩ := hl
    exact Transition.newline_notMem_render (hword _ (Grammar.parent_mem_discoveries ht))
      (hword _ (Grammar.child_mem_discoveries ht))
  · -- the result
    exact Quoted.newline_notMem_list isVisible _
  · -- a derivation
    simp only [derivations_ofExploration, List.mem_ite_nil_right, List.mem_map,
      List.mem_filterMap] at hl
    obtain ⟨-, chain, ⟨w, hw, hchain⟩, rfl⟩ := hl
    obtain ⟨chain', hchain', hmem⟩ :=
      Grammar.exists_derivation? .recorder (Grammar.mem_discoveries_of_mem_words hw)
    obtain rfl : chain = chain' := Option.some_inj.1 (hchain.symm.trans hchain')
    exact Text.notMem_intercalate (by decide) fun v hv => hword v (hmem v hv)

/-- **The line with the results tells them.** Whatever symbols are taken to be plain, the lines
written for two lists of words are the same only for the same words in the same order, and there is
no line feed in front of the one that closes the line. So two explorations are reported with one
result line only if they have the same results. -/
theorem result_tells_words (plain : Char → Bool) :
    (∀ ws ws' : List Word,
      Text.unlines [Quoted.list plain ws] = Text.unlines [Quoted.list plain ws'] ↔ ws = ws') ∧
    (∀ ws : List Word, Text.unlines [Quoted.list plain ws] = Quoted.list plain ws ++ ['\n'] ∧
      '\n' ∉ Quoted.list plain ws) ∧
    ∀ settings g e settings' g' e',
      (ofExploration settings g e).result = (ofExploration settings' g' e').result ↔
        e.words = e'.words := by
  have hline : ∀ ws : List Word,
      Text.unlines [Quoted.list plain ws] = Quoted.list plain ws ++ ['\n'] := by simp
  refine ⟨fun ws ws' => ⟨fun h => ?_, fun h => by rw [h]⟩,
    fun ws => ⟨hline ws, Quoted.newline_notMem_list plain ws⟩, ?_⟩
  · rw [hline, hline] at h
    exact Quoted.list_inj (List.append_cancel_right h)
  · intro settings g e settings' g' e'
    rw [result_ofExploration, result_ofExploration]
    exact ⟨fun h => Quoted.list_inj h, fun h => by rw [h]⟩

end Report

/-- The line that tells that a grammar was refused. -/
theorem RunError.line_loading_invalid (path : Text) (e : GrammarError) :
    (RunError.loading path (.invalid e)).line =
      "error: loading " ++ String.ofList path ++ ": " ++ e.message := by
  have hmessage : (RunError.loading path (.invalid e)).message =
      ": ".intercalate ["loading " ++ String.ofList path, e.message] := rfl
  have hloading : "error: loading " = "error: " ++ "loading " := rfl
  rw [line, hmessage, String.intercalate_cons_cons, String.intercalate_singleton, hloading]
  simp only [String.append_assoc]

/-! ## Whole runs -/

namespace Outcome

/-- The arguments state settings, and their path leads to the stored form of a source. -/
structure Started (env : Surroundings) (arguments : List Text) (settings : Settings)
    (source : Text) : Prop where
  /-- What the arguments state. -/
  settings_eq : Settings.ofArguments arguments = .ok settings
  /-- What there is at the path. -/
  read_eq : env.read settings.path = .ok source.toUtf8

variable {env : Surroundings} {arguments : List Text} {settings : Settings} {source : Text}

theorem ofArguments_of_refusal {refusal : Refusal}
    (h : Settings.ofArguments arguments = .error refusal) :
    ofArguments env arguments = ofRefusal refusal env.outputOpen := by
  rw [ofArguments, h]

theorem ofArguments_of_loadError (h : Settings.ofArguments arguments = .ok settings) {e : LoadError}
    (he : Grammar.ofRead (env.read settings.path) = .error e) :
    ofArguments env arguments = ofLoadError settings e := by
  rw [ofArguments, h]
  simp only [he]

theorem ofArguments_of_loaded (h : Settings.ofArguments arguments = .ok settings) {g : Grammar}
    (hg : Grammar.ofRead (env.read settings.path) = .ok g) :
    ofArguments env arguments = ofExploration settings env.logSetting env.outputOpen g
      (g.explore settings.limits .recorder env.clock) := by
  rw [ofArguments, h]
  simp only [hg]

theorem Started.ofArguments_of_error (h : Started env arguments settings source) {e : GrammarError}
    (he : Grammar.ofSource source = .error e) :
    ofArguments env arguments = ofLoadError settings (.invalid e) := by
  refine ofArguments_of_loadError h.settings_eq ?_
  rw [h.read_eq, Grammar.ofRead_toUtf8, he]
  rfl

theorem Started.ofArguments_of_ok (h : Started env arguments settings source) {g : Grammar}
    (hg : Grammar.ofSource source = .ok g) :
    ofArguments env arguments = ofExploration settings env.logSetting env.outputOpen g
      (g.explore settings.limits .recorder env.clock) := by
  refine ofArguments_of_loaded h.settings_eq ?_
  rw [h.read_eq, Grammar.ofRead_toUtf8, hg]
  rfl

theorem Started.exists_success (h : Started env arguments settings source)
    (hopen : env.outputOpen = true) {g : Grammar} (hg : Grammar.ofSource source = .ok g) :
    ∃ warnings, ofArguments env arguments = .success
      (Text.unlines (Report.ofExploration settings g
        (g.explore settings.limits .recorder env.clock)).lines) warnings := by
  rw [h.ofArguments_of_ok hg, ofExploration, hopen]
  exact ⟨_, rfl⟩

/-- What is written is read back as the lines of the report. -/
theorem Started.lines_output (h : Started env arguments settings source)
    (hopen : env.outputOpen = true) {g : Grammar} (hg : Grammar.ofSource source = .ok g) :
    Text.lines (ofArguments env arguments).output =
      (Report.ofExploration settings g (g.explore settings.limits .recorder env.clock)).lines := by
  obtain ⟨warnings, houtcome⟩ := h.exists_success hopen hg
  rw [houtcome]
  exact Text.lines_unlines fun l hl =>
    Report.newline_notMem_of_mem_lines (Grammar.isPlain_of_ofSource hg) settings hl

/-- Behind the trace comes the result. -/
theorem Started.getElem?_lines_output (h : Started env arguments settings source)
    (hopen : env.outputOpen = true) {g : Grammar} (hg : Grammar.ofSource source = .ok g)
    {x : Exploration (Array Transition)}
    (hx : x = g.explore settings.limits .recorder env.clock) :
    (Text.lines (ofArguments env arguments).output)[
        if settings.trace then x.discovered - 1 else 0]? =
      some (Quoted.list isVisible x.words) := by
  rw [h.lines_output hopen hg, hx, ← Report.length_trace_ofExploration, Report.lines,
    List.getElem?_append_right (Nat.le_refl _), Nat.sub_self, List.getElem?_cons_zero,
    Report.result_ofExploration]

/-- **A run writes its exploration line by line, or why there is no grammar.** The lines are those
of the trace if they are asked for, then the results, then if asked for a derivation of every
result, none of them skipped. No recorded word has a line feed, so this is also the number of lines
in the output. Arguments that state the same limits lead to the same line with the results, whatever
else they ask for, unless the clock decides how the exploration ends. -/
theorem ofArguments_writes (h : Started env arguments settings source)
    (hopen : env.outputOpen = true) :
    (∀ e, Grammar.ofSource source = .error e →
      (ofArguments env arguments).output = [] ∧ (ofArguments env arguments).code = 1 ∧
        (ofArguments env arguments).error.map RunError.line =
          some ("error: loading " ++ String.ofList settings.path ++ ": " ++ e.message)) ∧
    ∀ g x, Grammar.ofSource source = .ok g → x = g.explore settings.limits .recorder env.clock →
      (ofArguments env arguments).code = 0 ∧ (ofArguments env arguments).error = none ∧
      (∃ chains, List.Forall₂ (fun w chain => x.derivation? w = some chain) x.words chains ∧
        (ofArguments env arguments).output = Text.unlines (
          (if settings.trace then
            (g.trace settings.limits env.clock).map fun t => t.parent ++ " -> ".toList ++ t.child
          else []) ++
          [Quoted.list isVisible x.words] ++
          (if settings.derivations then chains.map (List.intercalate " -> ".toList) else []))) ∧
      (∀ w r, x.record? w = some r → '\n' ∉ w) ∧
      (Text.lines (ofArguments env arguments).output).length =
        (if settings.trace then x.discovered - 1 else 0) + 1 +
          (if settings.derivations then x.words.length else 0) ∧
      ∀ env' arguments' settings', Started env' arguments' settings' source →
        env'.outputOpen = true → settings'.limits = settings.limits →
        g.ClockFree settings.limits env.clock → g.ClockFree settings.limits env'.clock →
        (Text.lines (ofArguments env' arguments').output)[
            if settings'.trace then x.discovered - 1 else 0]? =
          some (Quoted.list isVisible x.words) := by
  constructor
  · intro e he
    rw [h.ofArguments_of_error he]
    exact ⟨rfl, rfl, congrArg some (RunError.line_loading_invalid settings.path e)⟩
  · rintro g x hg rfl
    obtain ⟨warnings, houtcome⟩ := h.exists_success hopen hg
    refine ⟨by rw [houtcome, success], by rw [houtcome, success], ?_, ?_, ?_, ?_⟩
    · refine ⟨_, Grammar.forall₂_derivation?_words, ?_⟩
      rw [houtcome, success, List.append_assoc]
      rfl
    · intro w r hr
      exact Grammar.newline_notMem_of_mem_discoveries (Grammar.isPlain_of_ofSource hg)
        (Grammar.exists_record?_explore_iff.1 ⟨r, hr⟩)
    · rw [h.lines_output hopen hg, Report.lines, List.length_append, List.length_cons,
        Report.length_trace_ofExploration, Report.length_derivations_ofExploration]
      omega
    · intro env' arguments' settings' h' hopen' hlimits hclock hclock'
      refine h'.getElem?_lines_output hopen' hg ?_
      rw [hlimits]
      exact Grammar.explore_eq_of_clockFree hclock hclock' .recorder

/-- A source of `Grammar.rightLinear`. -/
def rightLinearSource : Text := "S\nS\nab\nS=aS|b\n".toList

/-- Surroundings with this source in a file `g`, an open output and a clock that stands still. -/
def rightLinearFile : Surroundings where
  read path := if path = "g".toList then .ok rightLinearSource.toUtf8 else .error .missing
  logSetting := none
  outputOpen := true
  clock := .still

/-- Arguments that ask for two steps, the trace and the derivations. -/
def rightLinearArguments : List Text := ["-td2".toList, "g".toList, "--derivations".toList]

theorem ofArguments_writes_rightLinear :
    Started rightLinearFile rightLinearArguments ⟨"g".toList, 2, true, true, none, none, 0⟩
        rightLinearSource ∧
      rightLinearFile.outputOpen = true ∧
      (ofArguments rightLinearFile rightLinearArguments).code = 0 ∧
      (Text.lines (ofArguments rightLinearFile rightLinearArguments).output).length = 7 ∧
      (Text.lines (ofArguments rightLinearFile rightLinearArguments).output)[4]? =
        some "[\"b\", \"ab\"]".toList := by
  have hstarted : Started rightLinearFile rightLinearArguments
      ⟨"g".toList, 2, true, true, none, none, 0⟩ rightLinearSource :=
    ⟨by decide +kernel, by simp [rightLinearFile]⟩
  have hsource : Grammar.ofSource rightLinearSource = .ok Grammar.rightLinear := by decide +kernel
  have hdiscovered :
      (Grammar.rightLinear.explore (.depth 2) .recorder .still).discovered = 5 := by
    rw [Grammar.discovered_explore, Grammar.discoveries_rightLinear]
    rfl
  have hwords : (Grammar.rightLinear.explore (.depth 2) .recorder .still).words =
      [['b'], ['a', 'b']] := by
    rw [Grammar.words_explore, Grammar.discoveries_rightLinear]
    decide
  obtain ⟨-, hreport⟩ := ofArguments_writes hstarted rfl
  obtain ⟨hcode, -, -, -, hlength, hresult⟩ := hreport Grammar.rightLinear
    (Grammar.rightLinear.explore (.depth 2) .recorder .still) hsource rfl
  have hline := hresult _ _ _ hstarted rfl rfl (.inl rfl) (.inl rfl)
  rw [hdiscovered, hwords] at hlength hline
  exact ⟨hstarted, rfl, hcode, hlength, hline.trans (by decide +kernel)⟩

end Outcome

end StringRewriting
