import StringRewriting.Proofs.CommandLine.Writing

/-!
# What a closed output changes

A run whose output nobody reads fails at the first line it writes, and a run without such a line
does not notice. If the line belongs to the trace, the run comes to its end before it could warn of
words that were left out; if it is the result, it has warned before.

* `Surroundings.Closes`: the same surroundings with an open and with a closed output.
* `Report.trace_ne_nil_iff`: when there is a line of a trace.
* `Outcome.ofArguments_eq_ofWriting`: runs write line by line.
* `Outcome.ofArguments_closed`: whole runs.
-/

namespace StringRewriting

/-- Surroundings with an open output, and the same with a closed one. The clocks may differ. -/
structure Surroundings.Closes (env env' : Surroundings) : Prop where
  /-- The same files are there. -/
  read_eq : env'.read = env.read
  /-- The same log setting is there. -/
  logSetting_eq : env'.logSetting = env.logSetting
  /-- Somebody reads the first output. -/
  isOpen : env.outputOpen = true
  /-- Nobody reads the second output. -/
  isClosed : env'.outputOpen = false

namespace Report

/-! ## Lines of the trace -/

/-- The trace has a line if it is asked for and a word besides the start word is discovered. -/
theorem trace_ne_nil_iff {settings : Settings} {g : Grammar} {limits : Limits}
    {clock : Clock} :
    (ofExploration settings g (g.explore limits .recorder clock)).trace ≠ [] ↔
      settings.trace = true ∧ 1 < (g.explore limits .recorder clock).discovered := by
  rw [← List.length_pos_iff, length_trace_ofExploration]
  split
  · next h => rw [h, eq_self, true_and]; omega
  · next h => exact iff_of_false (Nat.lt_irrefl 0) fun h' => h h'.1

theorem outcome_closed_of_trace_eq_nil {r : Report} (h : r.trace = []) :
    r.outcome false = .failure .writing (r.before ++ r.after) := by
  rw [outcome, if_neg Bool.false_ne_true, if_neg (not_not_intro h)]

theorem outcome_closed_of_trace_ne_nil {r : Report} (h : r.trace ≠ []) :
    r.outcome false = .failure .writingTrace r.before := by
  rw [outcome, if_neg Bool.false_ne_true, if_pos h]

end Report

/-! ## Warnings -/

theorem Grammar.stoppedEarly_notMem_warnings (g : Grammar) (halt : Halt) :
    .stoppedEarly halt ∉ g.warnings := by
  unfold warnings
  split <;> simp

theorem Halt.undeclared_notMem_warnings (halt : Halt) (symbols : Alphabet) :
    .undeclared symbols ∉ halt.warnings := by
  unfold warnings
  split <;> simp

namespace Outcome

theorem mem_warnings_showing {filter : LogFilter} {o : Outcome} {w : Warning} :
    w ∈ (o.showing filter).warnings ↔ w ∈ o.warnings ∧ filter.shows w.logMessage :=
  List.mem_filter

/-! ## Whole runs -/

/-- The second run ends like the first one, but for what they have written. -/
def EndsLike (o o' : Outcome) : Prop :=
  o'.code = o.code ∧ o'.stop = o.stop ∧ o'.error.map RunError.line = o.error.map RunError.line ∧
    o'.warnings = o.warnings

theorem EndsLike.refl (o : Outcome) : o.EndsLike o :=
  ⟨rfl, rfl, rfl, rfl⟩

/-- Whether somebody reads makes no difference to a run whose arguments are refused. -/
theorem ofRefusal_endsLike (refusal : Refusal) (isOpen isOpen' : Bool) :
    (ofRefusal refusal isOpen).EndsLike (ofRefusal refusal isOpen') := by
  cases refusal with
  | usage stop =>
    show (stop.outcome isOpen).EndsLike (stop.outcome isOpen')
    unfold UsageStop.outcome
    split
    · exact ⟨rfl, rfl, rfl, rfl⟩
    · exact .refl _
  | settings fault => exact .refl _

variable {env : Surroundings} {arguments : List Text} {settings : Settings} {g : Grammar}

/-- **A run whose grammar is loaded leaves what writing line by line leaves.** -/
theorem ofArguments_eq_ofWriting (h : Settings.ofArguments arguments = .ok settings)
    (hg : Grammar.ofRead (env.read settings.path) = .ok g) :
    ofArguments env arguments = (ofWriting settings g env.clock ⟨env.outputOpen, []⟩).showing
      (.ofRun settings.verbosity env.logSetting) := by
  rw [ofArguments_of_loaded h hg, ofExploration, ofWriting_eq_outcome]

/-- **What a closed output changes.** If the arguments or the grammar are refused, a run ends as it
does with an open output. If the grammar is loaded, both runs leave what writing line by line
leaves, and the one with the closed output fails. It warns of undeclared symbols as the other one
does. If the trace has a line, writing it is what fails and there is no warning of an early end.
Otherwise writing the result fails, and the warnings are the same. The clocks of the two runs may
differ as far as they do not decide how the exploration ends. -/
theorem ofArguments_closed {env' : Surroundings} (h : env.Closes env') (arguments : List Text) :
    (∀ refusal, Settings.ofArguments arguments = .error refusal →
      (ofArguments env arguments).EndsLike (ofArguments env' arguments)) ∧
    (∀ settings e, Settings.ofArguments arguments = .ok settings →
      Grammar.ofRead (env.read settings.path) = .error e →
      (ofArguments env arguments).EndsLike (ofArguments env' arguments)) ∧
    ∀ settings g x, Settings.ofArguments arguments = .ok settings →
      Grammar.ofRead (env.read settings.path) = .ok g →
      x = g.explore settings.limits .recorder env.clock →
      g.ClockFree settings.limits env.clock → g.ClockFree settings.limits env'.clock →
      (ofArguments env arguments = (ofWriting settings g env.clock ⟨true, []⟩).showing
          (.ofRun settings.verbosity env.logSetting) ∧
        ofArguments env' arguments = (ofWriting settings g env'.clock ⟨false, []⟩).showing
          (.ofRun settings.verbosity env.logSetting)) ∧
      ((ofArguments env arguments).code = 0 ∧ (ofArguments env arguments).error = none ∧
        (ofArguments env' arguments).code = 1) ∧
      (∀ symbols, .undeclared symbols ∈ (ofArguments env' arguments).warnings ↔
        .undeclared symbols ∈ (ofArguments env arguments).warnings) ∧
      (settings.trace = true ∧ 1 < x.discovered →
        (ofArguments env' arguments).error.map RunError.line =
            some "error: writing trace: Broken pipe (os error 32)" ∧
          ∀ halt, .stoppedEarly halt ∉ (ofArguments env' arguments).warnings) ∧
      (¬ (settings.trace = true ∧ 1 < x.discovered) →
        (ofArguments env' arguments).error.map RunError.line =
            some "error: Broken pipe (os error 32)" ∧
          (ofArguments env' arguments).warnings = (ofArguments env arguments).warnings) := by
  refine ⟨?_, ?_, ?_⟩
  · intro refusal hrefusal
    rw [ofArguments_of_refusal hrefusal, ofArguments_of_refusal hrefusal]
    exact ofRefusal_endsLike refusal _ _
  · intro settings e hsettings he
    have he' : Grammar.ofRead (env'.read settings.path) = .error e := by rw [h.read_eq, he]
    rw [ofArguments_of_loadError hsettings he, ofArguments_of_loadError hsettings he']
    exact .refl _
  · rintro settings g x hsettings hg rfl hclock hclock'
    have hg' : Grammar.ofRead (env'.read settings.path) = .ok g := by rw [h.read_eq, hg]
    have hopen := ofArguments_eq_ofWriting hsettings hg
    have hclosed := ofArguments_eq_ofWriting hsettings hg'
    rw [h.isOpen] at hopen
    rw [h.isClosed, h.logSetting_eq] at hclosed
    refine ⟨⟨hopen, hclosed⟩, ?_⟩
    rw [hopen, hclosed, ofWriting_eq_outcome, ofWriting_eq_outcome,
      Grammar.explore_eq_of_clockFree hclock' hclock, ← Report.trace_ne_nil_iff]
    by_cases htrace : (Report.ofExploration settings g
        (g.explore settings.limits .recorder env.clock)).trace = []
    · rw [Report.outcome_closed_of_trace_eq_nil htrace]
      exact ⟨⟨rfl, rfl, rfl⟩, fun _ => Iff.rfl, fun hne => absurd htrace hne, fun _ => ⟨rfl, rfl⟩⟩
    · rw [Report.outcome_closed_of_trace_ne_nil htrace]
      refine ⟨⟨rfl, rfl, rfl⟩, fun symbols => ?_, fun _ => ⟨rfl, fun halt hmem => ?_⟩,
        fun hnot => absurd htrace hnot⟩
      · rw [mem_warnings_showing, mem_warnings_showing]
        refine and_congr_left' ?_
        exact (List.mem_append.trans
          (or_iff_left (Halt.undeclared_notMem_warnings _ symbols))).symm
      · exact g.stoppedEarly_notMem_warnings halt (mem_warnings_showing.1 hmem).1

/-- The surroundings of `rightLinearFile` without a reader. -/
def rightLinearUnread : Surroundings := { rightLinearFile with outputOpen := false }

theorem ofArguments_closed_rightLinear :
    rightLinearFile.Closes rightLinearUnread ∧
      (ofArguments rightLinearFile rightLinearArguments).code = 0 ∧
      (ofArguments rightLinearUnread rightLinearArguments).code = 1 ∧
      (ofArguments rightLinearUnread rightLinearArguments).error.map RunError.line =
        some "error: writing trace: Broken pipe (os error 32)" := by
  have hcloses : rightLinearFile.Closes rightLinearUnread := ⟨rfl, rfl, rfl, rfl⟩
  have hsettings : Settings.ofArguments rightLinearArguments =
      .ok ⟨"g".toList, 2, true, true, none, none, 0⟩ := by decide +kernel
  have hloaded : Grammar.ofRead (rightLinearFile.read "g".toList) = .ok Grammar.rightLinear := by
    have hsource : Grammar.ofSource rightLinearSource = .ok Grammar.rightLinear := rfl
    have hread : rightLinearFile.read "g".toList = .ok rightLinearSource.toUtf8 := by
      simp [rightLinearFile]
    rw [hread, Grammar.ofRead_toUtf8, hsource]
    rfl
  have hdiscovered :
      1 < (Grammar.rightLinear.explore (.depth 2) .recorder .still).discovered := by
    rw [Grammar.discovered_eq_length_trace, Grammar.trace_rightLinear]
    decide
  obtain ⟨-, -, hrun⟩ := ofArguments_closed hcloses rightLinearArguments
  obtain ⟨-, ⟨hcode, -, hcode'⟩, -, htrace, -⟩ :=
    hrun _ _ _ hsettings hloaded rfl (.inl rfl) (.inl rfl)
  exact ⟨hcloses, hcode, hcode', (htrace ⟨rfl, hdiscovered⟩).1⟩

end Outcome

end StringRewriting
