import StringRewriting.Proofs.CommandLine.ClosedOutput

/-!
# When a run warns

There are two causes to warn. Before the exploration it is that the grammar uses a symbol which is
in neither alphabet, and after it that the exploration was stopped by the bound in the number of
words or by the clock. A run that fails before a cause is met does not warn of it, and which
warnings are shown is up to the log setting.

* `Grammar.mem_warnings`, `Halt.mem_warnings`: the two causes.
* `LogFilter.shows_logMessage`: only a log setting hides warnings.
* `Outcome.ofArguments_warns`: the warnings of a whole run.
-/

namespace StringRewriting

/-! ## Causes -/

/-- A grammar gives cause to warn if it uses a symbol that is in neither alphabet. -/
theorem Grammar.mem_warnings {g : Grammar} {w : Warning} :
    w ∈ g.warnings ↔ w = .undeclared g.undeclared ∧
      ∃ c ∈ g.usedSymbols, c ∉ g.terminals ∧ c ∉ g.nonTerminals := by
  have hcause : g.undeclared.isEmpty = false ↔
      ∃ c ∈ g.usedSymbols, c ∉ g.terminals ∧ c ∉ g.nonTerminals := by
    rw [Alphabet.isEmpty_eq_false_iff]
    exact exists_congr fun c => mem_undeclared
  rw [← hcause, warnings]
  cases g.undeclared.isEmpty <;> simp

/-- The end of an exploration gives cause to warn if words may be missing. -/
theorem Halt.mem_warnings {halt : Halt} {w : Warning} :
    w ∈ halt.warnings ↔ w = .stoppedEarly halt ∧ (halt = .wordLimit ∨ halt = .timeout) := by
  cases halt <;> simp [warnings, isComplete]

namespace LogFilter

theorem shows_everything {level : LogLevel} {m : LogMessage} :
    shows [.everything level] m ↔ m.level.rank ≤ level.rank := by
  have hclosest : closest? [.everything level] m = some (.everything level) := rfl
  rw [shows, hclosest, Option.any_some, decide_eq_true_eq]
  rfl

/-- A warning is hidden only by a log setting that can be read, and by none where more messages were
asked for. -/
theorem shows_logMessage {verbosity : Nat} {setting : Option Text}
    (h : verbosity ≠ 0 ∨ setting.bind ofText? = none) (w : Warning) :
    (ofRun verbosity setting).shows w.logMessage := by
  have hlevel : w.logMessage.level.rank = 2 := rfl
  match verbosity with
  | 0 =>
    rw [ofRun, h.resolve_left (not_not_intro rfl), Option.getD_none]
    exact shows_everything.2 (Nat.le_of_eq hlevel)
  | 1 => exact shows_everything.2 (by rw [hlevel]; decide)
  | 2 => exact shows_everything.2 (by rw [hlevel]; decide)
  | _ + 3 => exact shows_everything.2 (by rw [hlevel]; decide)

end LogFilter

/-! ## Whole runs -/

namespace Report

variable {r : Report} {isOpen : Bool}

/-- What the end of the exploration gives cause to warn of is not reached if a line of the trace
cannot be written. -/
theorem mem_warnings_outcome {w : Warning} : w ∈ (r.outcome isOpen).warnings ↔
    w ∈ r.before ∨ (isOpen = true ∨ r.trace = []) ∧ w ∈ r.after := by
  cases isOpen with
  | true => simp [outcome, Outcome.success]
  | false =>
    by_cases htrace : r.trace = []
    · rw [outcome_closed_of_trace_eq_nil htrace]
      simp [Outcome.failure, htrace]
    · rw [outcome_closed_of_trace_ne_nil htrace]
      simp [Outcome.failure, htrace]

theorem warnings_outcome_sublist : (r.outcome isOpen).warnings.Sublist (r.before ++ r.after) := by
  cases isOpen with
  | true => exact .refl _
  | false =>
    by_cases htrace : r.trace = []
    · rw [outcome_closed_of_trace_eq_nil htrace]
      exact .refl _
    · rw [outcome_closed_of_trace_ne_nil htrace]
      exact List.sublist_append_left _ _

end Report

theorem Grammar.warnings_sublist (g : Grammar) : g.warnings.Sublist [.undeclared g.undeclared] := by
  unfold warnings
  split
  · exact List.nil_sublist _
  · exact .refl _

theorem Halt.warnings_sublist (halt : Halt) : halt.warnings.Sublist [.stoppedEarly halt] := by
  unfold warnings
  split
  · exact List.nil_sublist _
  · exact .refl _

namespace Outcome

variable {env : Surroundings} {arguments : List Text}

theorem warnings_of_refusal {refusal : Refusal}
    (h : Settings.ofArguments arguments = .error refusal) :
    (ofArguments env arguments).warnings = [] := by
  rw [ofArguments_of_refusal h]
  cases refusal with
  | usage stop =>
    show (stop.outcome env.outputOpen).warnings = []
    unfold UsageStop.outcome
    split <;> rfl
  | settings fault => rfl

/-- **When a run warns.** A run whose arguments or whose grammar are refused does not. A run whose
grammar is loaded warns of the symbols that the grammar uses and that are in neither alphabet, if
there are any, and then of an exploration that was stopped by the bound in the number of words or by
the clock, unless the run has failed at a line of the trace. Both warnings are subject to the log
setting. -/
theorem ofArguments_warns (env : Surroundings) (arguments : List Text) :
    (∀ refusal, Settings.ofArguments arguments = .error refusal →
      (ofArguments env arguments).warnings = []) ∧
    (∀ settings e, Settings.ofArguments arguments = .ok settings →
      Grammar.ofRead (env.read settings.path) = .error e →
      (ofArguments env arguments).warnings = []) ∧
    ∀ settings g x filter, Settings.ofArguments arguments = .ok settings →
      Grammar.ofRead (env.read settings.path) = .ok g →
      x = g.explore settings.limits .recorder env.clock →
      filter = LogFilter.ofRun settings.verbosity env.logSetting →
      (∀ symbols, .undeclared symbols ∈ (ofArguments env arguments).warnings ↔
        symbols = g.undeclared ∧ (∃ c ∈ g.usedSymbols, c ∉ g.terminals ∧ c ∉ g.nonTerminals) ∧
          filter.shows (Warning.undeclared symbols).logMessage) ∧
      (∀ halt, .stoppedEarly halt ∈ (ofArguments env arguments).warnings ↔
        halt = x.halt ∧ (x.halt = .wordLimit ∨ x.halt = .timeout) ∧
          (env.outputOpen = true ∨ ¬ (settings.trace = true ∧ 1 < x.discovered)) ∧
          filter.shows (Warning.stoppedEarly halt).logMessage) ∧
      (ofArguments env arguments).warnings.Sublist
        [.undeclared g.undeclared, .stoppedEarly x.halt] := by
  refine ⟨fun refusal h => warnings_of_refusal h, ?_, ?_⟩
  · intro settings e h he
    rw [ofArguments_of_loadError h he]
    rfl
  · rintro settings g x filter h hg rfl rfl
    rw [ofArguments_of_loaded h hg, ofExploration]
    have hbefore : ∀ w, w ∈ (Report.ofExploration settings g
        (g.explore settings.limits .recorder env.clock)).before ↔ w ∈ g.warnings := fun _ => Iff.rfl
    have hafter : ∀ w, w ∈ (Report.ofExploration settings g
        (g.explore settings.limits .recorder env.clock)).after ↔
          w ∈ (g.explore settings.limits .recorder env.clock).halt.warnings := fun _ => Iff.rfl
    refine ⟨fun symbols => ?_, fun halt => ?_, ?_⟩
    · rw [mem_warnings_showing, Report.mem_warnings_outcome, hbefore, hafter, Grammar.mem_warnings,
        or_iff_left fun hmem => Halt.undeclared_notMem_warnings _ symbols hmem.2,
        Warning.undeclared.injEq, and_assoc]
    · rw [mem_warnings_showing, Report.mem_warnings_outcome, hbefore, hafter, Halt.mem_warnings,
        or_iff_right (g.stoppedEarly_notMem_warnings halt), Warning.stoppedEarly.injEq,
        ← Report.trace_ne_nil_iff, not_ne_iff]
      constructor
      · rintro ⟨⟨hwritten, hhalt, hstopped⟩, hshown⟩
        exact ⟨hhalt, hstopped, hwritten, hshown⟩
      · rintro ⟨hhalt, hstopped, hwritten, hshown⟩
        exact ⟨⟨hwritten, hhalt, hstopped⟩, hshown⟩
    · exact List.filter_sublist.trans (Report.warnings_outcome_sublist.trans
        (g.warnings_sublist.append (Halt.warnings_sublist _)))

end Outcome

end StringRewriting
