import StringRewriting.Proofs.CommandLine.Output

/-!
# Writing line by line

A run writes each line as soon as there is one: those of the trace while it explores, then the
result, then the derivations. If a line of the trace cannot be written, the exploration goes on, but
nothing more is written and the run fails after it. Any other line that cannot be written ends the
run at once.

* `Output.writeLines?`: lines up to the first one that cannot be written.
* `Output.tracer`, `Grammar.observed_tracer`: what is written while a grammar is explored.
* `Outcome.ofWriting`, `Outcome.ofWriting_eq_outcome`: what a run leaves in the end is told by its
  report.
-/

namespace StringRewriting

/-- What lines are written to, and the lines so far. -/
structure Output where
  /-- Whether somebody reads it. -/
  isOpen : Bool
  /-- The lines so far. -/
  lines : List Text
  deriving DecidableEq

namespace Output

/-- One more line, which cannot be written if nobody reads it. -/
def writeLine? (o : Output) (l : Text) : Option Output :=
  if o.isOpen then some { o with lines := o.lines ++ [l] } else none

/-- Several lines, unless one of them cannot be written. -/
def writeLines? (o : Output) (ls : List Text) : Option Output :=
  ls.foldlM writeLine? o

theorem writeLines?_of_open {o : Output} (h : o.isOpen = true) (ls : List Text) :
    o.writeLines? ls = some { o with lines := o.lines ++ ls } := by
  induction ls generalizing o with
  | nil => rw [List.append_nil]; rfl
  | cons l ls ih =>
    have hline : o.writeLine? l = some { o with lines := o.lines ++ [l] } := if_pos h
    have hrest := ih (o := { o with lines := o.lines ++ [l] }) h
    rw [List.append_assoc, List.singleton_append] at hrest
    rw [writeLines?, List.foldlM_cons, hline]
    exact hrest

/-- Where nobody reads, already the first line cannot be written. -/
theorem writeLines?_of_closed {o : Output} (h : o.isOpen = false) (ls : List Text) :
    o.writeLines? ls = if ls = [] then some o else none := by
  cases ls with
  | nil => rfl
  | cons l ls =>
    have hline : o.writeLine? l = none := if_neg (by simp [h])
    rw [writeLines?, List.foldlM_cons, hline, if_neg (List.cons_ne_nil l ls)]
    rfl

/-- The observer who writes every transition on a line. Once a line could not be written, nothing
more is written. -/
def tracer (o : Output) : Observer (Option Output) where
  initial := some o
  notify o t := o.bind fun o => o.writeLine? t.render

/-- The observer who writes nothing. -/
def untouched (o : Output) : Observer (Option Output) where
  initial := some o
  notify o _ := o

end Output

namespace Grammar

variable (g : Grammar) (limits : Limits) (clock : Clock)

/-- While a grammar is explored, the lines of its trace are written. -/
theorem observed_tracer (o : Output) : (g.explore limits o.tracer clock).observed =
    o.writeLines? ((g.trace limits clock).map Transition.render) := by
  rw [observed_explore, Output.writeLines?, List.foldlM_eq_foldl, List.foldl_map]
  rfl

theorem observed_untouched (o : Output) :
    (g.explore limits o.untouched clock).observed = some o := by
  rw [observed_explore]
  induction g.trace limits clock with
  | nil => rfl
  | cons t ts ih => rw [List.foldl_cons]; exact ih

end Grammar

namespace Outcome

/-- What a run leaves that writes its lines one after the other. -/
def ofWriting (settings : Settings) (g : Grammar) (clock : Clock) (o : Output) : Outcome :=
  let e := g.explore settings.limits (if settings.trace then o.tracer else o.untouched) clock
  match e.observed with
  | none => .failure .writingTrace g.warnings
  | some o =>
    let derivations :=
      if settings.derivations then (e.words.filterMap e.derivation?).map Report.derivationLine
      else []
    match o.writeLines? (Quoted.list isVisible e.words :: derivations) with
    | none => .failure .writing (g.warnings ++ e.halt.warnings)
    | some o => .success (Text.unlines o.lines) (g.warnings ++ e.halt.warnings)

variable (settings : Settings) (g : Grammar) (clock : Clock)

/-- What is written are the lines of the report. -/
theorem ofWriting_eq {r : Report}
    (h : r = .ofExploration settings g (g.explore settings.limits .recorder clock)) (o : Output) :
    ofWriting settings g clock o =
      match o.writeLines? r.trace with
      | none => .failure .writingTrace r.before
      | some o =>
        match o.writeLines? (r.result :: r.derivations) with
        | none => .failure .writing (r.before ++ r.after)
        | some o => .success (Text.unlines o.lines) (r.before ++ r.after) := by
  subst h
  have hobserved : (g.explore settings.limits
      (if settings.trace then o.tracer else o.untouched) clock).observed = o.writeLines?
        (Report.ofExploration settings g (g.explore settings.limits .recorder clock)).trace := by
    rw [Report.trace_ofExploration]
    split
    · exact g.observed_tracer settings.limits clock o
    · exact g.observed_untouched settings.limits clock o
  rw [ofWriting, ← hobserved, Grammar.explore_eq_watch]
  rfl

/-- **A run that writes line by line leaves what its report says.** -/
theorem ofWriting_eq_outcome (isOpen : Bool) :
    ofWriting settings g clock ⟨isOpen, []⟩ =
      (Report.ofExploration settings g
        (g.explore settings.limits .recorder clock)).outcome isOpen := by
  rw [ofWriting_eq settings g clock rfl]
  generalize Report.ofExploration settings g (g.explore settings.limits .recorder clock) = r
  cases isOpen with
  | true =>
    simp only [Output.writeLines?_of_open]
    rfl
  | false =>
    rw [Output.writeLines?_of_closed rfl, Report.outcome, if_neg Bool.false_ne_true]
    by_cases htrace : r.trace = []
    · rw [if_pos htrace, if_neg (not_not_intro htrace)]
      simp only [Output.writeLines?_of_closed, if_neg (List.cons_ne_nil _ _)]
    · rw [if_neg htrace, if_pos htrace]

end Outcome

end StringRewriting
