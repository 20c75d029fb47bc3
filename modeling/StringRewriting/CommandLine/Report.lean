import StringRewriting.CommandLine.Arguments
import StringRewriting.CommandLine.LogFilter
import StringRewriting.Exploration.Run
import StringRewriting.Grammar.Load

/-!
# Runs of the program

A run reads its command line, loads a grammar, explores it and reports what was found. It leaves an
exit code, the text of its output, at most one line about an error, and warnings.

* `Report.outcome`: what is left when the output is open, and when nobody reads it.
* `Outcome.ofArguments`: a whole run in given surroundings.
-/

namespace StringRewriting

universe u

/-- What makes a result doubtful. -/
inductive Warning where
  /-- Symbols in use that belong to neither alphabet. -/
  | undeclared (symbols : Alphabet)
  /-- An exploration that may have left words out. -/
  | stoppedEarly (halt : Halt)
  deriving DecidableEq

/-- The wording of a warning. -/
def Warning.message : Warning → String
  | .undeclared symbols =>
    "symbols in neither alphabet are treated as non-terminals symbols=" ++
      String.ofList symbols.toWord
  | .stoppedEarly halt =>
    "exploration stopped early, the result may be incomplete halt=" ++ halt.message

/-- The part of the program that all warnings come from. -/
def Warning.part : Text := "thue".toList

/-- The name of the field that tells what a warning is about. -/
def Warning.field : Warning → Text
  | .undeclared _ => "symbols".toList
  | .stoppedEarly _ => "halt".toList

/-- What a log setting can look at in a warning. -/
def Warning.logMessage (w : Warning) : LogMessage :=
  ⟨part, ["message".toList, w.field], .warn⟩

/-- The warning that a grammar gives rise to. -/
def Grammar.warnings (g : Grammar) : List Warning :=
  if g.undeclared.isEmpty then [] else [.undeclared g.undeclared]

/-- The warning that the end of an exploration gives rise to. -/
def Halt.warnings (h : Halt) : List Warning :=
  if h.isComplete then [] else [.stoppedEarly h]

/-- Why a run fails. -/
inductive RunError where
  /-- Bounds of zero. -/
  | settings (fault : SettingsFault)
  /-- There is no grammar at the path. -/
  | loading (path : Text) (error : LoadError)
  /-- A transition could not be written. -/
  | writingTrace
  /-- Another line could not be written. -/
  | writing
  deriving DecidableEq, Repr

namespace RunError

/-- The system's wording for an output that nobody reads. -/
def closedOutput : String := "Broken pipe (os error 32)"

/-- The wording of an error, from what was being done to what lies behind it. -/
def message : RunError → String
  | .settings fault => fault.message
  | .loading path error =>
    ": ".intercalate (["loading " ++ String.ofList path, error.message] ++ error.cause?.toList)
  | .writingTrace => "writing trace: " ++ closedOutput
  | .writing => closedOutput

/-- The exit code. -/
def code : RunError → Nat
  | .settings _ => 2
  | _ => 1

/-- The line that tells of an error. -/
def line (e : RunError) : String := "error: " ++ e.message

end RunError

/-- What a run leaves. -/
structure Outcome where
  /-- The exit code. -/
  code : Nat
  /-- The text written to the output. -/
  output : Text
  /-- Why the arguments stated no settings, if they did not. -/
  stop : Option UsageStop
  /-- Why the run failed, if it did. -/
  error : Option RunError
  /-- The warnings in order. -/
  warnings : List Warning
  deriving DecidableEq

namespace Outcome

/-- What a successful run leaves. -/
def success (output : Text) (warnings : List Warning) : Outcome := ⟨0, output, none, none, warnings⟩

/-- What a failed run leaves. -/
def failure (error : RunError) (warnings : List Warning) : Outcome :=
  ⟨error.code, [], none, some error, warnings⟩

/-- The same with those warnings alone that are shown. -/
def showing (filter : LogFilter) (o : Outcome) : Outcome :=
  { o with warnings := o.warnings.filter fun w => filter.shows w.logMessage }

end Outcome

/-! ## Asking for help or the version -/

namespace UsageStop

/-- The version of the program. -/
def versionText : Text := "thue 0.1.0\n".toList

/-- The help on the command line. -/
def helpText : Text :=
  Text.unlines (List.map String.toList [
    "Enumerate the terminal words of a string-rewriting grammar",
    "",
    "Usage: thue [OPTIONS] <GRAMMAR>",
    "",
    "Arguments:",
    "  <GRAMMAR>  Path to the grammar file",
    "",
    "Options:",
    "  -d, --depth <DEPTH>    Maximum number of rewrite steps from the start word [default: 20]",
    "  -t, --trace            Print every parent -> child transition as it is discovered",
    "      --derivations      Print the derivation of each final word after the result",
    "      --max-words <N>    Stop after recording this many distinct words",
    "      --timeout-ms <MS>  Stop expanding after this many milliseconds",
    "  -v, --verbose...       Log verbosity on stderr (-v info, -vv debug, -vvv trace)",
    "  -h, --help             Print help",
    "  -V, --version          Print version"])

/-- What is written where arguments state no settings because they ask for something else. -/
def answer : UsageStop → Option Text
  | .helpAsked => some helpText
  | .versionAsked => some versionText
  | _ => none

/-- What a run leaves whose arguments state no settings. An answer that nobody reads is no error. -/
def outcome (stop : UsageStop) (outputOpen : Bool) : Outcome :=
  match stop.answer with
  | some text => ⟨0, if outputOpen then text else [], some stop, none, []⟩
  | none => ⟨2, [], some stop, none, []⟩

/-- The wording of what is wrong with the arguments, if something is. -/
def fault? : UsageStop → Option String
  | .nothingStated => some (String.ofList helpText)
  | .helpAsked | .versionAsked => none
  | .unknownArgument => some "error: unexpected argument found"
  | .missingValue => some "error: a value is required but none was supplied"
  | .needlessValue => some "error: unexpected value found"
  | .repeatedOption => some "error: an option cannot be used multiple times"
  | .malformedNumber => some "error: invalid value for an option"
  | .missingPath => some "error: the grammar file was not provided"

end UsageStop

/-! ## Reporting an exploration -/

/-- What there is to report once a grammar has been explored. -/
structure Report where
  /-- The lines of the trace, empty if it is not to be shown. -/
  trace : List Text
  /-- The line with the final words. -/
  result : Text
  /-- The lines with derivations, empty if they are not to be shown. -/
  derivations : List Text
  /-- What the grammar gives cause to warn of, before the exploration. -/
  before : List Warning
  /-- What the end of the exploration gives cause to warn of. -/
  after : List Warning
  deriving DecidableEq

namespace Report

/-- A derivation as it is shown. -/
def derivationLine (chain : List Word) : Text :=
  List.intercalate " -> ".toList chain

/-- The report on an exploration of a grammar. -/
def ofExploration (settings : Settings) (g : Grammar) (e : Exploration (Array Transition)) :
    Report where
  trace := if settings.trace then e.observed.toList.map Transition.render else []
  result := Quoted.list isVisible e.words
  derivations :=
    if settings.derivations then (e.words.filterMap e.derivation?).map derivationLine else []
  before := g.warnings
  after := e.halt.warnings

/-- The lines of the output in order. -/
def lines (r : Report) : List Text :=
  r.trace ++ r.result :: r.derivations

/-- What a run leaves after its report. If nobody reads the output, the first line fails. When it is
a line of the trace this is noticed at the end of the exploration and ends the run at once; when it
is the result, the warnings have been given before. -/
def outcome (r : Report) (outputOpen : Bool) : Outcome :=
  if outputOpen then .success (Text.unlines r.lines) (r.before ++ r.after)
  else if r.trace ≠ [] then .failure .writingTrace r.before
  else .failure .writing (r.before ++ r.after)

end Report

/-! ## Whole runs -/

/-- What a run depends on besides its arguments. -/
structure Surroundings where
  /-- The bytes of the file at a path. -/
  read : Text → Except ReadFault ByteArray
  /-- The log setting, if there is one. -/
  logSetting : Option Text
  /-- Whether somebody reads the output. -/
  outputOpen : Bool
  /-- The clock of the exploration. -/
  clock : Clock

namespace Outcome

/-- What a run leaves whose arguments are refused. -/
def ofRefusal (refusal : Refusal) (outputOpen : Bool) : Outcome :=
  match refusal with
  | .usage stop => stop.outcome outputOpen
  | .settings fault => .failure (.settings fault) []

/-- What a run leaves whose grammar is not loaded. -/
def ofLoadError (settings : Settings) (error : LoadError) : Outcome :=
  .failure (.loading settings.path error) []

/-- What a run leaves after an exploration. -/
def ofExploration (settings : Settings) (logSetting : Option Text) (outputOpen : Bool) (g : Grammar)
    (e : Exploration (Array Transition)) : Outcome :=
  ((Report.ofExploration settings g e).outcome outputOpen).showing
    (.ofRun settings.verbosity logSetting)

/-- What a run with these arguments leaves. -/
def ofArguments (env : Surroundings) (arguments : List Text) : Outcome :=
  match Settings.ofArguments arguments with
  | .error refusal => ofRefusal refusal env.outputOpen
  | .ok settings =>
    match Grammar.ofRead (env.read settings.path) with
    | .error error => ofLoadError settings error
    | .ok g =>
      ofExploration settings env.logSetting env.outputOpen g
        (g.explore settings.limits .recorder env.clock)

end Outcome

end StringRewriting
