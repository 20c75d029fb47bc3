import StringRewriting.CommandLine.Report

/-!
# The program

Reads the grammar from the file system, looks at the real clock between the steps of the exploration
and writes what the run leaves.
-/

namespace StringRewriting.Terminal

/-- What a failure of the system means for a reader. -/
def readFault : IO.Error → ReadFault
  | .noFileOrDirectory _ _ _ => .missing
  | .inappropriateType _ code _ => if code = 21 then .isFolder else .notFolder
  | .permissionDenied _ code details => .other (details ++ " (os error " ++ toString code ++ ")")
  | e => .other (toString e)

/-- The bytes of the file at a path. -/
def readFile (path : Text) : IO (Except ReadFault ByteArray) := do
  try
    return .ok (← IO.FS.readBinFile (String.ofList path))
  catch e =>
    return .error (readFault e)

/-- Repeated steps until the end by the real clock, which showed `started` milliseconds at first. -/
def explore (g : Grammar) (limits : Limits) (started : Nat) (s : State (Array Transition)) :
    IO (Exploration (Array Transition)) := do
  let now ← IO.monoMsNow
  match h : s.step g limits .recorder (now - started) with
  | .ended reason s' => return s'.outcome g reason
  | .continued s' =>
    have := State.workload_lt_of_step h
    explore g limits started s'
termination_by s.workload g limits

/-- Writes to the output and says whether somebody reads it. -/
def write (output : Text) : IO Bool := do
  try
    let out ← IO.getStdout
    out.putStr (String.ofList output)
    out.flush
    return true
  catch _ =>
    return false

/-- Writes what a run leaves, which depends on whether somebody reads the output, and gives the exit
code. -/
def finish (outcome : Bool → Outcome) : IO UInt32 := do
  let o := outcome (← write (outcome true).output)
  for warning in o.warnings do
    IO.eprintln ("WARN thue: " ++ warning.message)
  if let some fault := o.stop.bind UsageStop.fault? then
    IO.eprintln fault
  if let some error := o.error then
    IO.eprintln error.line
  return o.code.toUInt32

/-- The name of the variable that holds the log setting. -/
def logVariable : String := "RUST_LOG"

/-- A whole run. -/
def run (arguments : List Text) : IO UInt32 := do
  match Settings.ofArguments arguments with
  | .error refusal => finish (Outcome.ofRefusal refusal)
  | .ok settings =>
    match Grammar.ofRead (← readFile settings.path) with
    | .error error => finish fun _ => Outcome.ofLoadError settings error
    | .ok g =>
      let logSetting := (← IO.getEnv logVariable).map String.toList
      let e ← explore g settings.limits (← IO.monoMsNow) (.initial g .recorder)
      finish fun isOpen => Outcome.ofExploration settings logSetting isOpen g e

end StringRewriting.Terminal

/-- Runs the program on its arguments. -/
def main (arguments : List String) : IO UInt32 :=
  StringRewriting.Terminal.run (arguments.map String.toList)
