import StringRewriting.CommandLine.Number
import StringRewriting.CommandLine.Settings

/-!
# Reading command lines

The arguments are read from left to right and the first fault ends the reading. Options have long
names after two dashes, some of them also a letter, and letters may stand together behind one dash.
A number follows its option as the rest of the letters, behind an equals sign, or as the next
argument. Two dashes alone make paths of all that follows.

What has been met last, an option still without its number or a value not yet looked at, is
*pending*: it is looked at when the next option or path is met, or at the end. An argument that
cannot be placed at all is refused before what is pending is looked at.

* `Reading.take`: one argument.
* `Settings.ofArguments`: a whole command line.
-/

namespace StringRewriting

/-- Why a command line states no settings. -/
inductive UsageStop where
  /-- There is nothing on it. -/
  | nothingStated
  /-- It asks for help. -/
  | helpAsked
  /-- It asks for the version. -/
  | versionAsked
  /-- An option that does not exist, or a second path. -/
  | unknownArgument
  /-- An option without its number, or an empty path. -/
  | missingValue
  /-- A value for an option that takes none. -/
  | needlessValue
  /-- An option that was there before. -/
  | repeatedOption
  /-- A value that is not a number. -/
  | malformedNumber
  /-- There is no path. -/
  | missingPath
  deriving DecidableEq, Repr

/-- Options that take a number. -/
inductive Bound where
  /-- The bound in depth. -/
  | depth
  /-- The bound in the number of words. -/
  | maxWords
  /-- The bound in milliseconds. -/
  | timeout
  deriving DecidableEq, Repr

/-- Options that take no value. -/
inductive Switch where
  /-- Show the transitions. -/
  | trace
  /-- Show the derivations. -/
  | derivations
  /-- Show more messages. -/
  | verbose
  /-- Show the help and do nothing else. -/
  | help
  /-- Show the version and do nothing else. -/
  | version
  deriving DecidableEq, Repr

/-- What a name stands for. -/
inductive Meaning where
  /-- An option that takes a number. -/
  | bound (bound : Bound)
  /-- An option that takes no value. -/
  | switch (switch : Switch)
  deriving DecidableEq, Repr

namespace Meaning

/-- The option with a long name. -/
def ofName? (name : Text) : Option Meaning :=
  if name = "depth".toList then some (.bound .depth)
  else if name = "max-words".toList then some (.bound .maxWords)
  else if name = "timeout-ms".toList then some (.bound .timeout)
  else if name = "trace".toList then some (.switch .trace)
  else if name = "derivations".toList then some (.switch .derivations)
  else if name = "verbose".toList then some (.switch .verbose)
  else if name = "help".toList then some (.switch .help)
  else if name = "version".toList then some (.switch .version)
  else none

/-- The option with a letter. -/
def ofLetter? : Char → Option Meaning
  | 'd' => some (.bound .depth)
  | 't' => some (.switch .trace)
  | 'v' => some (.switch .verbose)
  | 'h' => some (.switch .help)
  | 'V' => some (.switch .version)
  | _ => none

end Meaning

/-- What arguments have stated. -/
structure Stated where
  /-- The path. -/
  path : Option Text
  /-- The bound in depth. -/
  depth : Option Nat
  /-- The bound in the number of words. -/
  maxWords : Option Nat
  /-- The bound in milliseconds. -/
  timeout : Option Nat
  /-- Whether transitions are to be shown. -/
  trace : Bool
  /-- Whether derivations are to be shown. -/
  derivations : Bool
  /-- How often more messages were asked for, as far as this is counted. -/
  verbosity : Nat
  deriving DecidableEq, Repr

namespace Stated

/-- Where nothing has been stated. -/
def nothing : Stated := ⟨none, none, none, none, false, false, 0⟩

/-- The number stated for a bound. -/
def bound? (s : Stated) : Bound → Option Nat
  | .depth => s.depth
  | .maxWords => s.maxWords
  | .timeout => s.timeout

/-- States a number for a bound. -/
def setBound (s : Stated) : Bound → Nat → Stated
  | .depth, n => { s with depth := some n }
  | .maxWords, n => { s with maxWords := some n }
  | .timeout, n => { s with timeout := some n }

/-- States the text of a number for a bound, which must not have one yet. -/
def acceptNumber (s : Stated) (b : Bound) (value : Text) : Except UsageStop Stated :=
  if (s.bound? b).isSome then .error .repeatedOption
  else
    match Number.ofText? value with
    | none => .error .malformedNumber
    | some n => .ok (s.setBound b n)

/-- States the path, which must not be empty. -/
def acceptPath (s : Stated) (value : Text) : Except UsageStop Stated :=
  if value = [] then .error .missingValue else .ok { s with path := some value }

/-- The greatest count of requests for more messages. -/
def maxVerbosity : Nat := 255

/-- States an option without value, which must not be there yet unless it is counted. -/
def acceptSwitch (s : Stated) : Switch → Except UsageStop Stated
  | .trace => if s.trace then .error .repeatedOption else .ok { s with trace := true }
  | .derivations =>
    if s.derivations then .error .repeatedOption else .ok { s with derivations := true }
  | .verbose => .ok { s with verbosity := min (s.verbosity + 1) maxVerbosity }
  | .help => .error .helpAsked
  | .version => .error .versionAsked

/-- The settings that have been stated, the usual depth where none is. -/
def settings (s : Stated) : Except UsageStop Settings :=
  if s = nothing then .error .nothingStated
  else
    match s.path with
    | none => .error .missingPath
    | some path =>
      .ok ⟨path, s.depth.getD Settings.defaultDepth, s.trace, s.derivations, s.maxWords, s.timeout,
        s.verbosity⟩

end Stated

/-- What has been met last and not been looked at yet. -/
inductive Pending where
  /-- Nothing. -/
  | none
  /-- An option, its number not being met yet. -/
  | opened (bound : Bound)
  /-- An option and its number. -/
  | number (bound : Bound) (value : Text)
  /-- A path. -/
  | path (value : Text)
  deriving DecidableEq, Repr

/-- How far the arguments have been read. -/
structure Reading where
  /-- What they have stated. -/
  stated : Stated
  /-- What is pending. -/
  pending : Pending
  /-- Whether a path was met. -/
  hasPath : Bool
  /-- Whether two dashes alone were met, so that all that follows is a path. -/
  onlyPaths : Bool
  deriving DecidableEq, Repr

namespace Reading

/-- Before the first argument. -/
def start : Reading := ⟨.nothing, .none, false, false⟩

/-- Looks at what is pending. -/
def settled (r : Reading) : Except UsageStop Stated :=
  match r.pending with
  | .none => .ok r.stated
  | .opened _ => .error .missingValue
  | .number b value => r.stated.acceptNumber b value
  | .path value => r.stated.acceptPath value

/-- Goes on after what was pending has been looked at and `accept` has been applied. -/
def settleThen (r : Reading) (accept : Stated → Except UsageStop Stated) (pending : Pending) :
    Except UsageStop Reading := do
  let stated ← r.settled
  let stated ← accept stated
  return { r with stated, pending }

/-- Takes a path. -/
def takePath (r : Reading) (value : Text) : Except UsageStop Reading :=
  if r.hasPath then .error .unknownArgument
  else return { (← r.settleThen .ok (.path value)) with hasPath := true }

/-- Takes what stands behind two dashes: a name, and a value if there is an equals sign. -/
def takeLong (r : Reading) (t : Text) : Except UsageStop Reading :=
  match Meaning.ofName? (t.takeWhile (· ≠ '=')), t.dropWhile (· ≠ '=') with
  | none, _ => .error .unknownArgument
  | some (.bound b), [] => r.settleThen .ok (.opened b)
  | some (.bound b), _ :: value => r.settleThen (·.acceptNumber b value) .none
  | some (.switch s), [] => r.settleThen (·.acceptSwitch s) .none
  | some (.switch _), _ :: _ => .error .needlessValue

/-- Takes letters. Behind the letter of an option with a number, the rest is the number. -/
def takeLetters (r : Reading) : Text → Except UsageStop Reading
  | [] => .ok r
  | c :: t =>
    match Meaning.ofLetter? c with
    | none => .error .unknownArgument
    | some (.switch s) => do
      let r ← r.settleThen (·.acceptSwitch s) .none
      r.takeLetters t
    | some (.bound b) =>
      match t with
      | [] => r.settleThen .ok (.opened b)
      | '=' :: value => r.settleThen (·.acceptNumber b value) .none
      | value => r.settleThen (·.acceptNumber b value) .none

/-- Takes an argument that begins with no dash or is a single dash: a number where one is awaited,
else a path. -/
def takeWord (r : Reading) (value : Text) : Except UsageStop Reading :=
  match r.pending with
  | .opened b => .ok { r with pending := .number b value }
  | _ => r.takePath value

/-- Takes one argument. -/
def take (r : Reading) (argument : Text) : Except UsageStop Reading :=
  if r.onlyPaths then r.takePath argument
  else
    match argument with
    | ['-', '-'] => .ok { r with onlyPaths := true }
    | '-' :: '-' :: t => r.takeLong t
    | '-' :: c :: t => r.takeLetters (c :: t)
    | value => r.takeWord value

end Reading

/-- Why a command line leads to no run. -/
inductive Refusal where
  /-- The arguments state no settings. -/
  | usage (stop : UsageStop)
  /-- The settings are not allowed. -/
  | settings (fault : SettingsFault)
  deriving DecidableEq, Repr

namespace Settings

/-- The settings that arguments state, allowed or not. -/
def stated (arguments : List Text) : Except UsageStop Settings := do
  let r ← arguments.foldlM Reading.take Reading.start
  let s ← r.settled
  s.settings

/-- The settings that arguments state. -/
def ofArguments (arguments : List Text) : Except Refusal Settings :=
  match stated arguments with
  | .error stop => .error (.usage stop)
  | .ok s =>
    match s.fault? with
    | some fault => .error (.settings fault)
    | none => .ok s

end Settings

end StringRewriting
