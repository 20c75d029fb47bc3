import StringRewriting.Exploration.Limits
import StringRewriting.Text.Lines

/-!
# Settings of a run

What a command line can state: the path of the grammar, three numbers and what to show. A bound of
zero would leave nothing to explore and is refused.

* `Settings.fault?`: the depth is looked at first.
* `Settings.limits`: the limits of the exploration.
-/

namespace StringRewriting

/-- What a run is to do. -/
structure Settings where
  /-- Where the grammar is stored. -/
  path : Text
  /-- The bound in depth. -/
  depth : Nat
  /-- Whether every transition is shown as it is found. -/
  trace : Bool
  /-- Whether the derivation of every final word is shown. -/
  derivations : Bool
  /-- The bound in the number of recorded words. -/
  maxWords : Option Nat
  /-- The bound in milliseconds. -/
  timeout : Option Nat
  /-- How often more messages were asked for. -/
  verbosity : Nat
  deriving DecidableEq, Repr

/-- Why settings are refused. -/
inductive SettingsFault where
  /-- The bound in depth is zero. -/
  | zeroDepth
  /-- The bound in the number of words is zero. -/
  | zeroWords
  deriving DecidableEq, Repr

/-- The wording of a fault. -/
def SettingsFault.message : SettingsFault → String
  | .zeroDepth => "--depth must be at least 1"
  | .zeroWords => "--max-words must be at least 1"

namespace Settings

/-- The bound in depth where none is stated. -/
def defaultDepth : Nat := 20

/-- The first fault of settings. -/
def fault? (s : Settings) : Option SettingsFault :=
  if s.depth = 0 then some .zeroDepth
  else if s.maxWords = some 0 then some .zeroWords
  else none

/-- The limits of the exploration. -/
def limits (s : Settings) : Limits :=
  ⟨s.depth, s.maxWords, s.timeout⟩

end Settings

end StringRewriting
