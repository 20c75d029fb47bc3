import StringRewriting.Text.Quoted
import StringRewriting.Text.Visible
import StringRewriting.Word

/-!
# What can be wrong with a grammar

A grammar is refused for one cause only, the first that is met: a line of its source that does not
have the required form, or a rule without a left-hand side. `GrammarError.message` words the cause.
-/

namespace StringRewriting

/-- The three lines at the head of a grammar source. -/
inductive Header where
  /-- The first line. -/
  | start
  /-- The second line. -/
  | nonTerminals
  /-- The third line. -/
  | terminals
  deriving DecidableEq, Repr

/-- The number of the line that holds a header. -/
def Header.line : Header → Nat
  | .start => 1
  | .nonTerminals => 2
  | .terminals => 3

/-- What a header line states. -/
def Header.description : Header → String
  | .start => "start word"
  | .nonTerminals => "non-terminal alphabet"
  | .terminals => "terminal alphabet"

theorem Header.line_injective {h h' : Header} (heq : h.line = h'.line) : h = h' := by
  cases h <;> cases h' <;> simp_all [line]

/-- Why a line of a grammar source does not have the required form. -/
inductive LineFault where
  /-- The source ends before this header. -/
  | missing (header : Header)
  /-- A rule line without the sign between its sides. -/
  | noSeparator
  /-- A rule line with a second sign between sides. -/
  | extraSeparator
  deriving DecidableEq, Repr

/-- The wording of a fault. -/
def LineFault.message : LineFault → String
  | .missing header => "missing " ++ header.description
  | .noSeparator => "expected '=' separator"
  | .extraSeparator => "more than one '=' separator"

/-- Why there is no such grammar. -/
inductive GrammarError where
  /-- A line of the source, counted from one, does not have the required form. -/
  | format (line : Nat) (fault : LineFault)
  /-- A rule whose left-hand side is empty, so that it would apply everywhere in every word. -/
  | emptyLeft (rhs : Word)
  deriving DecidableEq, Repr

/-- The wording of an error. -/
def GrammarError.message : GrammarError → String
  | .format line fault => "malformed grammar at line " ++ toString line ++ ": " ++ fault.message
  | .emptyLeft rhs =>
    "rule with empty left-hand side (rewrites to " ++ String.ofList (Quoted.text isVisible rhs) ++
      ")"

end StringRewriting
