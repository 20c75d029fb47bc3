import StringRewriting.Grammar.Basic

/-!
# Grammar sources

A source has three header lines, the start word and the two alphabets, and then a line for every
left side with its alternatives, as in `S=aS|b`. Blanks at the end of a line are dropped; everything
else on a line counts, also at its front.

* `RuleLine.read?`: the longest rule line at the front of a text, with what remains.
* `Grammar.ofSource`: reads a source and reports its first fault.
* `Grammar.render`: writes a grammar as a source, consecutive rules with one left side on one line.
-/

namespace StringRewriting

/-! ## Rule lines -/

/-- A left-hand side and its alternatives, of which there is at least one. -/
structure RuleLine where
  /-- The common left-hand side, which is checked only when rules are made. -/
  lhs : Word
  /-- The first alternative. -/
  first : Word
  /-- The other alternatives. -/
  others : List Word
  deriving DecidableEq, Repr

namespace RuleLine

/-- All the alternatives in order. -/
def alternatives (l : RuleLine) : List Word :=
  l.first :: l.others

/-- The first alternative at the front of a text, the other ones and what remains. A bar ends an
alternative and opens the next; the sign between sides ends the last one. -/
def readAlternatives : Text → Word × List Word × Text
  | [] => ([], [], [])
  | c :: t =>
    if c = '=' then ([], [], c :: t)
    else
      let (first, others, rest) := readAlternatives t
      if c = '|' then ([], first :: others, rest) else (c :: first, others, rest)

/-- The longest rule line at the front of a text and what remains, unless there is no sign between
sides. -/
def read? : Text → Option (RuleLine × Text)
  | [] => none
  | c :: t =>
    if c = '=' then
      let (first, others, rest) := readAlternatives t
      some (⟨[], first, others⟩, rest)
    else (read? t).map fun (l, rest) => ({ l with lhs := c :: l.lhs }, rest)

/-- The rule line that a whole line states. -/
def ofLine (t : Text) : Except LineFault RuleLine :=
  match read? t with
  | none => .error .noSeparator
  | some (l, []) => .ok l
  | some (_, _ :: _) => .error .extraSeparator

/-- The rules of a line, one for every alternative. -/
def rules (l : RuleLine) : Except GrammarError (List Rule) :=
  l.alternatives.mapM (Rule.ofSides l.lhs)

/-- The lines on which rules are written: a line takes as many consecutive rules with the same left
side as there are. -/
def ofRules : List Rule → List RuleLine
  | [] => []
  | r :: rs =>
    match ofRules rs with
    | [] => [⟨r.lhs, r.rhs, []⟩]
    | l :: ls =>
      if l.lhs = r.lhs then ⟨r.lhs, r.rhs, l.alternatives⟩ :: ls
      else ⟨r.lhs, r.rhs, []⟩ :: l :: ls

/-- A rule line as it is written. -/
def render (l : RuleLine) : Text :=
  l.lhs ++ '=' :: List.intercalate ['|'] l.alternatives

end RuleLine

/-! ## Whole sources -/

namespace Grammar

/-- The rules stated by the lines from number `n` on, or the first fault. -/
def readRules (n : Nat) : List Text → Except GrammarError (List Rule)
  | [] => .ok []
  | t :: ts => do
    let line ← (RuleLine.ofLine t).mapError (GrammarError.format n)
    let rules ← line.rules
    let more ← readRules (n + 1) ts
    return rules ++ more

/-- The grammar with these lines, which carry no blanks at their ends. -/
def ofLines : List Text → Except GrammarError Grammar
  | [] => .error (.format Header.start.line (.missing .start))
  | [_] => .error (.format Header.nonTerminals.line (.missing .nonTerminals))
  | [_, _] => .error (.format Header.terminals.line (.missing .terminals))
  | start :: nonTerminals :: terminals :: ts => do
    let rules ← readRules (Header.terminals.line + 1) ts
    return ⟨start, .ofSymbols nonTerminals, .ofSymbols terminals, rules⟩

/-- The grammar that a source describes. -/
def ofSource (s : Text) : Except GrammarError Grammar :=
  ofLines ((Text.lines s).map Text.trimEnd)

/-- The source of a grammar. -/
def render (g : Grammar) : Text :=
  Text.unlines (g.start :: g.nonTerminals.toWord :: g.terminals.toWord ::
    (RuleLine.ofRules g.rules).map RuleLine.render)

end Grammar

end StringRewriting
