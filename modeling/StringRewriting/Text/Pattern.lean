import StringRewriting.Text.Lines

/-!
# Which texts are patterns

A pattern is a regular expression: symbols, dots, classes written with a backslash, groups in round
brackets, bars between alternatives, and repetition signs behind what they repeat. It describes a
whole text, so it has no marks for the ends of lines or words. Only what can stand in a single entry
of a log setting is admitted: classes in square brackets and counts in braces, which would have to
contain a closing bracket or a comma, are not. Its parts must not be nested too deeply.

Whether a text is a pattern is decided by reading it symbol by symbol.

* `Level.depth`: how deeply the parts of a group are nested.
* `Reading.take`: what one symbol changes.
* `isPattern`: nothing is wrong, no group is left open, and the depth is within the bound.
-/

namespace StringRewriting.Pattern

/-! ## Depth -/

/-- What has been read of a group, or of a whole pattern: a row of items in the last alternative,
and the alternatives before it. -/
structure Level where
  /-- The number of items in the last alternative. -/
  items : Nat
  /-- The depth of its deepest item. -/
  deepest : Nat
  /-- The depth of its last item, if there is one that can be repeated. -/
  last : Option Nat
  /-- The depth of the deepest of the alternatives before it, if there are any. -/
  before : Option Nat
  deriving DecidableEq, Repr

namespace Level

/-- Where nothing has been read. -/
def empty : Level := ⟨0, 0, none, none⟩

/-- With one more item of some depth. -/
def add (l : Level) (depth : Nat) : Level :=
  { l with items := l.items + 1, deepest := max l.deepest depth, last := some depth }

/-- With one more item that cannot be repeated. -/
def addSetting (l : Level) : Level :=
  { l with items := l.items + 1, last := none }

/-- With the last item repeated, which makes it deeper. -/
def repeatLast? (l : Level) : Option Level :=
  l.last.map fun depth => { l with deepest := max l.deepest (depth + 1), last := some (depth + 1) }

/-- The depth of the last alternative: items in a row are one deeper than an item alone. -/
def rowDepth (l : Level) : Nat :=
  if l.items ≤ 1 then l.deepest else l.deepest + 1

/-- The depth of everything: several alternatives are one deeper than one alone. -/
def depth (l : Level) : Nat :=
  match l.before with
  | none => l.rowDepth
  | some depth => max depth l.rowDepth + 1

/-- With a new alternative. -/
def addAlternative (l : Level) : Level :=
  ⟨0, 0, none, some (max (l.before.getD 0) l.rowDepth)⟩

/-- The greatest depth of a pattern. -/
def maxDepth : Nat := 250

end Level

/-! ## Reading -/

/-- Settings that a group or an option sign in it can change. -/
structure Options where
  /-- Blanks have no meaning, and a number sign begins a remark. -/
  spaced : Bool
  /-- All symbols may be used, and not those of ASCII alone. -/
  unicode : Bool
  deriving DecidableEq, Repr

/-- What the next symbol belongs to. -/
inductive Mode where
  /-- The pattern itself. -/
  | items
  /-- The pattern itself, right behind a repetition sign, which a question mark makes reluctant. -/
  | repeated
  /-- A sign behind a backslash. -/
  | escape
  /-- The letter of a general category. -/
  | category
  /-- A code point of which so many digits are left, those before them having this value. -/
  | code (left value : Nat)
  /-- What stands behind the bracket that opens a group. -/
  | opened
  /-- Option letters behind a question mark: those met with what they are turned to, what the next
  one is turned to, and whether the sign for this was met last. -/
  | options (met : List (Char × Bool)) (on : Bool) (dangling : Bool)
  /-- The bracket before the name of a group. -/
  | beforeName
  /-- The name of a group as far as it has been read. -/
  | name (met : Text)
  deriving DecidableEq, Repr

/-- Whether blanks and remarks may stand before the next symbol if they have no meaning. -/
def Mode.allowsBlanks : Mode → Bool
  | .items | .repeated | .category | .code _ _ | .opened => true
  | .escape | .options _ _ _ | .beforeName | .name _ => false

/-- How far a pattern has been read. -/
structure Reading where
  /-- What the next symbol belongs to. -/
  mode : Mode
  /-- Whether a remark has begun. -/
  remark : Bool
  /-- The options in force. -/
  options : Options
  /-- What has been read of the innermost open group. -/
  level : Level
  /-- The options and what has been read around every open group, the innermost first. -/
  around : List (Options × Level)
  /-- The names of groups. -/
  names : List Text
  deriving DecidableEq, Repr

namespace Reading

/-- Before the first symbol. -/
def start : Reading := ⟨.items, false, ⟨false, true⟩, .empty, [], []⟩

/-- Behind one more item without parts. -/
def behindItem (r : Reading) : Reading := { r with mode := .items, level := r.level.add 0 }

/-- Behind one more symbol, which may have to be one of ASCII. -/
def behindSymbol? (r : Reading) (codePoint : Nat) : Option Reading :=
  if r.options.unicode ∨ codePoint ≤ 0x7f then some r.behindItem else none

/-- Behind the beginning of a group with these options. -/
def intoGroup (r : Reading) (options : Options) : Reading :=
  { r with mode := .items, options, level := .empty, around := (r.options, r.level) :: r.around }

/-- Behind the end of a group. -/
def outOfGroup? (r : Reading) : Option Reading :=
  match r.around with
  | [] => none
  | (options, level) :: around =>
    some { r with mode := .items, options, level := level.add (r.level.depth + 1), around }

/-- Takes a symbol of the pattern itself. -/
def takeItem (r : Reading) (c : Char) : Option Reading :=
  match c with
  | '(' => some { r with mode := .opened }
  | ')' => r.outOfGroup?
  | '|' => some { r with mode := .items, level := r.level.addAlternative }
  | '[' | '\x7b' | '^' | '$' => none
  | '?' | '*' | '+' => do
    let level ← r.level.repeatLast?
    return { r with mode := .repeated, level }
  | '\\' => some { r with mode := .escape }
  | '.' => if r.options.unicode then some r.behindItem else none
  | _ => r.behindSymbol? c.toNat

/-- The signs and letters that stand for a symbol behind a backslash. -/
def escapable : List Char :=
  ['\\', '.', '+', '*', '?', '(', ')', '|', '[', ']', '\x7b', '\x7d', '^', '$', '#', '&', '-', '~',
    'a', 'f', 't', 'n', 'r', 'v']

/-- Takes the sign behind a backslash. -/
def takeEscape (r : Reading) (c : Char) : Option Reading :=
  match c with
  | 'x' => some { r with mode := .code 2 0 }
  | 'u' => some { r with mode := .code 4 0 }
  | 'U' => some { r with mode := .code 8 0 }
  | 'd' | 's' | 'w' | 'D' | 'S' | 'W' => some r.behindItem
  | 'p' | 'P' => some { r with mode := .category }
  | ' ' => if r.options.spaced then some r.behindItem else none
  | _ => if c ∈ escapable then some r.behindItem else none

/-- The general categories that have a single letter. -/
def categories : List Char := ['c', 'l', 'm', 'n', 'p', 's', 'z']

/-- Takes the letter of a general category, which is a class of all symbols. -/
def takeCategory (r : Reading) (c : Char) : Option Reading :=
  if r.options.unicode ∧ c.toLower ∈ categories then some r.behindItem else none

/-- The value of a hexadecimal digit. -/
def hexValue? (c : Char) : Option Nat :=
  if '0' ≤ c ∧ c ≤ '9' then some (c.toNat - '0'.toNat)
  else if 'a' ≤ c ∧ c ≤ 'f' then some (c.toNat - 'a'.toNat + 10)
  else if 'A' ≤ c ∧ c ≤ 'F' then some (c.toNat - 'A'.toNat + 10)
  else none

/-- Takes a digit of a code point, whose value has to be that of a symbol when it is complete. -/
def takeDigit (r : Reading) (left value : Nat) (c : Char) : Option Reading := do
  let value := 16 * value + (← hexValue? c)
  if 1 < left then return { r with mode := .code (left - 1) value }
  else if value.isValidChar then r.behindSymbol? value
  else none

/-- The options changed by option letters. -/
def changed (options : Options) (met : List (Char × Bool)) : Options :=
  ⟨(met.lookup 'x').getD options.spaced, (met.lookup 'u').getD options.unicode⟩

/-- Takes a symbol behind the question mark of a group: an option letter, at most once, the sign
that turns off all that follow, or what ends the options. -/
def takeOption (r : Reading) (met : List (Char × Bool)) (on dangling : Bool) (c : Char) :
    Option Reading :=
  match c with
  | 'i' | 'm' | 's' | 'U' | 'u' | 'x' =>
    if (met.lookup c).isSome then none
    else some { r with mode := .options ((c, on) :: met) on false }
  | '-' => if on then some { r with mode := .options met false true } else none
  | ':' => if dangling then none else some (r.intoGroup (changed r.options met))
  | ')' =>
    if dangling ∨ met = [] then none
    else
      some { r with mode := .items, options := changed r.options met, level := r.level.addSetting }
  | 'P' => if met = [] ∧ on then some { r with mode := .beforeName } else none
  | _ => none

/-- Whether a symbol may stand in the name of a group. -/
def isGroupNameSymbol (first : Bool) (c : Char) : Bool :=
  c.isAlpha || c = '_' || (!first && (c.isDigit || c = '.' || c = '[' || c = ']'))

/-- Takes a symbol of the name of a group, which must be new. -/
def takeName (r : Reading) (met : Text) (c : Char) : Option Reading :=
  if c = '>' then
    if met = [] ∨ met ∈ r.names then none
    else some { r.intoGroup r.options with names := met :: r.names }
  else if isGroupNameSymbol met.isEmpty c then some { r with mode := .name (met ++ [c]) }
  else none

/-- Takes one symbol that is neither a meaningless blank nor of a remark. -/
def takeMeant (r : Reading) (c : Char) : Option Reading :=
  match r.mode with
  | .items => r.takeItem c
  | .repeated => if c = '?' then some { r with mode := .items } else r.takeItem c
  | .escape => r.takeEscape c
  | .category => r.takeCategory c
  | .code left value => r.takeDigit left value c
  | .opened =>
    if c = '?' then some { r with mode := .options [] true false }
    else (r.intoGroup r.options).takeItem c
  | .options met on dangling => r.takeOption met on dangling c
  | .beforeName => if c = '<' then some { r with mode := .name [] } else none
  | .name met => r.takeName met c

/-- Behind a blank or the beginning of a remark, which parts a repetition sign from a question mark.
-/
def behindBlank (r : Reading) : Reading :=
  if r.mode = .repeated then { r with mode := .items } else r

/-- Takes one symbol, unless it is wrong there. -/
def take (r : Reading) (c : Char) : Option Reading :=
  if r.remark then some (if c = '\n' then { r with remark := false } else r)
  else if r.options.spaced ∧ r.mode.allowsBlanks ∧ isBlank c then some r.behindBlank
  else if r.options.spaced ∧ r.mode.allowsBlanks ∧ c = '#' then
    some { r.behindBlank with remark := true }
  else r.takeMeant c

/-- Whether the pattern may end here. -/
def isComplete (r : Reading) : Bool :=
  r.around.isEmpty && (r.mode = .items || r.mode = .repeated) && r.level.depth ≤ Level.maxDepth

end Reading

/-- Whether a text is a pattern. -/
def isPattern (t : Text) : Bool :=
  (t.foldlM Reading.take Reading.start).any Reading.isComplete

end StringRewriting.Pattern
