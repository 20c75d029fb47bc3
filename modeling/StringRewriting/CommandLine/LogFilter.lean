import StringRewriting.CommandLine.Number
import StringRewriting.Text.NameSymbol
import StringRewriting.Text.Pattern

/-!
# Which messages are shown

A message has a level, comes from a part of a program and has named fields. A log setting says which
messages are shown: it is a list of directives between commas, of which the one that is closest to a
message decides how much is shown. A directive is a level, or a part or brackets or two of these in
any order, and then a level behind an equals sign; without one it shows everything. A part stands
for all parts whose names begin with it. The brackets hold the name of a span of time and, in
braces, a field that the message must have, perhaps with a value. No spans are recorded here, and
values are compared only within them, so that directives about spans and about values are read but
show nothing.

* `LogDirective.ofText?`, `LogFilter.ofText?`: what a text states, unless it is unreadable.
* `LogDirective.closeness`: a longer part is closer, then a field, then the name of the field.
* `LogFilter.shows`: whether a message is shown.
* `LogFilter.ofRun`: what is shown in a run.
-/

namespace StringRewriting

/-! ## Levels -/

/-- How much is shown. -/
inductive LogLevel where
  /-- Nothing. -/
  | off
  /-- What prevents a result. -/
  | error
  /-- Also what makes a result doubtful. -/
  | warn
  /-- Also what is done. -/
  | info
  /-- Also how it is done. -/
  | debug
  /-- Everything. -/
  | trace
  deriving DecidableEq, Repr

namespace LogLevel

/-- The place of a level, from the least to the most that is shown. -/
def rank : LogLevel → Nat
  | .off => 0
  | .error => 1
  | .warn => 2
  | .info => 3
  | .debug => 4
  | .trace => 5

/-- The level with a name, in capital or small letters. -/
def ofName? (t : Text) : Option LogLevel :=
  let name := t.map Char.toLower
  if name = "off".toList then some .off
  else if name = "error".toList then some .error
  else if name = "warn".toList then some .warn
  else if name = "info".toList then some .info
  else if name = "debug".toList then some .debug
  else if name = "trace".toList then some .trace
  else none

/-- The level with a number. -/
def ofRank? : Nat → Option LogLevel
  | 0 => some .off
  | 1 => some .error
  | 2 => some .warn
  | 3 => some .info
  | 4 => some .debug
  | 5 => some .trace
  | _ => none

/-- The level that a text states, by its name or by one digit. -/
def ofText? (t : Text) : Option LogLevel :=
  match t with
  | [c] => if c.isDigit then (Number.ofText? t).bind ofRank? else none
  | _ => ofName? t

/-- Whether a text in the place of a part stands for a level instead. Its number may have more
digits than one. -/
def isMeantBy (t : Text) : Bool :=
  (ofName? t).isSome || ((Number.ofText? t).bind ofRank?).isSome

end LogLevel

/-! ## Messages -/

/-- What a log setting can look at in a message. -/
structure LogMessage where
  /-- The part of a program that the message comes from. -/
  part : Text
  /-- The names of the fields. -/
  fields : List Text
  /-- The level from which on it is shown. -/
  level : LogLevel
  deriving DecidableEq, Repr

/-! ## Directives -/

/-- A field that a message must have. -/
structure LogField where
  /-- The name. -/
  name : Text
  /-- The value, if it has to have one. -/
  value : Option Text
  deriving DecidableEq, Repr

namespace LogField

/-- Whether a symbol may begin the name of a field: ASCII letters and digits and the underscore. -/
def isNameStart (c : Char) : Bool :=
  c.isAlphanum || c = '_'

/-- The longest end of a text that has the form of a field, with a value or not. -/
def lastField? : Text → Option Text
  | [] => none
  | c :: t =>
    let rest := t.dropWhile fun d => isNameStart d || d = '.'
    if isNameStart c ∧ (rest = [] ∨ (rest.head? = some '=' ∧ rest ≠ ['='])) then some (c :: t)
    else lastField? t

/-- A field as it is written. The value ends before a further equals sign. -/
def ofText (t : Text) : LogField :=
  ⟨t.takeWhile (· ≠ '='),
    match t.dropWhile (· ≠ '=') with
    | [] => none
    | _ :: value => some (value.takeWhile (· ≠ '='))⟩

/-- Whether a text writes a decimal fraction or power of ten, an infinity or no number, without a
sign in front. -/
def isDecimal (t : Text) : Bool :=
  let whole := t.takeWhile Char.isDigit
  let rest := t.dropWhile Char.isDigit
  let (fraction, rest) :=
    match rest with
    | '.' :: r => (r.takeWhile Char.isDigit, r.dropWhile Char.isDigit)
    | r => ([], r)
  let power (r : Text) : Bool := r ≠ [] && r.all Char.isDigit
  let ends :=
    match rest with
    | [] => true
    | c :: r => c.toLower = 'e' && (match r with
      | '+' :: r => power r
      | '-' :: r => power r
      | r => power r)
  let word := t.map Char.toLower
  ((whole ≠ [] || fraction ≠ []) && ends) ||
    word = "inf".toList || word = "infinity".toList || word = "nan".toList

/-- Whether a text states a value, a number with a plus sign or a pattern, of which other numbers
are instances. -/
def isValue (t : Text) : Bool :=
  match t with
  | '+' :: r => isDecimal r
  | _ => Pattern.isPattern t

/-- Whether the value of a field is readable. -/
def isReadable (f : LogField) : Bool := f.value.all isValue

end LogField

/-- What a directive is about and how much is shown of it. -/
structure LogDirective where
  /-- How the names of the parts begin, if only some are meant. -/
  part : Option Text
  /-- The name of the span of time, if one is meant. -/
  span : Option Text
  /-- The field, if there has to be one. -/
  field : Option LogField
  /-- How much is shown. -/
  level : LogLevel
  deriving DecidableEq, Repr

/-- A piece of a directive before its level. -/
inductive LogPiece where
  /-- A part. -/
  | part (name : Text)
  /-- What brackets hold. -/
  | brackets (inside : Text)
  deriving DecidableEq, Repr

namespace LogPiece

/-- Whether a symbol may stand in a part. -/
def isPartSymbol (c : Char) : Bool :=
  isNameSymbol c || c = ':' || c = '-'

/-- The longest piece at the front of a text and what remains. -/
def read? (t : Text) : Option (LogPiece × Text) :=
  match t with
  | [] => none
  | '[' :: r =>
    match r.dropWhile (· ≠ ']') with
    | [] => none
    | _ :: rest => some (.brackets (r.takeWhile (· ≠ ']')), rest)
  | c :: _ =>
    if isPartSymbol c then some (.part (t.takeWhile isPartSymbol), t.dropWhile isPartSymbol)
    else none

/-- The one or two pieces at the front of a text and what remains. -/
def readAll? (t : Text) : Option (List LogPiece × Text) := do
  let (first, rest) ← read? t
  match read? rest with
  | none => return ([first], rest)
  | some (second, rest) => return ([first, second], rest)

/-- The part that a piece states. -/
def part? : LogPiece → Option Text
  | .part name => some name
  | .brackets _ => none

/-- What a piece holds in brackets, brackets at both ends left out. -/
def inside? : LogPiece → Option Text
  | .part _ => none
  | .brackets t => some (((t.dropWhile (· = '[')).reverse.dropWhile (· = '[')).reverse)

end LogPiece

namespace LogDirective

/-- The directive that decides on all messages alike. -/
def everything (level : LogLevel) : LogDirective := ⟨none, none, none, level⟩

/-- The level at the end of a directive. -/
def levelOf? (t : Text) : Option LogLevel :=
  match t with
  | [] | ['='] => some .trace
  | '=' :: level => LogLevel.ofText? level
  | _ => none

/-- What stands in the first braces of a text that are closed. -/
def braces? (t : Text) : Option Text :=
  match t with
  | '\x7b' :: r => if '\x7d' ∈ r then some (r.takeWhile (· ≠ '\x7d')) else none
  | _ => none

/-- The directive that one or two pieces and a level state. Of two parts or two pairs of brackets
the latter counts. -/
def ofPieces? (pieces : List LogPiece) (level : LogLevel) : Option LogDirective :=
  let part := ((pieces.filterMap LogPiece.part?).getLast?).filter fun t => !LogLevel.isMeantBy t
  let inside := ((pieces.filterMap LogPiece.inside?).getLast?).getD []
  let span := inside.takeWhile (· ≠ '\x7b')
  let field := do
    let braces ← braces? (inside.dropWhile (· ≠ '\x7b'))
    return LogField.ofText (← LogField.lastField? braces)
  if field.all LogField.isReadable then
    some ⟨part, if span = [] then none else some span, field, level⟩
  else none

/-- The directive that a text states. -/
def ofText? (t : Text) : Option LogDirective :=
  match LogLevel.ofText? t with
  | some level => some (everything level)
  | none => do
    let (pieces, rest) ← LogPiece.readAll? t
    ofPieces? pieces (← levelOf? rest)

/-- Whether a directive decides on a message if no closer one does. -/
def concerns (d : LogDirective) (m : LogMessage) : Bool :=
  d.span.isNone && d.part.all (·.isPrefixOf m.part) &&
    d.field.all fun f => f.value.isNone && m.fields.contains f.name

/-- How close a directive is to the messages that it concerns: the length of its part, and the name
of its field. -/
def closeness (d : LogDirective) : Nat × Option Text :=
  (d.part.elim 0 (·.length + 1), d.field.map (·.name))

/-- Whether the second of two directives is at least as close to the messages that both concern. -/
def isNoCloser (d e : LogDirective) : Bool :=
  if d.closeness.1 ≠ e.closeness.1 then d.closeness.1 < e.closeness.1
  else
    match d.closeness.2, e.closeness.2 with
    | none, _ => true
    | some _, none => false
    | some a, some b => !decide (b < a)

end LogDirective

/-! ## Settings -/

/-- The directives of a log setting. -/
abbrev LogFilter := List LogDirective

namespace LogFilter

/-- The directives of a setting, unless one is unreadable. Where there is none, errors are shown. -/
def ofText? (t : Text) : Option LogFilter := do
  let directives ← ((t.splitOn ',').filter (· ≠ [])).mapM LogDirective.ofText?
  return if directives = [] then [.everything .error] else directives

/-- The closest directive to a message, of several that are equally close the last. -/
def closest? (f : LogFilter) (m : LogMessage) : Option LogDirective :=
  (f.filter (·.concerns m)).foldl (fun best d =>
    match best with
    | none => some d
    | some b => if b.isNoCloser d then some d else some b) none

/-- Whether a message is shown. -/
def shows (f : LogFilter) (m : LogMessage) : Bool :=
  (f.closest? m).any fun d => m.level.rank ≤ d.level.rank

/-- What a run shows. If more messages were asked for, this decides; else a readable log setting
does; else warnings and errors are shown. -/
def ofRun (verbosity : Nat) (setting : Option Text) : LogFilter :=
  match verbosity with
  | 0 => (setting.bind ofText?).getD [.everything .warn]
  | 1 => [.everything .info]
  | 2 => [.everything .debug]
  | _ => [.everything .trace]

end LogFilter

end StringRewriting
