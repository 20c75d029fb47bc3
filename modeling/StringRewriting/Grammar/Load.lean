import StringRewriting.Grammar.Source
import StringRewriting.Storage.Folder

/-!
# Grammars from files

The source of a grammar is stored as UTF-8, without a mark in front.

* `Grammar.ofRead_toUtf8`: the stored form of a source is read like the source itself.
-/

namespace StringRewriting

/-- Why no grammar was loaded. -/
inductive LoadError where
  /-- There was no text to read. -/
  | unreadable (fault : ReadFault)
  /-- The text describes no grammar. -/
  | invalid (error : GrammarError)
  deriving DecidableEq, Repr

namespace LoadError

/-- The wording of an error. -/
def message : LoadError → String
  | .unreadable fault => "failed to read grammar: " ++ fault.message
  | .invalid error => error.message

/-- The wording of what lies behind an error, if it is not the whole cause itself. -/
def cause? : LoadError → Option String
  | .unreadable fault => some fault.message
  | .invalid _ => none

end LoadError

/-- The UTF-8 encoding of a text. -/
def Text.toUtf8 (t : Text) : ByteArray :=
  (String.ofList t).toUTF8

/-- The text that some bytes encode. -/
def Text.ofUtf8? (bytes : ByteArray) : Option Text :=
  bytes.utf8Decode?.map Array.toList

theorem Text.ofUtf8?_toUtf8 (t : Text) : Text.ofUtf8? t.toUtf8 = some t := by
  simp [Text.ofUtf8?, Text.toUtf8, List.utf8Decode?_utf8Encode]

/-- The grammar whose source has been read as bytes. -/
def Grammar.ofRead : Except ReadFault ByteArray → Except LoadError Grammar
  | .error fault => .error (.unreadable fault)
  | .ok bytes =>
    match Text.ofUtf8? bytes with
    | none => .error (.unreadable .notText)
    | some source => (Grammar.ofSource source).mapError .invalid

theorem Grammar.ofRead_toUtf8 (source : Text) :
    Grammar.ofRead (.ok source.toUtf8) = (Grammar.ofSource source).mapError .invalid := by
  rw [ofRead, Text.ofUtf8?_toUtf8]

end StringRewriting
