import StringRewriting.Text.Lines

/-!
# Files in folders

A folder holds files and further folders under names. A path leads from a folder to a place by the
names between its slashes, where an empty name and a single dot stay and two dots go back to the
folder around. Only a folder can be left in this way, so nothing may follow the name of a file.

* `Folder.read`: the content of the file at the end of a path, or why there is none.
-/

namespace StringRewriting

/-- Why the text of a file cannot be read. -/
inductive ReadFault where
  /-- A name on the path is not there. -/
  | missing
  /-- A name on the path is that of a file, and the path goes on. -/
  | notFolder
  /-- The path ends in a folder. -/
  | isFolder
  /-- The bytes of the file are not UTF-8. -/
  | notText
  /-- Any other reason the system gives, in its words. -/
  | other (text : String)
  deriving DecidableEq, Repr

/-- The wording of a fault. -/
def ReadFault.message : ReadFault → String
  | .missing => "No such file or directory (os error 2)"
  | .notFolder => "Not a directory (os error 20)"
  | .isFolder => "Is a directory (os error 21)"
  | .notText => "stream did not contain valid UTF-8"
  | .other text => text

/-- What a folder holds under a name. -/
inductive Entry where
  /-- A file with its bytes. -/
  | file (content : ByteArray)
  /-- A folder with its named entries. -/
  | folder (entries : List (Text × Entry))

/-- The named entries of a folder. -/
abbrev Folder := List (Text × Entry)

/-- A place to which a path leads. -/
inductive Place where
  /-- A file. -/
  | file (content : ByteArray)
  /-- A folder and the folders around it, the innermost first. -/
  | folder (entries : Folder) (around : List Folder)

/-- The place that a name leads to. Around the outermost folder there is one of which nothing is
known. -/
def Place.enter : Place → Text → Except ReadFault Place
  | .file _, _ => .error .notFolder
  | .folder entries around, name =>
    if name = [] ∨ name = ['.'] then .ok (.folder entries around)
    else if name = ['.', '.'] then .ok (.folder (around.headD []) around.tail)
    else
      match entries.lookup name with
      | none => .error .missing
      | some (.file content) => .ok (.file content)
      | some (.folder inner) => .ok (.folder inner (entries :: around))

namespace Folder

/-- The place at the end of a path. A path that begins with a slash leads out of the folder, and the
empty path leads nowhere. -/
def find (folder : Folder) (path : Text) : Except ReadFault Place :=
  match path with
  | [] => .error .missing
  | c :: _ =>
    (path.splitOn '/').foldlM Place.enter (.folder (if c = '/' then [] else folder) [])

/-- The bytes of the file at the end of a path. -/
def read (folder : Folder) (path : Text) : Except ReadFault ByteArray :=
  match folder.find path with
  | .error fault => .error fault
  | .ok (.folder _ _) => .error .isFolder
  | .ok (.file content) => .ok content

end Folder

end StringRewriting
