import Stencil.Data.Json.Read
import Stencil.Data.Toml.Marked
import Stencil.Data.Toml.Read
import Stencil.Data.Yaml.Read
import Stencil.Failure

/-! The formats of data files, and the template values that their entries stand for. -/

namespace Stencil

inductive DataFormat where
  | json
  | toml
  | yaml
  deriving DecidableEq

namespace DataFormat

/-- The format of files with an extension, in any case. -/
def ofExtension? (extension : Text) : Option DataFormat :=
  match String.ofList extension.lowerAscii with
  | "json" => some json
  | "toml" => some toml
  | "yaml" | "yml" => some yaml
  | _ => none

/-- The content of the file at a path as a JSON value. -/
def decode (path : Path) (content : Text) : DataFormat → Except Failure Json
  | json => (Json.read content).elim (.error (.badData path .malformed)) .ok
  | yaml => (Yaml.read content).elim (.error (.badData path .malformed)) .ok
  | toml =>
    match (Toml.read content).bind fun entries => (Toml.table entries).unmark with
    | none => .error (.badData path .malformed)
    | some document =>
      if document.fits then document.toJson.mapError (.unconvertibleFloat path)
      else .error (.badData path .malformed)

end DataFormat

namespace Json

/-- An element of an array as a line: a string as it is, anything else as JSON. -/
def toLine : Json → Text
  | string t => t
  | item => item.write

/-- The template value of an entry. Null is empty text, an array a list of lines, and an object
its JSON text. -/
def toValue : Json → Value
  | null => .text []
  | bool b => .bool b
  | number (.whole i) => if inInt64 i then .int (Int64.ofInt i) else .float (.ofInt i)
  | number (.float x) => .float x
  | string t => .text t
  | array items => .lines (items.map toLine)
  | object entries => .text (object entries).write

end Json

/-- The entries of a data file with the given path and content. -/
def readData (path : Path) (content : Text) : Except Failure (List (Text × Value)) := do
  let extension := path.extension?.getD []
  match DataFormat.ofExtension? extension with
  | none => .error (.unknownFormat extension.lowerAscii)
  | some format =>
    match ← format.decode path content with
    | .object entries => .ok (entries.map fun (key, json) => (key, json.toValue))
    | _ => .error (.badData path .notTable)

section

variable {m : Type → Type} [Monad m]

/-- The content of a file. -/
def FileAccess.load (files : FileAccess m) (path : Path) : ExceptT Failure m Text := do
  match ← files.read path with
  | .ok content => return content
  | .error fault => throw (.unreadable path fault)

/-- The entries of a data file, which is read before its format is looked at. -/
def FileAccess.loadData (files : FileAccess m) (path : Path) :
    ExceptT Failure m (List (Text × Value)) := do
  match readData path (← files.load path) with
  | .ok entries => return entries
  | .error failure => throw failure

end

end Stencil
