import Stencil.Data.Format
import Stencil.Resolver.Bindings
import Stencil.Wrap

/-! Configurations: values for every template, data files, and the settings of line filling. -/

namespace Stencil

structure WrapSettings where
  width : Nat
  separators : Wrap.Separators
  deriving DecidableEq

def WrapSettings.default : WrapSettings := ⟨Wrap.Filler.defaultWidth, [' '], [], []⟩

structure Config where
  values : List (Text × Value)
  /-- Data files, which count less than the values. -/
  files : List Path
  wrap : WrapSettings
  deriving DecidableEq

def Config.default : Config := ⟨[], [], .default⟩

namespace Toml

def asWidth? : Toml → Option Nat
  | integer i => if isUnsigned i then some i.toNat else none
  | _ => none

def asTexts? : Toml → Option (List Text)
  | array items => items.mapM asText?
  | _ => none

/-- The fields of a section by name. A section may also be written as the array of its fields. -/
def fields? (names : List String) : Toml → Option (List (Text × Toml))
  | table entries => if entries.all fun (key, _) => (names.map String.toList).contains key
    then some entries else none
  | array items => some ((names.map String.toList).zip items)
  | _ => none

/-- The field read by `read`, or the default of an absent one. -/
def field {α : Type} (entries : List (Text × Toml)) (name : String) (read : Toml → Option α)
    (default : α) : Option α :=
  match entries.lookup name.toList with
  | some value => read value
  | none => some default

def asValues? : Toml → Option (List (Text × Value))
  | table entries => entries.mapM fun (key, value) => value.asValue?.map (key, ·)
  | datetime t => some [(datetimeKey, .text t)]
  | _ => none

def asFiles? (t : Toml) : Option (List Path) := do
  field (← t.fields? ["files"]) "files" asTexts? []

def asWrapSettings? (t : Toml) : Option WrapSettings := do
  let entries ← t.fields? ["width", "separator", "newline_separator", "first_separator"]
  let ⟨width, between, closing, first⟩ := WrapSettings.default
  let width ← field entries "width" asWidth? width
  let between ← field entries "separator" asText? between
  let closing ← field entries "newline_separator" asText? closing
  let first ← field entries "first_separator" asText? first
  some ⟨width, between, closing, first⟩

end Toml

namespace Config

/-- The configuration in the entries of a document, none of which may be unknown. -/
def ofToml? (entries : List (Text × Toml)) : Option Config := do
  let entries ← (Toml.table entries).fields? ["values", "data", "wrap"]
  let values ← Toml.field entries "values" Toml.asValues? []
  let files ← Toml.field entries "data" Toml.asFiles? []
  let wrap ← Toml.field entries "wrap" Toml.asWrapSettings? .default
  some ⟨values, files, wrap⟩

def read? (content : Text) : Option Config := (Toml.read content).bind ofToml?

/-- Where a configuration is looked for in a directory; the first one found counts. -/
def candidates : List Path := ["cgt.toml", ".cgt.toml", ".config/cgt.toml"]

end Config

/-- A configuration, the file it comes from, and the directory in which its data files lie. -/
structure Project where
  path : Option Path
  root : Path
  config : Config
  deriving DecidableEq

namespace Project

/-- The directory for the data files of a configuration file: that of the file itself, or the one
around it when the file lies in a directory for configurations. -/
def rootOf (path home : Path) : Path :=
  let directory := path.parent?.getD home
  if directory.name? = some ".config".toList then directory.parent?.getD home else directory

variable {m : Type → Type} [Monad m]

/-- The first of some paths that is a file. -/
def firstFile (files : FileAccess m) : List Path → m (Option Path)
  | [] => return none
  | path :: paths => do if ← files.isFile path then return some path else firstFile files paths

/-- The configuration file of a directory. -/
def discover (files : FileAccess m) (home : Path) : m (Option Path) :=
  firstFile files (Config.candidates.map home.join)

def configPath (files : FileAccess m) (explicit : Option Path) (home : Path) : m (Option Path) :=
  match explicit with
  | some path => return some path
  | none => discover files home

def loadConfig (files : FileAccess m) (path : Path) : ExceptT Failure m Config := do
  match Config.read? (← files.load path) with
  | some config => return config
  | none => throw (.badConfig path)

/-- The project of the given configuration file, or else of the directory `home`. -/
def load (files : FileAccess m) (explicit : Option Path) (home : Path) :
    ExceptT Failure m Project := do
  match ← (configPath files explicit home : m (Option Path)) with
  | none => return ⟨none, home, .default⟩
  | some path => return ⟨some path, rootOf path home, ← loadConfig files path⟩

/-- Adds the entries of data files one after the other. -/
def addData (files : FileAccess m) :
    List Path → Bindings Value → ExceptT Failure m (Bindings Value)
  | [], values => return values
  | path :: paths, values => do addData files paths (values.insertAll (← files.loadData path))

/-- The values of the data files, and then those of the configuration itself. -/
def values (files : FileAccess m) (p : Project) : ExceptT Failure m (Bindings Value) := do
  let values ← addData files (p.config.files.map p.root.join) .empty
  return values.insertAll p.config.values

end Project

end Stencil
