import Stencil.Files.Access
import Stencil.Template.Error
import Stencil.Value

/-! Why a command fails. -/

namespace Stencil

inductive DataFault where
  /-- The text is not of the format. -/
  | malformed
  /-- The content is of the format, but it has no entries. -/
  | notTable
  deriving DecidableEq

inductive Failure where
  | unreadable (path : Path) (fault : Fault)
  | unwritable (path : Path) (fault : Fault)
  | badConfig (path : Path)
  | badData (path : Path) (fault : DataFault)
  | unknownFormat (extension : Text)
  | unconvertibleFloat (path : Path) (x : Binary64)
  | stale (path : Path)
  | template (path : Path) (error : TemplateError)
  deriving DecidableEq

namespace DataFault

def message : DataFault → Text
  | malformed => "the content is malformed"
  | notTable => "the top level must be a table"

end DataFault

namespace Failure

def message : Failure → Text
  | unreadable path fault =>
    "failed to read ".toList ++ Text.ticked path ++ ": ".toList ++ fault.message
  | unwritable path fault =>
    "failed to write ".toList ++ Text.ticked path ++ ": ".toList ++ fault.message
  | badConfig path => "failed to parse config file ".toList ++ Text.ticked path
  | badData path fault =>
    "failed to load data file ".toList ++ Text.ticked path ++ ": ".toList ++ fault.message
  | unknownFormat extension => "unsupported data file format: ".toList ++ Text.ticked extension
  | unconvertibleFloat path x =>
    "float value ".toList ++ Text.ticked (Value.floatText x) ++ " in ".toList ++ Text.ticked path ++
      " cannot be represented".toList
  | stale path => Text.ticked path ++ " is out of date".toList
  | template path _ => "failed to expand ".toList ++ Text.ticked path

def code : Failure → Text
  | unreadable _ _ => "cgt::io"
  | unwritable _ _ => "cgt::write"
  | badConfig _ => "cgt::config_parse"
  | badData _ _ => "cgt::data_file"
  | unknownFormat _ => "cgt::unsupported_format"
  | unconvertibleFloat _ _ => "cgt::unconvertible_float"
  | stale _ => "cgt::stale_output"
  | template _ _ => "cgt::expand"

def help? : Failure → Option Text
  | badConfig _ =>
    some "check that cgt.toml is valid TOML with [values], [data] and/or [wrap] sections"
  | unknownFormat _ => some "supported formats: json, toml, yaml, yml"
  | stale _ => some "run `cgt expand` with `--output` to regenerate it"
  | _ => none

/-- The error below the failure. -/
def cause? : Failure → Option TemplateError
  | template _ e => some e
  | _ => none

/-- The failure, its cause and the help for it on lines of their own. -/
def report (f : Failure) : Text :=
  let cause := f.cause?.elim [] fun e => "  caused by: ".toList ++ e.message ++ ['\n']
  let help := f.help?.elim [] fun t => "  help: ".toList ++ t ++ ['\n']
  f.code ++ ": ".toList ++ f.message ++ '\n' :: cause ++ help

end Failure

end Stencil
