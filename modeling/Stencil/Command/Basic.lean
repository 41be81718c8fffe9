import Stencil.Files.Path
import Stencil.Template.Assignment
import Stencil.Wrap

/-! The commands and their options. -/

namespace Stencil

/-- Where the values of an expansion come from, beside the configuration. -/
structure Sources where
  files : List Path
  assignments : List Assignment
  deriving DecidableEq

/-- Settings of line filling that replace those of the configuration. -/
structure WrapOverrides where
  width : Option Nat
  between : Option Text
  closing : Option Text
  first : Option Text
  deriving DecidableEq

inductive Command where
  /-- Writes the expansion of a template, to a file or to the standard output. -/
  | expand (template : Path) (sources : Sources) (output : Option Path)
  /-- Compares the expansion of a template with a file. -/
  | check (template expected : Path) (sources : Sources) (showDiff : Bool)
  /-- Fills lines with words, those of the standard input if there are none. -/
  | wrap (words : List Text) (overrides : WrapOverrides)
  /-- Lists the tokens of a template. -/
  | tokens (template : Path)
  deriving DecidableEq

/-- A command with the options that all commands share. -/
structure Invocation where
  config : Option Path
  verbose : Bool
  noColor : Bool
  command : Command
  deriving DecidableEq

end Stencil
