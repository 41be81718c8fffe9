import Stencil.Text

/-! What can be wrong with a command line. -/

namespace Stencil

inductive UsageError where
  | noCommand
  | unknownCommand (name : Text)
  | unknownOption (argument : Text)
  | unexpectedWord (word : Text)
  | missingValue (option : Text)
  | unexpectedValue (option : Text)
  | repeated (option : Text)
  | missing (argument : Text)
  | emptyPath
  | invalidWidth (text : Text)
  | notAssignment (text : Text)
  deriving DecidableEq

namespace UsageError

def message : UsageError → Text
  | noCommand => "a command is required"
  | unknownCommand name => "unknown command ".toList ++ Text.ticked name
  | unknownOption argument => "unknown option ".toList ++ Text.ticked argument
  | unexpectedWord word => "unexpected argument ".toList ++ Text.ticked word
  | missingValue option => Text.ticked option ++ " requires a value".toList
  | unexpectedValue option => Text.ticked option ++ " takes no value".toList
  | repeated option => Text.ticked option ++ " cannot be used twice".toList
  | missing argument => "missing ".toList ++ argument
  | emptyPath => "a path cannot be empty"
  | invalidWidth text => "invalid width ".toList ++ Text.ticked text
  | notAssignment text => "expected KEY=VALUE, got ".toList ++ Text.ticked text

end UsageError

end Stencil
