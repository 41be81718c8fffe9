import Stencil.Files.Path

/-! What a command may do with files. -/

namespace Stencil

/-- Why a file could not be read or written. -/
inductive Fault where
  | notFound
  | notDirectory
  | isDirectory
  /-- The content is not UTF-8. -/
  | undecodable
  /-- A path holds a NUL character. -/
  | badName
  | other (message : Text)
  deriving DecidableEq

def Fault.message : Fault → Text
  | notFound => "No such file or directory (os error 2)"
  | notDirectory => "Not a directory (os error 20)"
  | isDirectory => "Is a directory (os error 21)"
  | undecodable => "stream did not contain valid UTF-8"
  | badName => "file name contained an unexpected NUL byte"
  | other message => message

/-- The files and the standard input that a command works on. -/
structure FileAccess (m : Type → Type) where
  read : Path → m (Except Fault Text)
  isFile : Path → m Bool
  write : Path → Text → m (Except Fault Unit)
  input : m (Except Fault Text)

end Stencil
