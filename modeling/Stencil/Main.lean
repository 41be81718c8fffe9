import Stencil.Command.Line
import Stencil.Command.Run

/-! The program on the files of the operating system. -/

namespace Stencil.Program

def faultOf : IO.Error → Fault
  | .noFileOrDirectory _ _ _ => .notFound
  | .inappropriateType _ 20 _ => .notDirectory
  | .inappropriateType _ 21 _ => .isDirectory
  | e => .other (toString e).toList

def decoded (bytes : ByteArray) : Except Fault Text :=
  match String.fromUTF8? bytes with
  | some s => .ok s.toList
  | none => .error .undecodable

def caught {α : Type} (action : IO α) : IO (Except Fault α) := do
  try return .ok (← action)
  catch e => return .error (faultOf e)

partial def readAll (input : IO.FS.Stream) (read : ByteArray) : IO ByteArray := do
  let bytes ← input.read 65536
  if bytes.isEmpty then return read else readAll input (read ++ bytes)

def readFile (path : Path) : IO ByteArray := do
  (← IO.FS.Handle.mk (String.ofList path) .read).readBinToEnd

def isReadable (path : Path) : IO Bool := do
  try
    let _ ← readFile path
    return true
  catch
    | .permissionDenied .. => return true
    | _ => return false

def files : FileAccess IO where
  read path := do return (← caught (readFile path)).bind decoded
  isFile := isReadable
  write path t := caught (IO.FS.writeFile (String.ofList path) (String.ofList t))
  input := do return (← caught (do readAll (← IO.getStdin) .empty)).bind decoded

def run (i : Invocation) : IO UInt32 := do
  let color := (← IO.getEnv "NO_COLOR").isNone
  let home := toString (← IO.currentDir)
  let outcome ← i.run files color home.toList
  IO.print (String.ofList outcome.stdout)
  if outcome.logged then
    IO.eprintln "template expanded"
  for note in outcome.notes do
    IO.eprintln (String.ofList note)
  if let some failure := outcome.failure then
    IO.eprint (String.ofList failure.report)
  IO.eprint (String.ofList outcome.diff)
  return outcome.exitCode.toUInt32

end Stencil.Program

open Stencil in
def main (args : List String) : IO UInt32 := do
  match CommandLine.read (args.map String.toList) with
  | .ok i => Program.run i
  | .error .help =>
    IO.print (String.ofList CommandLine.help)
    return 0
  | .error .version =>
    IO.print (String.ofList CommandLine.version)
    return 0
  | .error (.usage e) =>
    IO.eprintln s!"error: {String.ofList e.message}"
    return 2
