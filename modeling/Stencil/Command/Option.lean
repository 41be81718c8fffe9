import Stencil.Command.Basic
import Stencil.Command.Usage

/-! The options of the command line, and what has been given of them so far. -/

namespace Stencil

inductive CommandOption where
  | config
  | verbose
  | noColor
  | help
  | version
  | values
  | set
  | output
  | expected
  | diff
  | width
  | separator
  | newlineSeparator
  | firstSeparator
  deriving DecidableEq

/-- Why reading a command line ends without a command to run. -/
inductive Stop where
  | help
  | version
  | usage (error : UsageError)
  deriving DecidableEq

/-- What has been given on one side of the command's name. -/
structure Given where
  config : Option Path
  verbose : Bool
  noColor : Bool
  files : List Path
  assignments : List Assignment
  output : Option Path
  expected : Option Path
  diff : Bool
  overrides : WrapOverrides
  words : List Text
  deriving DecidableEq

def Given.nothing : Given :=
  ⟨none, false, false, [], [], none, none, false, ⟨none, none, none, none⟩, []⟩

namespace CommandOption

/-- A path from the command line, where paths are not empty. -/
def readPath (t : Text) : Except Stop Path :=
  if t.isEmpty then .error (.usage .emptyPath) else .ok t

/-- A width of at most 64 bits, with or without a plus sign. -/
def readWidth (t : Text) : Except Stop Nat :=
  let digits := match t with
    | '+' :: rest => rest
    | t => t
  match Text.toNat? 10 digits with
  | some n => if n < Nat.pow 2 64 then .ok n else .error (.usage (.invalidWidth t))
  | none => .error (.usage (.invalidWidth t))

def name : CommandOption → Text
  | config => "config"
  | verbose => "verbose"
  | noColor => "no-color"
  | help => "help"
  | version => "version"
  | values => "values"
  | set => "set"
  | output => "output"
  | expected => "expected"
  | diff => "diff"
  | width => "width"
  | separator => "separator"
  | newlineSeparator => "newline-separator"
  | firstSeparator => "first-separator"

def letter? : CommandOption → Option Char
  | config => some 'c'
  | verbose => some 'v'
  | help => some 'h'
  | version => some 'V'
  | output => some 'o'
  | _ => none

def isFlag : CommandOption → Bool
  | verbose | noColor | help | version | diff => true
  | _ => false

def written (o : CommandOption) : Text := '-' :: '-' :: o.name

/-- The value of an option that may be given once. -/
def once {α : Type} (o : CommandOption) (before : Option α) (value : α) :
    Except Stop (Option α) :=
  match before with
  | none => .ok (some value)
  | some _ => .error (.usage (.repeated o.written))

def raise (o : CommandOption) (before : Bool) : Except Stop Bool :=
  if before then .error (.usage (.repeated o.written)) else .ok true

/-- Records a flag. -/
def putFlag (o : CommandOption) (g : Given) : Except Stop Given :=
  match o with
  | verbose => do return { g with verbose := ← o.raise g.verbose }
  | noColor => do return { g with noColor := ← o.raise g.noColor }
  | diff => do return { g with diff := ← o.raise g.diff }
  | help => .error .help
  | version => .error .version
  | _ => .ok g

/-- Records an option with its value. Values and assignments add up. -/
def put (o : CommandOption) (t : Text) (g : Given) : Except Stop Given :=
  match o with
  | config => do return { g with config := ← o.once g.config (← readPath t) }
  | values => do return { g with files := g.files ++ [← readPath t] }
  | set =>
    match Assignment.read? t with
    | some a => .ok { g with assignments := g.assignments ++ [a] }
    | none => .error (.usage (.notAssignment t))
  | output => do return { g with output := ← o.once g.output (← readPath t) }
  | expected => do return { g with expected := ← o.once g.expected (← readPath t) }
  | width => do
    let width ← o.once g.overrides.width (← readWidth t)
    return { g with overrides := { g.overrides with width } }
  | separator => do
    let between ← o.once g.overrides.between t
    return { g with overrides := { g.overrides with between } }
  | newlineSeparator => do
    let closing ← o.once g.overrides.closing t
    return { g with overrides := { g.overrides with closing } }
  | firstSeparator => do
    let first ← o.once g.overrides.first t
    return { g with overrides := { g.overrides with first } }
  | _ => .ok g

end CommandOption

end Stencil
