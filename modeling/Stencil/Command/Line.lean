import Stencil.Command.Option

/-! Reading a command line: options of the program, the name of a command, and then the command's
options and words in any order. After two dashes every argument is a word. -/

namespace Stencil

namespace CommandLine

/-- Whether an argument is read as options; a single dash is a word. -/
def isOption : Text → Bool
  | '-' :: _ :: _ => true
  | _ => false

/-- Reads letters after a single dash: flags, and at the end an option with or without its value.
Gives the option that still waits for one. -/
def letters (known : List CommandOption) (g : Given) :
    Text → Except Stop (Given × Option CommandOption)
  | [] => .ok (g, none)
  | c :: rest =>
    match known.find? (·.letter? = some c) with
    | none => .error (.usage (.unknownOption ['-', c]))
    | some o =>
      if o.isFlag then do letters known (← o.putFlag g) rest
      else match rest with
        | [] => .ok (g, some o)
        | '=' :: value => do return (← o.put value g, none)
        | value => do return (← o.put value g, none)

/-- Reads an option after two dashes. -/
def named (known : List CommandOption) (g : Given) (t : Text) :
    Except Stop (Given × Option CommandOption) :=
  let name := t.takeWhile (· ≠ '=')
  match known.find? (·.name = name), Text.cut '=' t with
  | none, _ => .error (.usage (.unknownOption ('-' :: '-' :: name)))
  | some o, none => if o.isFlag then do return (← o.putFlag g, none) else .ok (g, some o)
  | some o, some (_, value) =>
    if o.isFlag then .error (.usage (.unexpectedValue o.written))
    else do return (← o.put value g, none)

def options (known : List CommandOption) (g : Given) :
    Text → Except Stop (Given × Option CommandOption)
  | '-' :: '-' :: name => named known g name
  | '-' :: cluster => letters known g cluster
  | _ => .ok (g, none)

/-- The value of an option that waits for one: the next argument, unless that is an option. -/
def await (o : CommandOption) (g : Given) (argument : Text) : Except Stop Given :=
  if isOption argument then .error (.usage (.missingValue o.written)) else o.put argument g

def shared : List CommandOption := [.config, .verbose, .noColor, .help]

/-- Reads the options before the command's name. Gives the name and the arguments after it. -/
def untilName (g : Given) : Option CommandOption → List Text →
    Except Stop (Given × Text × List Text)
  | some o, [] => .error (.usage (.missingValue o.written))
  | none, [] => .error (.usage .noCommand)
  | some o, argument :: rest => do untilName (← await o g argument) none rest
  | none, argument :: rest =>
    if argument = ['-', '-'] then
      .error (.usage (rest.head?.elim .noCommand .unexpectedWord))
    else if isOption argument then do
      let (g, waiting) ← options (.version :: shared) g argument
      untilName g waiting rest
    else .ok (g, argument, rest)

/-- A command as it is named, with its words and options still to come. -/
inductive Name where
  | expand
  | check
  | wrap
  | tokens
  deriving DecidableEq

namespace Name

def ofText? (t : Text) : Option Name :=
  match String.ofList t with
  | "expand" => some expand
  | "check" => some check
  | "wrap" => some wrap
  | "tokens" => some tokens
  | _ => none

def options : Name → List CommandOption
  | expand => shared ++ [.values, .set, .output]
  | check => shared ++ [.expected, .values, .set, .diff]
  | wrap => shared ++ [.width, .separator, .newlineSeparator, .firstSeparator]
  | tokens => shared

/-- Records a word. Only line filling takes any number of them; elsewhere the one word is the path
of the template. -/
def putWord (n : Name) (g : Given) (word : Text) : Except Stop Given :=
  if n = wrap then .ok { g with words := g.words ++ [word] }
  else if g.words = [] then do return { g with words := [← CommandOption.readPath word] }
  else .error (.usage (.unexpectedWord word))

/-- The command, once all is read. -/
def command (n : Name) (g : Given) : Except Stop Command :=
  match n, g.words with
  | wrap, words => .ok (.wrap words g.overrides)
  | _, [] => .error (.usage (.missing "TEMPLATE"))
  | expand, template :: _ => .ok (.expand template ⟨g.files, g.assignments⟩ g.output)
  | tokens, template :: _ => .ok (.tokens template)
  | check, template :: _ =>
    match g.expected with
    | some expected => .ok (.check template expected ⟨g.files, g.assignments⟩ g.diff)
    | none => .error (.usage (.missing "--expected"))

end Name

/-- Reads the options and words of a command. -/
def afterName (n : Name) (g : Given) : Option CommandOption → List Text → Except Stop Given
  | some o, [] => .error (.usage (.missingValue o.written))
  | none, [] => .ok g
  | some o, argument :: rest => do afterName n (← await o g argument) none rest
  | none, argument :: rest =>
    if argument = ['-', '-'] then rest.foldlM n.putWord g
    else if isOption argument then do
      let (g, waiting) ← options n.options g argument
      afterName n g waiting rest
    else do afterName n (← n.putWord g argument) none rest

/-- Help is given on the whole, or on one command. -/
def isHelp (name : Text) (rest : List Text) : Bool :=
  name = "help".toList &&
    match rest with
    | [] => true
    | [topic] => (Name.ofText? topic).isSome || topic = "help".toList
    | _ => false

/-- The invocation that the arguments stand for. A shared option may stand on both sides of the
command's name; the one behind it counts. -/
def read (arguments : List Text) : Except Stop Invocation := do
  let (outer, name, rest) ← untilName .nothing none arguments
  if isHelp name rest then throw .help
  match Name.ofText? name with
  | none => throw (.usage (.unknownCommand name))
  | some n =>
    let inner ← afterName n .nothing none rest
    return ⟨inner.config.orElse fun _ => outer.config, outer.verbose || inner.verbose,
      outer.noColor || inner.noColor, ← n.command inner⟩

def version : Text := "cgt_cli 0.3.0\n"

def help : Text :=
  "Expand line-oriented templates into generated source code.

Usage: cgt [OPTIONS] <COMMAND>

Commands:
  expand TEMPLATE [--values FILE] [--set KEY=VALUE] [-o, --output FILE]
  check TEMPLATE --expected FILE [--values FILE] [--set KEY=VALUE] [--diff]
  wrap [WORDS] [--width N] [--separator TEXT] [--newline-separator TEXT] [--first-separator TEXT]
  tokens TEMPLATE
  help [COMMAND]

Options:
  -c, --config FILE  The configuration, instead of the one in the current directory
  -v, --verbose      Tell what is done
      --no-color     Do not color the output
  -h, --help         Print help
  -V, --version      Print version
"

end CommandLine

end Stencil
