import Stencil.Command.Basic
import Stencil.Config
import Stencil.Diff.Report
import Stencil.Resolver.Map
import Stencil.Template.Expand
import Stencil.Template.Listing

/-! Running commands. -/

namespace Stencil

/-- What a command leaves behind, beside the files that it writes. -/
structure Outcome where
  stdout : Text
  failure : Option Failure
  /-- The differences of a stale file, if they were asked for. -/
  diff : Text
  /-- What a verbose command says about its work. -/
  notes : List Text
  /-- Whether a verbose command has expanded its template. -/
  logged : Bool
  deriving DecidableEq

namespace Outcome

def printed (t : Text) : Outcome := ⟨t, none, [], [], false⟩

def failed (failure : Failure) : Outcome := ⟨[], some failure, [], [], false⟩

/-- A stale file is no error of the command. -/
def exitCode (o : Outcome) : Nat :=
  match o.failure with
  | none => 0
  | some (.stale _) => 1
  | some _ => 2

end Outcome

/-- The text with a line break at its end. -/
def lineEnded (t : Text) : Text := if t.getLast? = some '\n' then t else t ++ ['\n']

def WrapOverrides.apply (o : WrapOverrides) (s : WrapSettings) : WrapSettings :=
  ⟨o.width.getD s.width, o.between.getD s.separators.between,
    o.closing.getD s.separators.closing, o.first.getD s.separators.first⟩

/-- Adds assignments one after the other. -/
def assignAll (assignments : List Assignment) (values : Bindings Value) : Bindings Value :=
  assignments.foldl (fun values a => values.insert a.name (.text a.value)) values

variable {m : Type → Type} [Monad m]

/-- The values for a template: those of the configuration, of the data files, and the
assignments, of which later ones replace earlier ones. -/
def Sources.values (sources : Sources) (files : FileAccess m) (config : Option Path)
    (home : Path) : ExceptT Failure m (Bindings Value) := do
  let project ← Project.load files config home
  let values ← project.values files
  let values ← Project.addData files sources.files values
  return assignAll sources.assignments values

/-- The expansion of a template. -/
def Sources.expansion (sources : Sources) (files : FileAccess m) (config : Option Path)
    (home template : Path) : ExceptT Failure m Text := do
  let values ← sources.values files config home
  let source ← files.load template
  match (expandToText Resolver.bindings source values).1 with
  | .ok t => return t
  | .error e => throw (.template template e)

namespace Invocation

def runExpand (i : Invocation) (files : FileAccess m) (home template : Path) (sources : Sources)
    (output : Option Path) : m Outcome := do
  match ← (sources.expansion files i.config home template).run with
  | .error failure => return .failed failure
  | .ok t =>
    match output with
    | none => return { Outcome.printed (lineEnded t) with logged := i.verbose }
    | some path =>
      match ← files.write path t with
      | .error fault => return { Outcome.failed (.unwritable path fault) with logged := i.verbose }
      | .ok _ =>
        let notes := if i.verbose then ["Wrote ".toList ++ path] else []
        return { Outcome.printed [] with notes, logged := i.verbose }

/-- A file is up to date also if it lacks the last line break. -/
def compared (styled showDiff : Bool) (expected : Path) (current fresh : Text) : Outcome :=
  if current = fresh ∨ current ++ ['\n'] = fresh then
    .printed ("Check passed: ".toList ++ expected ++ " is up to date.\n".toList)
  else { Outcome.failed (.stale expected) with
    diff := if showDiff then Diff.report styled current fresh else [] }

def runCheck (i : Invocation) (files : FileAccess m) (styled : Bool) (home template expected : Path)
    (sources : Sources) (showDiff : Bool) : m Outcome := do
  match ← (sources.expansion files i.config home template).run with
  | .error failure => return .failed failure
  | .ok t =>
    match ← (files.load expected).run with
    | .error failure => return { Outcome.failed failure with logged := i.verbose }
    | .ok current =>
      return { compared styled showDiff expected current (lineEnded t) with logged := i.verbose }

def filled (words : List Text) (settings : WrapSettings) : Text :=
  (Wrap.fill words settings.width settings.separators settings.separators).flatMap (· ++ ['\n'])

def runWrap (i : Invocation) (files : FileAccess m) (home : Path) (words : List Text)
    (overrides : WrapOverrides) : m Outcome := do
  match ← (Project.load files i.config home).run with
  | .error failure => return .failed failure
  | .ok project =>
    let settings := overrides.apply project.config.wrap
    if words.isEmpty then
      match ← files.input with
      | .error fault => return .failed (.unreadable "<stdin>".toList fault)
      | .ok t => return .printed (filled (Text.words t) settings)
    else return .printed (filled words settings)

def runTokens (files : FileAccess m) (styled : Bool) (template : Path) : m Outcome := do
  match ← (files.load template).run with
  | .error failure => return .failed failure
  | .ok source =>
    let (t, fault) := listing styled source
    return { Outcome.printed t with failure := fault.map (.template template) }

/-- Runs the command in the directory `home`. -/
def run (i : Invocation) (files : FileAccess m) (color : Bool) (home : Path) : m Outcome :=
  let styled := color && !i.noColor
  match i.command with
  | .expand template sources output => i.runExpand files home template sources output
  | .check template expected sources showDiff =>
    i.runCheck files styled home template expected sources showDiff
  | .wrap words overrides => i.runWrap files home words overrides
  | .tokens template => runTokens files styled template

end Invocation

end Stencil
