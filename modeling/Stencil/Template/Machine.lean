import Stencil.Resolver.Basic
import Stencil.Template.Assignment
import Stencil.Template.Output
import Stencil.Template.Reference
import Stencil.Template.Token

/-! The machine that executes the tokens of a template one after the other. -/

namespace Stencil

/-- The state of an open block. -/
inductive Scope where
  /-- The branch being read is executed. -/
  | active
  /-- No branch has been executed yet. -/
  | inactive
  /-- A branch has been executed, or the block stands in one that is not. -/
  | done
  deriving DecidableEq

structure Machine where
  output : Output
  /-- The open blocks, the innermost first. -/
  blocks : List Scope
  /-- The recorded alignments, the innermost first. -/
  alignments : List Text
  /-- The template line being read, counted from one. -/
  line : Nat
  /-- Whether the next line break leaves no line behind. -/
  swallow : Bool
  deriving DecidableEq

namespace Machine

def start : Machine := ⟨.empty, [], [], 1, false⟩

def scope (m : Machine) : Scope := m.blocks.headD .active

def active (m : Machine) : Bool := m.scope = .active

/-- After a directive without output: the line break may be swallowed if the line is blank. -/
def silent (m : Machine) : Machine := { m with swallow := m.output.isBlank }

def withOutput (m : Machine) (output : Output) : Machine :=
  { m with output, swallow := false }

def withBlocks (m : Machine) (blocks : List Scope) : Machine := { m with blocks }

def withAlignments (m : Machine) (alignments : List Text) : Machine :=
  { m with alignments, swallow := false }

/-- The outcome of an action on the machine and on the state of the resolver. -/
abbrev Outcome (σ α : Type) := Except TemplateError α × σ

/-- Continues with the value of an action, or stops at its error. -/
def andThen {σ α β : Type} (x : Outcome σ α) (f : α → Except TemplateError β) : Outcome σ β :=
  (x.1.bind f, x.2)

/-- Asks for the value that a directive's content refers to. -/
def lookup {σ : Type} (r : Resolver σ) (m : Machine) (content : Text) (s : σ) :
    Outcome σ (Option Value) :=
  match Reference.parse content with
  | .error e => (.error e, s)
  | .ok reference => r.resolve reference.key reference.params m.output.context s

/-- A line break that is not swallowed. -/
def newline (m : Machine) : Machine :=
  let output := if m.active then m.output.endLine else m.output
  { m with output, line := m.line + 1, swallow := false }

/-- A line break that is swallowed. -/
def swallowNewline (m : Machine) : Machine :=
  let output := if m.output.isBlank then m.output.discard else m.output
  { m with output, line := m.line + 1, swallow := false }

/-- The state of a block after its condition. -/
def decided (v : Option Value) : Scope := if holds? v then .active else .inactive

def ifThen {σ : Type} (r : Resolver σ) (m : Machine) (key : Text) (s : σ) : Outcome σ Machine :=
  if m.active then
    andThen (lookup r m key s) fun v => .ok (m.withBlocks (decided v :: m.blocks)).silent
  else (.ok (m.withBlocks (.done :: m.blocks)).silent, s)

def elseIf {σ : Type} (r : Resolver σ) (m : Machine) (key : Text) (s : σ) : Outcome σ Machine :=
  match m.blocks with
  | [] => (.error .misplacedElif, s)
  | .active :: outer => (.ok (m.withBlocks (.done :: outer)).silent, s)
  | .inactive :: outer =>
    andThen (lookup r m key s) fun v => .ok (m.withBlocks (decided v :: outer)).silent
  | .done :: _ => (.ok m.silent, s)

def otherwise (m : Machine) : Except TemplateError Machine :=
  match m.blocks with
  | [] => .error .misplacedElse
  | .active :: outer => .ok (m.withBlocks (.done :: outer)).silent
  | .inactive :: outer => .ok (m.withBlocks (.active :: outer)).silent
  | .done :: _ => .ok m.silent

def endIf (m : Machine) : Except TemplateError Machine :=
  match m.blocks with
  | [] => .error .unmatchedEndif
  | _ :: outer => .ok (m.withBlocks outer).silent

/-- Writes a value, or nothing for an absent or empty one. -/
def expansion (m : Machine) : Option Value → Machine
  | none => m.silent
  | some v => if v.isEmpty then m.silent else m.withOutput (m.output.addValue v)

def set {σ : Type} (r : Resolver σ) (m : Machine) (text : Text) (s : σ) : Outcome σ Machine :=
  match Assignment.read? text with
  | none => (.error (.invalidSet text), s)
  | some a => andThen (r.assign a.name a.value s) fun _ => .ok m.silent

def align (m : Machine) : Except TemplateError Machine :=
  match m.alignments with
  | [] => .error (.unbalancedAlignment .align)
  | innermost :: _ => .ok (m.withOutput (m.output.padTo innermost))

def popAlign (m : Machine) : Except TemplateError Machine :=
  match m.alignments with
  | [] => .error (.unbalancedAlignment .pop)
  | _ :: outer => .ok (m.withAlignments outer)

/-- Executes a token other than a block directive or a line break in an active scope. -/
def execute {σ : Type} (r : Resolver σ) (m : Machine) (s : σ) : Token → Outcome σ Machine
  | .text t => (.ok (m.withOutput (m.output.addText t)), s)
  | .expand content => andThen (lookup r m content s) fun v => .ok (m.expansion v)
  | .set text => m.set r text s
  | .pushAlign => (.ok (m.withAlignments (m.output.alignment :: m.alignments)), s)
  | .align => (m.align, s)
  | .popAlign => (m.popAlign, s)
  | _ => (.ok m, s)

/-- Processes a token, blind to a line break that waits to be swallowed. -/
def process {σ : Type} (r : Resolver σ) (m : Machine) (s : σ) : Token → Outcome σ Machine
  | .newline => (.ok m.newline, s)
  | .ifThen key _ => m.ifThen r key s
  | .elseIf key _ => m.elseIf r key s
  | .otherwise => (m.otherwise, s)
  | .endIf => (m.endIf, s)
  | token => if m.active then m.execute r s token else (.ok { m with swallow := false }, s)

/-- Processes a token. Blank text keeps a waiting line break waiting. -/
def step {σ : Type} (r : Resolver σ) (token : Token) (m : Machine) (s : σ) : Outcome σ Machine :=
  if m.swallow && token == .newline then (.ok m.swallowNewline, s)
  else andThen (m.process r s token) fun after =>
    .ok { after with swallow := after.swallow || (m.swallow && token.isBlankText) }

/-- The lines of a run that has reached the end of its template: no block may be open. The last
line break has already moved the line number past the last line. -/
def finish (m : Machine) : Except TemplateError (List Text) :=
  if m.blocks.isEmpty then .ok m.output.lines
  else .error (.atLine (max (m.line - 1) 1) (.danglingIf m.blocks.length))

end Machine

end Stencil
