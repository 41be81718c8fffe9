import Stencil.Proofs.Blocks.Tree
import Stencil.Proofs.Machine.Run

/-! Evaluation of nested blocks by recursion on the tree. No function here reads or changes the open
blocks of the machine: which branch is executed is decided by the place in the tree. -/

namespace Stencil

namespace Machine

variable {σ : Type}

/-- A plain token in a branch that is executed. -/
def perform (r : Resolver σ) (m : Machine) (token : Token) (s : σ) : Outcome σ Machine :=
  if token = .newline then
    if m.swallow then (.ok m.swallowNewline, s)
    else (.ok { m with output := m.output.endLine, line := m.line + 1, swallow := false }, s)
  else
    andThen (m.execute r s token) fun after =>
      .ok { after with swallow := after.swallow || (m.swallow && token.isBlankText) }

/-- A plain token in a branch that is skipped. A line break counts as a line, and it is swallowed
as in a branch that is executed. -/
def overlook (m : Machine) (token : Token) : Machine :=
  if token = .newline then
    if m.swallow then m.swallowNewline else { m with line := m.line + 1, swallow := false }
  else { m with swallow := m.swallow && token.isBlankText }

/-- Asks for the value of a condition; an error is reported with the line. -/
def ask (r : Resolver σ) (m : Machine) (key : Text) (s : σ) : Outcome σ Bool :=
  located m.line (mapOk holds? (lookup r m key s))

end Machine

namespace Blocks

open Machine

/-! ## Branches that are skipped -/

mutual

/-- A skipped stretch. It asks for nothing and cannot fail. -/
def Body.skip : Body → Machine → Machine
  | .nil, m => m
  | .plain token rest, m => rest.skip (m.overlook token)
  | .block _ _ first arms rest, m => rest.skip (arms.skip (first.skip m.silent))

/-- The branches after the one that was executed, or all branches of a skipped block. -/
def Arms.skip : Arms → Machine → Machine
  | .endIf, m => m.silent
  | .elseIf _ _ body more, m => more.skip (body.skip m.silent)
  | .otherwise body more, m => more.skip (body.skip m.silent)

end

/-! ## Branches that are executed -/

variable {σ : Type} (r : Resolver σ)

mutual

/-- A stretch that is executed. The first branch of a block is executed if the condition holds;
otherwise one of the other branches may be. -/
def Body.exec : Body → Machine → σ → Outcome σ Machine
  | .nil, m, s => (.ok m, s)
  | .plain token rest, m, s => chain (located m.line (m.perform r token s)) rest.exec
  | .block key _ first arms rest, m, s =>
    chain (ask r m key s) fun holds s =>
      if holds then chain (first.exec m.silent s) fun m s => rest.exec (arms.skip m) s
      else chain (arms.choose (first.skip m.silent) s) rest.exec

/-- The branches of a block none of which has been executed yet, in order: the first one whose
condition holds is executed, and those after it are skipped without being asked for. -/
def Arms.choose : Arms → Machine → σ → Outcome σ Machine
  | .endIf, m, s => (.ok m.silent, s)
  | .elseIf key _ body more, m, s =>
    chain (ask r m key s) fun holds s =>
      if holds then chain (body.exec m.silent s) fun m s => (.ok (more.skip m), s)
      else more.choose (body.skip m.silent) s
  | .otherwise body more, m, s =>
    chain (body.exec m.silent s) fun m s => (.ok (more.skip m), s)

end

/-! ## Blocks without an end -/

/-- The failure of a template that ends inside blocks, at its last line. -/
def dangling (depth : Nat) (m : Machine) : TemplateError :=
  .atLine (max (m.line - 1) 1) (.danglingIf depth)

/-- What is skipped inside a number of blocks without an end. -/
def Open.skip : Open → Nat → Machine → TemplateError
  | .ends, depth, m => dangling depth m
  | .fault e _, _, m => .atLine m.line e
  | .ifThen _ _ body more, depth, m => more.skip (depth + 1) (body.skip m.silent)
  | .elseIf _ _ body more, depth, m => more.skip depth (body.skip m.silent)
  | .otherwise body more, depth, m => more.skip depth (body.skip m.silent)

mutual

/-- What follows a branch that is executed, inside a number of blocks without an end. -/
def Open.live : Open → Nat → Machine → σ → Outcome σ (List Text)
  | .ends, depth, m, s => (.error (dangling depth m), s)
  | .fault e _, _, m, s => (.error (.atLine m.line e), s)
  | .ifThen key _ body more, depth, m, s =>
    chain (ask r m key s) fun holds s =>
      if holds then chain (body.exec r m.silent s) (more.live (depth + 1))
      else more.choose (depth + 1) (body.skip m.silent) s
  | .elseIf _ _ body more, depth, m, s => (.error (more.skip depth (body.skip m.silent)), s)
  | .otherwise body more, depth, m, s => (.error (more.skip depth (body.skip m.silent)), s)

/-- What follows a branch whose condition does not hold, as long as none did in its block. -/
def Open.choose : Open → Nat → Machine → σ → Outcome σ (List Text)
  | .ends, depth, m, s => (.error (dangling depth m), s)
  | .fault e _, _, m, s => (.error (.atLine m.line e), s)
  | .ifThen _ _ body more, depth, m, s =>
    (.error (more.skip (depth + 1) (body.skip m.silent)), s)
  | .elseIf key _ body more, depth, m, s =>
    chain (ask r m key s) fun holds s =>
      if holds then chain (body.exec r m.silent s) (more.live depth)
      else more.choose depth (body.skip m.silent) s
  | .otherwise body more, depth, m, s => chain (body.exec r m.silent s) (more.live depth)

end

/-- What follows the closed blocks outside of all blocks: the end, a mark without a block, or a
block without an end. -/
def Tail.eval : Tail → Machine → σ → Outcome σ (List Text)
  | .ends, m, s => (.ok m.output.lines, s)
  | .fault e _, m, s => (.error (.atLine m.line e), s)
  | .ifThen key comment body more, m, s => (Open.ifThen key comment body more).live r 0 m s
  | .elseIf _ _ _ _, m, s => (.error (.atLine m.line .misplacedElif), s)
  | .otherwise _ _, m, s => (.error (.atLine m.line .misplacedElse), s)
  | .endIf _ _, m, s => (.error (.atLine m.line .unmatchedEndif), s)

def Nested.eval (n : Nested) (m : Machine) (s : σ) : Outcome σ (List Text) :=
  chain (n.body.exec r m s) (n.tail.eval r)

/-- Expands a template by recursion on its blocks. -/
def expand (template : Text) (s : σ) : Outcome σ (List Text) :=
  (read (tokenize template)).eval r .start s

end Blocks

end Stencil
