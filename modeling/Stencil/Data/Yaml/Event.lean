import Stencil.Data.Yaml.Token

/-! YAML tokens as events: what opens and closes the collections of one document, and the scalars
in them. An alias names the number of an anchor. -/

namespace Stencil.Yaml

inductive Event where
  | alias (number : Nat)
  | scalar (tag : Option Text) (plain : Bool) (t : Text)
  | sequenceStart (tag : Option Text)
  | sequenceEnd
  | mappingStart (tag : Option Text)
  | mappingEnd
  deriving DecidableEq, Inhabited

/-- The events of a document, and where each anchor number points to. A name that is given again
gets a new number: the count of the names known so far. -/
structure Document where
  events : Array Event
  numbers : List (Text × Nat)
  targets : List (Nat × Nat)
  /-- The prefixes that tag handles stand for. -/
  prefixes : List (Text × Text)

namespace Document

def empty : Document := ⟨#[], [], [], []⟩

def emit (d : Document) (e : Event) : Document := { d with events := d.events.push e }

/-- Gives the next event a name. -/
def anchor (d : Document) : Option Text → Document
  | none => d
  | some name =>
    let number := d.numbers.length
    { d with
      numbers := (name, number) :: d.numbers.filter (·.1 ≠ name),
      targets := (number, d.events.size) :: d.targets }

def nothing (d : Document) : Document := d.emit (.scalar none true [])

/-- The full text of a tag. -/
def expandTag (d : Document) (handle suffix : Text) : Option Text :=
  if handle.isEmpty then some suffix
  else match d.prefixes.lookup handle with
    | some pre => some (pre ++ suffix)
    | none =>
      if handle = ['!'] then some ('!' :: suffix)
      else if handle = ['!', '!'] then some ("tag:yaml.org,2002:".toList ++ suffix)
      else none

/-- The anchor and the tag before a node, in either order. -/
def properties (d : Document) : List Token → Option (Option Text × Option Text × List Token)
  | .anchor name :: .tag handle suffix :: rest =>
    (d.expandTag handle suffix).map fun tag => (some name, some tag, rest)
  | .anchor name :: rest => some (some name, none, rest)
  | .tag handle suffix :: .anchor name :: rest =>
    (d.expandTag handle suffix).map fun tag => (some name, some tag, rest)
  | .tag handle suffix :: rest =>
    (d.expandTag handle suffix).map fun tag => (none, some tag, rest)
  | rest => some (none, none, rest)

/-- What follows an entry in the various collections if the entry is empty. -/
def endsBlockItem : Token → Bool
  | .blockEntry => true
  | .blockEnd => true
  | _ => false

def endsBlockField : Token → Bool
  | .key => true
  | .value => true
  | .blockEnd => true
  | _ => false

def endsOpenItem (t : Token) : Bool := endsBlockField t || t == .blockEntry

def endsFlowItem : Token → Bool
  | .flowEntry => true
  | .flowSequenceEnd => true
  | _ => false

def endsFlowField : Token → Bool
  | .flowEntry => true
  | .flowMappingEnd => true
  | _ => false

abbrev Step := Option (Document × List Token)

mutual

/-- A node. In flow collections no blocks can start; `open` says that a sequence may start without a
block of its own. -/
def node : Nat → Bool → Bool → Document → List Token → Step
  | 0, _, _, _, _ => none
  | fuel + 1, inBlock, isOpen, d, tokens =>
    match tokens with
    | .alias name :: rest => (d.numbers.lookup name).map fun n => (d.emit (.alias n), rest)
    | _ =>
      (d.properties tokens).bind fun (name, tag, rest) =>
        let d := d.anchor name
        match rest, inBlock, isOpen with
        | .blockEntry :: _, _, true => openItems fuel (d.emit (.sequenceStart tag)) rest
        | .scalar plain t :: rest, _, _ => some (d.emit (.scalar tag plain t), rest)
        | .flowSequence :: rest, _, _ =>
          flowItems fuel true (d.emit (.sequenceStart tag)) rest
        | .flowMapping :: rest, _, _ =>
          flowFields fuel true (d.emit (.mappingStart tag)) rest
        | .blockSequence :: rest, true, _ => blockItems fuel (d.emit (.sequenceStart tag)) rest
        | .blockMapping :: rest, true, _ => blockFields fuel (d.emit (.mappingStart tag)) rest
        | rest, _, _ =>
          if name.isSome || tag.isSome then some (d.emit (.scalar tag true []), rest) else none

/-- A node, or nothing if one of the given tokens comes first. -/
def nodeUnless : Nat → (Token → Bool) → Bool → Bool → Document → List Token → Step
  | 0, _, _, _, _, _ => none
  | fuel + 1, ends, inBlock, isOpen, d, tokens =>
    if tokens.head?.all ends then some (d.nothing, tokens) else node fuel inBlock isOpen d tokens

def blockItems : Nat → Document → List Token → Step
  | 0, _, _ => none
  | fuel + 1, d, tokens =>
    match tokens with
    | .blockEntry :: rest => do
      let (d, rest) ← nodeUnless fuel endsBlockItem true false d rest
      blockItems fuel d rest
    | .blockEnd :: rest => some (d.emit .sequenceEnd, rest)
    | _ => none

/-- The entries of a sequence that has no block of its own. -/
def openItems : Nat → Document → List Token → Step
  | 0, _, _ => none
  | fuel + 1, d, tokens =>
    match tokens with
    | .blockEntry :: rest => do
      let (d, rest) ← nodeUnless fuel endsOpenItem true false d rest
      openItems fuel d rest
    | rest => some (d.emit .sequenceEnd, rest)

def blockFields : Nat → Document → List Token → Step
  | 0, _, _ => none
  | fuel + 1, d, tokens =>
    match tokens with
    | .key :: rest => do
      let (d, rest) ← nodeUnless fuel endsBlockField true true d rest
      let (d, rest) ← blockValue fuel d rest
      blockFields fuel d rest
    | .blockEnd :: rest => some (d.emit .mappingEnd, rest)
    | _ => none

def blockValue : Nat → Document → List Token → Step
  | 0, _, _ => none
  | fuel + 1, d, tokens =>
    match tokens with
    | .value :: rest => nodeUnless fuel endsBlockField true true d rest
    | rest => some (d.nothing, rest)

/-- The items of a flow sequence; all but the first come after a comma. A key makes the item a
mapping with one field. -/
def flowItems : Nat → Bool → Document → List Token → Step
  | 0, _, _, _ => none
  | fuel + 1, first, d, tokens =>
    match tokens, first with
    | .flowSequenceEnd :: rest, _ => some (d.emit .sequenceEnd, rest)
    | .flowEntry :: rest, false => flowItem fuel d rest
    | rest, true => flowItem fuel d rest
    | _, false => none

def flowItem : Nat → Document → List Token → Step
  | 0, _, _ => none
  | fuel + 1, d, tokens =>
    match tokens with
    | .flowSequenceEnd :: rest => some (d.emit .sequenceEnd, rest)
    | .key :: rest => do
      let d := d.emit (.mappingStart none)
      let (d, rest) ←
        match rest with
        | [] => none
        | t :: more =>
          if t == .value || endsFlowItem t then some (d.nothing, more)
          else node fuel false false d rest
      let (d, rest) ← flowValue fuel endsFlowItem d rest
      flowItems fuel false (d.emit .mappingEnd) rest
    | rest => do
      let (d, rest) ← node fuel false false d rest
      flowItems fuel false d rest

/-- A value after its colon, or nothing. -/
def flowValue : Nat → (Token → Bool) → Document → List Token → Step
  | 0, _, _, _ => none
  | fuel + 1, ends, d, tokens =>
    match tokens with
    | .value :: rest => nodeUnless fuel ends false false d rest
    | rest => some (d.nothing, rest)

/-- The fields of a flow mapping; all but the first come after a comma. A node without a key mark
is a key without a value. -/
def flowFields : Nat → Bool → Document → List Token → Step
  | 0, _, _, _ => none
  | fuel + 1, first, d, tokens =>
    match tokens, first with
    | .flowMappingEnd :: rest, _ => some (d.emit .mappingEnd, rest)
    | .flowEntry :: rest, false => flowField fuel d rest
    | rest, true => flowField fuel d rest
    | _, false => none

def flowField : Nat → Document → List Token → Step
  | 0, _, _ => none
  | fuel + 1, d, tokens =>
    match tokens with
    | .flowMappingEnd :: rest => some (d.emit .mappingEnd, rest)
    | .key :: rest => do
      let (d, rest) ←
        nodeUnless fuel (fun t => t == .value || endsFlowField t) false false d rest
      let (d, rest) ← flowValue fuel endsFlowField d rest
      flowFields fuel false d rest
    | rest => do
      let (d, rest) ← node fuel false false d rest
      flowFields fuel false d.nothing rest

end

/-- The directives before a document: at most one version, and one prefix for each handle. -/
def directives : List Token → Bool → Document → Option (Document × List Token)
  | .version :: rest, versioned, d => if versioned then none else directives rest true d
  | .tagDirective handle uri :: rest, versioned, d =>
    if (d.prefixes.lookup handle).isSome then none
    else directives rest versioned { d with prefixes := (handle, uri) :: d.prefixes }
  | rest, _, d => some (d, rest)

def endsContent : Token → Bool
  | .version => true
  | .tagDirective _ _ => true
  | .documentStart => true
  | .documentEnd => true
  | .streamEnd => true
  | _ => false

/-- The only document of a text, or no document at all. -/
def ofTokens? (tokens : List Token) : Option Document :=
  let fuel := 4 * tokens.length + 4
  let closed (d : Document) (rest : List Token) : Option Document :=
    if rest.dropWhile (· == .documentEnd) = [.streamEnd] then some d else none
  match tokens with
  | [.streamEnd] => some empty
  | tokens =>
    (directives tokens false empty).bind fun (d, rest) =>
      match rest with
      | .documentStart :: rest =>
        (nodeUnless fuel endsContent true false d rest).bind fun (d, rest) => closed d rest
      | rest =>
        if d.prefixes.isEmpty && tokens.head? != some .version then
          (node fuel true false d rest).bind fun (d, rest) => closed d rest
        else none

end Document

end Stencil.Yaml
