import Stencil.Data.Yaml.Event
import Stencil.Data.Yaml.Plain

/-! Reading a YAML text as a JSON value. -/

namespace Stencil.Yaml

/-- How deep collections may be nested, through aliases too. -/
def maxDepth : Nat := 128

/-- Tags of one's own name types that JSON does not have. -/
def isForeign : Option Text → Bool
  | some ('!' :: _) => true
  | _ => false

/-- A value read from a position, the position after it, and the number of aliases followed. -/
structure Found (α : Type) where
  value : α
  after : Nat
  jumps : Nat

/-- Follows an alias: every one counts, and a document has a hundred for each of its events. -/
def Document.follow (d : Document) (number jumps : Nat) : Option (Nat × Nat) :=
  if d.events.size * 100 ≤ jumps then none
  else (d.targets.lookup number).map (·, jumps + 1)

mutual

def valueAt (d : Document) : Nat → Nat → Nat → Nat → Option (Found Json)
  | 0, _, _, _ => none
  | fuel + 1, depth, position, jumps =>
    match d.events[position]? with
    | none => none
    | some event =>
      match event, depth with
      | .alias number, _ => do
        let (target, jumps) ← d.follow number jumps
        let found ← valueAt d fuel depth target jumps
        some { found with after := position + 1 }
      | .scalar tag plain t, _ =>
        if isForeign tag then none
        else
          let value := match tag with
            | some tag => Plain.tagged tag t
            | none => if plain then Plain.resolve t else some (.string t)
          value.map (⟨·, position + 1, jumps⟩)
      | .sequenceStart tag, depth + 1 =>
        if isForeign tag then none
        else
          (itemsAt d fuel depth (position + 1) jumps []).map fun found =>
            ⟨.array found.value, found.after, found.jumps⟩
      | .mappingStart tag, depth + 1 =>
        if isForeign tag then none
        else
          (fieldsAt d fuel depth (position + 1) jumps []).map fun found =>
            ⟨.ofEntries found.value, found.after, found.jumps⟩
      | _, _ => none

def itemsAt (d : Document) : Nat → Nat → Nat → Nat → List Json → Option (Found (List Json))
  | 0, _, _, _, _ => none
  | fuel + 1, depth, position, jumps, read =>
    match d.events[position]? with
    | some .sequenceEnd => some ⟨read.reverse, position + 1, jumps⟩
    | _ => do
      let item ← valueAt d fuel depth position jumps
      itemsAt d fuel depth item.after item.jumps (item.value :: read)

/-- The fields of a mapping. Any scalar can be a key, and stands for its text. -/
def fieldsAt (d : Document) :
    Nat → Nat → Nat → Nat → List (Text × Json) → Option (Found (List (Text × Json)))
  | 0, _, _, _, _ => none
  | fuel + 1, depth, position, jumps, read =>
    match d.events[position]? with
    | some .mappingEnd => some ⟨read.reverse, position + 1, jumps⟩
    | _ => do
      let key ← keyAt d fuel position jumps
      let item ← valueAt d fuel depth key.after key.jumps
      fieldsAt d fuel depth item.after item.jumps ((key.value, item.value) :: read)

def keyAt (d : Document) : Nat → Nat → Nat → Option (Found Text)
  | 0, _, _ => none
  | fuel + 1, position, jumps =>
    match d.events[position]? with
    | some (.scalar _ _ t) => some ⟨t, position + 1, jumps⟩
    | some (.alias number) => do
      let (target, jumps) ← d.follow number jumps
      let found ← keyAt d fuel target jumps
      some { found with after := position + 1 }
    | _ => none

end

/-- The value of a document. Following aliases takes at most a hundred steps for each event, and
each step passes at most all events. -/
def Document.toJson (d : Document) : Option Json :=
  if d.events.isEmpty then some .null
  else
    let n := d.events.size
    (valueAt d (2 * n * (100 * n + 2)) maxDepth 0 0).map (·.value)

/-- Reads a whole text; a text without a document is null. -/
def read (t : Text) : Option Json := do
  let tokens ← tokens? t
  let document ← Document.ofTokens? tokens
  document.toJson

end Stencil.Yaml
