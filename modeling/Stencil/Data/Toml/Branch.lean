import Stencil.Data.Toml

/-! Tables of a TOML document while it is read: where a table comes from decides what may still be
added to it. -/

namespace Stencil.Toml

inductive Origin where
  /-- Named by a header of its own. -/
  | header
  /-- Named on the way to another header. -/
  | implied
  /-- Named on the way to a dotted key. -/
  | dotted
  deriving DecidableEq

inductive Branch where
  /-- Closed: nothing can be added to it. -/
  | leaf (v : Toml)
  | table (origin : Origin) (entries : List (Text × Branch))
  /-- Tables of one name, the last one first. -/
  | tables (items : List (List (Text × Branch)))

abbrev Entries := List (Text × Branch)

namespace Branch

/-- Changes the table that a header's path leads to, which goes through the last table of a list. -/
def underHeader (change : Entries → Option Entries) : List Text → Entries → Option Entries
  | [], entries => change entries
  | key :: path, entries =>
    match entries.lookup key with
    | none => (underHeader change path []).map fun t => Json.insert key (.table .implied t) entries
    | some (.table origin inner) =>
      (underHeader change path inner).map fun t => Json.insert key (.table origin t) entries
    | some (.tables (last :: earlier)) =>
      (underHeader change path last).map fun t =>
        Json.insert key (.tables (t :: earlier)) entries
    | _ => none

/-- Adds a value under a dotted key. The last table on the way must be one made by dotted keys, and
none on the way may have a header of its own, but for the last table of a list. A table on the way
counts as made by dotted keys from then on. -/
def addDotted (value : Toml) : List Text → Entries → Option Entries
  | [], _ => none
  | [key], entries =>
    match entries.lookup key with
    | none => some (Json.insert key (.leaf value) entries)
    | some _ => none
  | key :: next :: path, entries =>
    match entries.lookup key with
    | none =>
      (addDotted value (next :: path) []).map fun t => Json.insert key (.table .dotted t) entries
    | some (.table origin inner) =>
      if origin = .dotted || (origin = .implied && !path.isEmpty) then
        (addDotted value (next :: path) inner).map fun t => Json.insert key (.table .dotted t) entries
      else none
    | some (.tables (last :: earlier)) =>
      if path.isEmpty then none
      else
        (addDotted value (next :: path) last).map fun t =>
          Json.insert key (.tables (t :: earlier)) entries
    | _ => none

/-- Opens the table of a header. -/
def openTable (key : Text) (entries : Entries) : Option Entries :=
  match entries.lookup key with
  | none => some (Json.insert key (.table .header []) entries)
  | some (.table .implied inner) => some (Json.insert key (.table .header inner) entries)
  | _ => none

/-- Opens one more table of a list. -/
def openItem (key : Text) (entries : Entries) : Option Entries :=
  match entries.lookup key with
  | none => some (Json.insert key (.tables [[]]) entries)
  | some (.tables items) => some (Json.insert key (.tables ([] :: items)) entries)
  | _ => none

mutual

/-- The value of a branch once the document has been read. -/
def value : Branch → Toml
  | leaf v => v
  | table _ entries => .table (entriesValue entries)
  | tables items => .array (itemsValue items).reverse

def entriesValue : List (Text × Branch) → List (Text × Toml)
  | [] => []
  | (key, branch) :: entries => (key, value branch) :: entriesValue entries

def itemsValue : List (List (Text × Branch)) → List Toml
  | [] => []
  | entries :: items => .table (entriesValue entries) :: itemsValue items

end

end Branch

end Stencil.Toml
