import Stencil.Data.Toml
import Stencil.Data.Toml.Datetime

/-! Dates and times as tables. Taken as a table, a date or time has one entry, its text under a
reserved key; and a table whose first key is the reserved one is read as the date or time. -/

namespace Stencil.Toml

def datetimeKey : Text := "$__toml_private_datetime".toList

mutual

/-- The value with its dates and times in place of the tables that stand for them. The entries of
such a table but the first are not looked at. -/
def unmark : Toml → Option Toml
  | array items => (unmarkItems items).map array
  | table entries =>
    match entries.head? with
    | some (key, first) =>
      if key = datetimeKey then (first.asText?.bind Datetime.read).map datetime
      else (unmarkEntries entries).map table
    | none => some (table [])
  | single => some single

def unmarkItems : List Toml → Option (List Toml)
  | [] => some []
  | item :: items => do
    let item ← unmark item
    let items ← unmarkItems items
    some (item :: items)

def unmarkEntries : List (Text × Toml) → Option (List (Text × Toml))
  | [] => some []
  | (key, value) :: entries => do
    let value ← unmark value
    let entries ← unmarkEntries entries
    some ((key, value) :: entries)

end

end Stencil.Toml
