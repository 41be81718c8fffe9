import Stencil.Text

/-! Finite maps from names, in the order in which the names were first bound. -/

namespace Stencil

structure Bindings (α : Type) where
  entries : List (Text × α)
  deriving DecidableEq

namespace Bindings

variable {α : Type}

def empty : Bindings α := ⟨[]⟩

def find? (b : Bindings α) (name : Text) : Option α := b.entries.lookup name

def names (b : Bindings α) : List Text := b.entries.map (·.1)

def size (b : Bindings α) : Nat := b.entries.length

/-- Replaces the entry of a name at its place, or adds one at the end. -/
def put (name : Text) (value : α) : List (Text × α) → List (Text × α)
  | [] => [(name, value)]
  | (n, v) :: rest => if n = name then (name, value) :: rest else (n, v) :: put name value rest

def insert (b : Bindings α) (name : Text) (value : α) : Bindings α := ⟨put name value b.entries⟩

def erase (b : Bindings α) (name : Text) : Bindings α := ⟨b.entries.filter (·.1 ≠ name)⟩

/-- Adds entries one after the other; later ones replace earlier ones. -/
def insertAll (b : Bindings α) (entries : List (Text × α)) : Bindings α :=
  entries.foldl (fun b (name, value) => b.insert name value) b

def ofList (entries : List (Text × α)) : Bindings α := empty.insertAll entries

/-- The entries of both; those of the second win. -/
def merge (b c : Bindings α) : Bindings α := b.insertAll c.entries

theorem find?_empty (name : Text) : (empty : Bindings α).find? name = none := rfl

theorem lookup_put (name other : Text) (value : α) (entries : List (Text × α)) :
    (put name value entries).lookup other =
      if other = name then some value else entries.lookup other := by
  induction entries with
  | nil =>
    by_cases h : other = name
    · simp [put, h]
    · simp [put, List.lookup_cons, h, beq_false_of_ne h]
  | cons entry rest ih =>
    obtain ⟨n, v⟩ := entry
    by_cases hn : n = name
    · subst hn
      by_cases ho : other = n
      · simp [put, ho]
      · simp [put, List.lookup_cons, ho, beq_false_of_ne ho]
    · by_cases ho : other = n
      · subst ho
        simp [put, hn]
      · simp [put, hn, List.lookup_cons, beq_false_of_ne ho, ih]

theorem find?_insert (b : Bindings α) (name other : Text) (value : α) :
    (b.insert name value).find? other = if other = name then some value else b.find? other :=
  lookup_put name other value b.entries

end Bindings

end Stencil
