import Mathlib.Data.Char
import Mathlib.Data.List.Lex
import Stencil.Data.Json

/-! Objects made from entries: which entry counts for a key, and the order of the keys. -/

namespace Stencil

theorem Text.before_iff_lt {s t : Text} : s.before t ↔ s < t := by
  fun_induction Text.before s t with
  | case1 s => simp
  | case2 b bs => simp
  | case3 a as b bs ih => simp [List.cons_lt_cons_iff, ih]

namespace Json

variable {α : Type} {key : Text} {value : α} {entries : List (Text × α)}

/-- Each key stands once, and the keys are in order. -/
def Sorted (entries : List (Text × α)) : Prop := entries.Pairwise fun a b => a.1.before b.1

theorem mem_insert {entry : Text × α} (h : entry ∈ insert key value entries) :
    entry = (key, value) ∨ entry ∈ entries := by
  fun_induction insert key value entries with grind

theorem lookup_insert (key other : Text) (value : α) (entries : List (Text × α)) :
    (insert key value entries).lookup other =
      if other = key then some value else entries.lookup other := by
  fun_induction insert key value entries with
  | case1 => simp only [List.lookup_cons, beq_eq_decide]; grind
  | case2 v rest => simp only [List.lookup_cons, beq_eq_decide]; grind
  | case3 k v rest hk hb => simp only [List.lookup_cons, beq_eq_decide]; grind
  | case4 k v rest hk hb ih => simp only [List.lookup_cons, ih, beq_eq_decide]; grind

theorem Sorted.insert (h : Sorted entries) : Sorted (insert key value entries) := by
  fun_induction Json.insert key value entries with
  | case1 => exact List.pairwise_singleton ..
  | case2 v rest => simpa [Sorted] using h
  | case3 k v rest hk hb =>
    refine List.pairwise_cons.mpr ⟨fun entry he => ?_, h⟩
    rcases List.mem_cons.mp he with rfl | he
    · exact hb
    · have hlt := List.rel_of_pairwise_cons h he
      rw [Text.before_iff_lt] at hb hlt ⊢
      exact hb.trans hlt
  | case4 k v rest hk hb ih =>
    refine List.pairwise_cons.mpr ⟨fun entry he => ?_, ih h.tail⟩
    rcases mem_insert he with rfl | he
    · rw [Text.before_iff_lt] at hb ⊢
      exact lt_of_le_of_ne (not_lt.mp hb) hk
    · exact List.rel_of_pairwise_cons h he

theorem lookup_foldl_insert (key : Text) (entries sorted : List (Text × α)) :
    (entries.foldl (fun sorted (k, v) => insert k v sorted) sorted).lookup key =
      (entries.reverse.lookup key).or (sorted.lookup key) := by
  induction entries generalizing sorted with
  | nil => rfl
  | cons entry entries ih =>
    obtain ⟨k, v⟩ := entry
    rw [List.foldl_cons, ih, lookup_insert, List.reverse_cons, List.lookup_append, Option.or_assoc]
    simp only [List.lookup_cons, List.lookup_nil, beq_eq_decide]
    grind

theorem Sorted.foldl_insert {sorted : List (Text × α)} (h : Sorted sorted)
    (entries : List (Text × α)) :
    Sorted (entries.foldl (fun sorted (k, v) => Json.insert k v sorted) sorted) := by
  induction entries generalizing sorted with
  | nil => exact h
  | cons entry entries ih => exact ih h.insert

/-- The object of entries holds for each key the last entry with it. -/
theorem ofEntries_eq (entries : List (Text × Json)) :
    ∃ members, ofEntries entries = object members ∧ Sorted members ∧
      ∀ key, members.lookup key = entries.reverse.lookup key :=
  ⟨_, rfl, Sorted.foldl_insert List.Pairwise.nil entries, fun key => by
    simp [lookup_foldl_insert]⟩

end Json

end Stencil
