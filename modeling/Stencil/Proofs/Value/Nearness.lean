import Mathlib.Algebra.Group.Nat.Defs
import Mathlib.Logic.Relation
import Stencil.Value

/-! Equality of values up to the last places of numbers. It is reflexive and symmetric, but numbers
that equal the same number may be three or four places apart. Such steps lead from every number to
every other, so an equivalence that contains it cannot tell numbers apart. -/

namespace Stencil

namespace Binary64

variable {x y : Binary64}

/-! ## The order of the bit patterns -/

theorem negative_iff : x.negative = true ↔ 2 ^ 63 ≤ x.bits.toNat := decide_eq_true_iff

theorem rank_of_negative (h : 2 ^ 63 ≤ x.bits.toNat) : x.rank = 2 ^ 64 - 1 - x.bits.toNat :=
  if_pos (negative_iff.mpr h)

theorem rank_of_positive (h : x.bits.toNat < 2 ^ 63) : x.rank = 2 ^ 63 + x.bits.toNat :=
  if_neg (mt negative_iff.mp (Nat.not_le.mpr h))

theorem rank_lt (x : Binary64) : x.rank < 2 ^ 64 := by
  by_cases h : 2 ^ 63 ≤ x.bits.toNat
  · rw [rank_of_negative h]
    omega
  · rw [rank_of_positive (Nat.not_le.mp h)]
    omega

/-- Different patterns have different places in the order. -/
theorem rank_injective : Function.Injective rank := by
  intro x y h
  have hx := x.bits.toNat_lt
  have hy := y.bits.toNat_lt
  have hbits : x.bits.toNat = y.bits.toNat := by
    by_cases hxs : 2 ^ 63 ≤ x.bits.toNat <;> by_cases hys : 2 ^ 63 ≤ y.bits.toNat
    · rw [rank_of_negative hxs, rank_of_negative hys] at h
      omega
    · rw [rank_of_negative hxs, rank_of_positive (Nat.not_le.mp hys)] at h
      omega
    · rw [rank_of_positive (Nat.not_le.mp hxs), rank_of_negative hys] at h
      omega
    · rw [rank_of_positive (Nat.not_le.mp hxs), rank_of_positive (Nat.not_le.mp hys)] at h
      omega
  cases x
  cases y
  exact congrArg Binary64.mk (UInt64.toNat_inj.mp hbits)

/-- Every place is taken. -/
theorem exists_rank {n : Nat} (h : n < 2 ^ 64) : ∃ x : Binary64, x.rank = n := by
  have htoNat : ∀ m < 2 ^ 64, (ofNatBits m).bits.toNat = m := fun m hm => by
    rw [ofNatBits, Nat.toUInt64_eq, UInt64.toNat_ofNat', Nat.mod_eq_of_lt hm]
  by_cases hn : n < 2 ^ 63
  · refine ⟨ofNatBits (2 ^ 64 - 1 - n), ?_⟩
    have hbits := htoNat (2 ^ 64 - 1 - n) (by omega)
    rw [rank_of_negative (by omega), hbits]
    omega
  · refine ⟨ofNatBits (n - 2 ^ 63), ?_⟩
    have hbits := htoNat (n - 2 ^ 63) (by omega)
    rw [rank_of_positive (by omega), hbits]
    omega

/-- The number of places from one pattern to the other. -/
def apart (x y : Binary64) : Nat := (x.rank - y.rank) + (y.rank - x.rank)

/-- The zeros stand side by side. -/
theorem apart_zeros (hx : x.isZero = true) (hy : y.isZero = true) : x.apart y ≤ 1 := by
  have hrank : ∀ z : Binary64, z.isZero = true → z.rank = 2 ^ 63 - 1 ∨ z.rank = 2 ^ 63 := by
    intro z hz
    have hmod : z.bits.toNat % 2 ^ 63 = 0 := beq_iff_eq.mp hz
    have hlt := z.bits.toNat_lt
    by_cases h : 2 ^ 63 ≤ z.bits.toNat
    · rw [rank_of_negative h]
      omega
    · rw [rank_of_positive (Nat.not_le.mp h)]
      omega
  have := hrank x hx
  have := hrank y hy
  unfold apart
  omega

/-- Equal numbers are no exception to the rule of the two places. -/
theorem near_iff : x.near y = true ↔ x.apart y ≤ 2 := by
  rw [near, Bool.or_eq_true, decide_eq_true_iff]
  refine ⟨fun h => h.elim (fun hsame => ?_) id, .inr⟩
  simp only [sameNumber, Bool.and_eq_true, Bool.or_eq_true] at hsame
  rcases hsame.2 with hbits | ⟨hx, hy⟩
  · have heq : x.bits = y.bits := beq_iff_eq.mp hbits
    simp [apart, rank, negative, heq]
  · exact Nat.le_succ_of_le (apart_zeros hx hy)

theorem apart_comm (x y : Binary64) : x.apart y = y.apart x := Nat.add_comm _ _

theorem apart_self (x : Binary64) : x.apart x = 0 := by simp [apart]

theorem near_comm (x y : Binary64) : x.near y = y.near x := by
  rw [Bool.eq_iff_iff, near_iff, near_iff, apart_comm]

/-! ## Steps between numbers -/

/-- Steps to the next place lead from every number to all that come after it. -/
theorem eqvGen_of_rank {d : Nat} (h : y.rank = x.rank + d) :
    Relation.EqvGen (fun x y : Binary64 => x.near y = true) x y := by
  induction d generalizing y with
  | zero =>
      obtain rfl := rank_injective h
      exact .refl _
  | succ d ih =>
      obtain ⟨z, hz⟩ := exists_rank (n := x.rank + d) (by have := y.rank_lt; omega)
      refine .trans _ z _ (ih hz) (.rel _ _ (near_iff.mpr ?_))
      unfold apart
      omega

theorem eqvGen_near (x y : Binary64) :
    Relation.EqvGen (fun x y : Binary64 => x.near y = true) x y := by
  rcases Nat.le_total x.rank y.rank with h | h
  · exact eqvGen_of_rank (Nat.add_sub_cancel' h).symm
  · exact .symm _ _ (eqvGen_of_rank (Nat.add_sub_cancel' h).symm)

/-- A number between two others equals some on both sides that do not equal each other: one place
down and two up, or at the upper end the other way round. -/
theorem exists_split (hfirst : 0 < y.rank) (hlast : y.rank < 2 ^ 64 - 1) :
    ∃ x z : Binary64, x.apart y ≤ 2 ∧ y.apart z ≤ 2 ∧ 2 < x.apart z := by
  by_cases h : y.rank + 2 < 2 ^ 64
  · obtain ⟨x, hx⟩ := exists_rank (n := y.rank - 1) (by omega)
    obtain ⟨z, hz⟩ := exists_rank h
    refine ⟨x, z, ?_⟩
    unfold apart
    omega
  · obtain ⟨x, hx⟩ := exists_rank (n := y.rank - 2) (by omega)
    obtain ⟨z, hz⟩ := exists_rank (n := y.rank + 1) (by omega)
    refine ⟨x, z, ?_⟩
    unfold apart
    omega

end Binary64

namespace Value

/-! ## Values -/

/-- Only numbers can equal a value without being it. -/
theorem near_iff {a b : Value} : a.near b = true ↔
    a = b ∨ ∃ x y, a = .float x ∧ b = .float y ∧ x.apart y ≤ 2 := by
  cases a <;> cases b
  case float.float x y =>
    rw [near, Binary64.near_iff]
    constructor
    · exact fun h => .inr ⟨x, y, rfl, rfl, h⟩
    · rintro (h | ⟨x, y, hx, hy, h⟩)
      · obtain rfl := Value.float.inj h
        simp [Binary64.apart_self]
      · obtain rfl := Value.float.inj hx
        obtain rfl := Value.float.inj hy
        exact h
  all_goals simp [near]

theorem near_self (a : Value) : a.near a = true := near_iff.mpr (.inl rfl)

theorem near_comm (a b : Value) : a.near b = b.near a := by
  cases a <;> cases b <;> simp [near, BEq.comm, Binary64.near_comm]

/-- Two values that both equal the middle one, but not each other. -/
def Splits (b a c : Value) : Prop := a.near b = true ∧ b.near c = true ∧ a.near c = false

theorem splits_iff {a b c : Value} : b.Splits a c ↔
    ∃ x y z, a = .float x ∧ b = .float y ∧ c = .float z ∧
      x.apart y ≤ 2 ∧ y.apart z ≤ 2 ∧ 2 < x.apart z := by
  constructor
  · rintro ⟨hab, hbc, hac⟩
    rcases near_iff.mp hab with rfl | ⟨x, y, rfl, rfl, hxy⟩
    · simp [hbc] at hac
    · rcases near_iff.mp hbc with rfl | ⟨y, z, hy, rfl, hyz⟩
      · simp [hab] at hac
      · obtain rfl := Value.float.inj hy
        refine ⟨x, _, z, rfl, rfl, rfl, hxy, hyz, ?_⟩
        rw [near, Bool.eq_false_iff, ne_eq, Binary64.near_iff] at hac
        exact Nat.not_le.mp hac
  · rintro ⟨x, y, z, rfl, rfl, rfl, hxy, hyz, hxz⟩
    refine ⟨Binary64.near_iff.mpr hxy, Binary64.near_iff.mpr hyz, ?_⟩
    rw [near, Bool.eq_false_iff, ne_eq, Binary64.near_iff]
    exact Nat.not_le.mpr hxz

theorem exists_splits_iff {b : Value} :
    (∃ a c, b.Splits a c) ↔ ∃ y, b = .float y ∧ 0 < y.rank ∧ y.rank < 2 ^ 64 - 1 := by
  constructor
  · rintro ⟨a, c, h⟩
    obtain ⟨x, y, z, rfl, rfl, rfl, hxy, hyz, hxz⟩ := splits_iff.mp h
    have hx := x.rank_lt
    have hz := z.rank_lt
    refine ⟨y, rfl, ?_⟩
    unfold Binary64.apart at hxy hyz hxz
    omega
  · rintro ⟨y, rfl, hfirst, hlast⟩
    obtain ⟨x, z, h⟩ := Binary64.exists_split hfirst hlast
    exact ⟨.float x, .float z, splits_iff.mpr ⟨x, y, z, rfl, rfl, rfl, h⟩⟩

theorem eqvGen_near_iff {a b : Value} :
    Relation.EqvGen (fun a b : Value => a.near b = true) a b ↔
      a = b ∨ ∃ x y, a = .float x ∧ b = .float y := by
  constructor
  · intro h
    induction h with
    | rel a b h =>
        exact (near_iff.mp h).imp_right fun ⟨x, y, ha, hb, _⟩ => ⟨x, y, ha, hb⟩
    | refl a => exact .inl rfl
    | symm a b _ ih => exact ih.imp Eq.symm fun ⟨x, y, ha, hb⟩ => ⟨y, x, hb, ha⟩
    | trans a b c _ _ hab hbc =>
        rcases hab with rfl | ⟨x, y, rfl, rfl⟩
        · exact hbc
        · rcases hbc with rfl | ⟨y, z, -, rfl⟩
          · exact .inr ⟨x, _, rfl, rfl⟩
          · exact .inr ⟨x, z, rfl, rfl⟩
  · rintro (rfl | ⟨x, y, rfl, rfl⟩)
    · exact .refl a
    · induction Binary64.eqvGen_near x y with
      | rel x y h => exact .rel _ _ h
      | refl x => exact .refl _
      | symm x y _ ih => exact .symm _ _ ih
      | trans x y z _ _ hxy hyz => exact .trans _ _ _ hxy hyz

/-- Equality of values is reflexive and symmetric. It is transitive but for three numbers of which
the outer two are more than two places apart. The middle one of such numbers can be any but the first
and the last of all patterns, and so the equivalences that hold for equal values hold for all
numbers. -/
theorem near_laws (a b c : Value) :
    a.near a = true ∧ a.near b = b.near a ∧
      ((a.near b = true → b.near c = true → a.near c = true) ↔
        ¬ ∃ x y z, a = .float x ∧ b = .float y ∧ c = .float z ∧
          x.apart y ≤ 2 ∧ y.apart z ≤ 2 ∧ 2 < x.apart z) ∧
      ((∃ d e, b.Splits d e) ↔ ∃ y, b = .float y ∧ 0 < y.rank ∧ y.rank < 2 ^ 64 - 1) ∧
      (Relation.EqvGen (fun a b : Value => a.near b = true) a b ↔
        a = b ∨ ∃ x y, a = .float x ∧ b = .float y) := by
  refine ⟨near_self a, near_comm a b, ?_, exists_splits_iff, eqvGen_near_iff⟩
  rw [← splits_iff, Splits]
  simp only [not_and, Bool.not_eq_false]

/-- One, the number two places above it, and the one two places above that. -/
theorem near_not_transitive :
    let a := float ⟨0x3ff0000000000000⟩
    let b := float ⟨0x3ff0000000000002⟩
    let c := float ⟨0x3ff0000000000004⟩
    b.Splits a c ∧ ¬ Equivalence fun a b : Value => a.near b = true := by
  intro a b c
  have hsplits : b.Splits a c := by
    rw [Splits]
    decide
  refine ⟨hsplits, fun h => ?_⟩
  have hac : a.near c = true := h.trans hsplits.1 hsplits.2.1
  rw [hsplits.2.2] at hac
  cases hac

end Value

end Stencil
