import Stencil.Text.Upper

/-! What the table of upper cases leaves as it is. A code point is changed by the table or it is an
upper case in it, never both, so that the upper case of a text is its own upper case. -/

namespace Stencil

namespace CaseRun

variable (r : CaseRun) {n : Nat}

/-- The code points that have their upper case by the run. -/
def inputs : List Nat :=
  (List.range ((r.last - r.first) / r.stride + 1)).map (r.first + r.stride * ·)

/-- Their upper cases. -/
def outputs : List Nat :=
  (List.range ((r.last - r.first) / r.stride + 1)).map (r.upper + r.stride * ·)

/-- The upper case of a code point of the run is as far from the first one as the code point is. -/
theorem mem_of_within (hfirst : r.first ≤ n) (hlast : n ≤ r.last)
    (hstride : (n - r.first) % r.stride = 0) :
    n ∈ r.inputs ∧ r.upper + (n - r.first) ∈ r.outputs := by
  have hplace : r.stride * ((n - r.first) / r.stride) = n - r.first :=
    Nat.mul_div_cancel' (Nat.dvd_of_mod_eq_zero hstride)
  have hrange : (n - r.first) / r.stride ∈ List.range ((r.last - r.first) / r.stride + 1) := by
    rw [List.mem_range, Nat.lt_succ_iff]
    exact Nat.div_le_div_right (Nat.sub_le_sub_right hlast r.first)
  refine ⟨List.mem_map.mpr ⟨_, hrange, ?_⟩, List.mem_map.mpr ⟨_, hrange, ?_⟩⟩
  · rw [hplace]
    omega
  · rw [hplace]

end CaseRun

namespace Upper

/-! ## Sets of code points as numbers -/

/-- The number whose bits at the given places are set. -/
def mask (ns : List Nat) : Nat := ns.foldr (fun n m => 1 <<< n ||| m) 0

theorem testBit_mask (ns : List Nat) (n : Nat) : (mask ns).testBit n = decide (n ∈ ns) := by
  induction ns with
  | nil => simp [mask]
  | cons k ns ih =>
      rw [mask, List.foldr_cons, Nat.testBit_or, Nat.one_shiftLeft, Nat.testBit_two_pow]
      change (decide (k = n) || (mask ns).testBit n) = _
      rw [ih]
      simp [eq_comm]

/-- Two sets that share no bit share no code point. -/
theorem not_mem_of_mask {ms ns : List Nat} (h : mask ms &&& mask ns = 0) {n : Nat} (hn : n ∈ ms) :
    n ∉ ns := by
  have hbit := congrArg (·.testBit n) h
  simpa [Nat.testBit_and, testBit_mask, hn] using hbit

/-! ## The table -/

/-- The code points that are changed. -/
def changed : List Nat := expansions.map (·.1) ++ runs.flatMap CaseRun.inputs

/-- The code points of upper cases. -/
def capitals : List Nat := expansions.flatMap (·.2) ++ runs.flatMap CaseRun.outputs

theorem not_changed_of_capital {n : Nat} (h : n ∈ capitals) : n ∉ changed :=
  not_mem_of_mask (by decide +kernel) h

theorem capital_valid : ∀ n ∈ capitals, n.isValidChar := by
  decide +kernel

theorem expansion_ne_nil : ∀ e ∈ expansions, e.2 ≠ [] := by
  decide

/-- A run that a code point belongs to changes it to an upper case. -/
theorem mem_of_run {r : CaseRun} (hr : r ∈ runs) {n : Nat} (hfirst : r.first ≤ n)
    (hlast : n ≤ r.last) (hstride : (n - r.first) % r.stride = 0) :
    n ∈ changed ∧ r.upper + (n - r.first) ∈ capitals := by
  obtain ⟨hin, hout⟩ := r.mem_of_within hfirst hlast hstride
  exact ⟨List.mem_append_right _ (List.mem_flatMap.mpr ⟨r, hr, hin⟩),
    List.mem_append_right _ (List.mem_flatMap.mpr ⟨r, hr, hout⟩)⟩

theorem ofRuns_cases (n : Nat) : ofRuns n = n ∨ n ∈ changed ∧ ofRuns n ∈ capitals := by
  unfold ofRuns
  split
  · rename_i r hfind
    have hmatch := List.find?_some hfind
    simp only [Bool.and_eq_true, decide_eq_true_eq, beq_iff_eq] at hmatch
    exact .inr (mem_of_run (List.mem_of_find?_eq_some hfind) hmatch.1.1 hmatch.1.2 hmatch.2)
  · exact .inl rfl

/-- The first run is that of the ASCII letters. -/
theorem toUpper_cases (c : Char) :
    c.toUpper = c ∨ c.toNat ∈ changed ∧ c.toUpper.toNat ∈ capitals := by
  by_cases h : 'a'.val ≤ c.val ∧ c.val ≤ 'z'.val
  · have hfirst : 0x61 ≤ c.toNat := h.1
    have hlast : c.toNat ≤ 0x7A := h.2
    have hupper : c.toUpper.toNat = 0x41 + (c.toNat - 0x61) := by
      refine (congrArg Char.toNat (dif_pos h : c.toUpper = _)).trans ?_
      change (c.val + ('A'.val - 'a'.val)).toNat = 0x41 + (c.val.toNat - 0x61)
      rw [UInt32.toNat_add]
      change 0x61 ≤ c.val.toNat at hfirst
      change c.val.toNat ≤ 0x7A at hlast
      change (c.val.toNat + 4294967264) % 4294967296 = _
      omega
    have hletters : ⟨0x61, 0x7A, 1, 0x41⟩ ∈ runs := List.mem_cons_self
    obtain ⟨hin, hout⟩ := mem_of_run hletters hfirst hlast (Nat.mod_one _)
    exact .inr ⟨hin, hupper ▸ hout⟩
  · exact .inl (dif_neg h)

theorem toNat_ofNat {n : Nat} (h : n ∈ capitals) : (Char.ofNat n).toNat = n := by
  rw [Char.ofNat, dif_pos (capital_valid n h)]
  rfl

/-- A character stays, or it is changed to one or more capitals. -/
theorem ofChar_cases (c : Char) :
    ofChar c = [c] ∨ c.toNat ∈ changed ∧ ofChar c ≠ [] ∧ ∀ d ∈ ofChar c, d.toNat ∈ capitals := by
  have hsingle : ∀ d : Char, (d = c ∨ c.toNat ∈ changed ∧ d.toNat ∈ capitals) →
      [d] = [c] ∨ c.toNat ∈ changed ∧ [d] ≠ [] ∧ ∀ x ∈ [d], x.toNat ∈ capitals := by
    rintro d (rfl | ⟨hin, hout⟩)
    · exact .inl rfl
    · exact .inr ⟨hin, by simp, by simpa using hout⟩
  unfold ofChar
  simp only
  split
  · exact hsingle c.toUpper (toUpper_cases c)
  split
  · rename_i expansion hlookup
    obtain ⟨front, back, hentries, -⟩ := List.lookup_eq_some_iff.mp hlookup
    have hmem : (c.toNat, expansion) ∈ expansions := by simp [hentries]
    have hcapital : ∀ n ∈ expansion, n ∈ capitals := fun n hn =>
      List.mem_append_left _ (List.mem_flatMap.mpr ⟨_, hmem, hn⟩)
    refine .inr ⟨List.mem_append_left _ (List.mem_map.mpr ⟨_, hmem, rfl⟩), ?_, fun d hd => ?_⟩
    · simpa using expansion_ne_nil _ hmem
    · obtain ⟨n, hn, rfl⟩ := List.mem_map.mp hd
      rw [toNat_ofNat (hcapital n hn)]
      exact hcapital n hn
  · refine hsingle (Char.ofNat (ofRuns c.toNat)) ?_
    rcases ofRuns_cases c.toNat with hself | ⟨hin, hout⟩
    · rw [hself, Char.ofNat_toNat]
      exact .inl rfl
    · rw [toNat_ofNat hout]
      exact .inr ⟨hin, hout⟩

theorem ofChar_eq_self {c : Char} (h : c.toNat ∉ changed) : ofChar c = [c] :=
  (ofChar_cases c).resolve_right fun hchanged => h hchanged.1

/-- An upper case has no other upper case. -/
theorem ofChar_of_mem {c d : Char} (h : d ∈ ofChar c) : ofChar d = [d] := by
  rcases ofChar_cases c with hself | ⟨-, -, hcapital⟩
  · rw [hself, List.mem_singleton] at h
    rw [h, hself]
  · exact ofChar_eq_self (not_changed_of_capital (hcapital d h))

end Upper

end Stencil
