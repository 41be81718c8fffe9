import Stencil.Proofs.Machine.Settled
import Stencil.Proofs.Output.Visible
import Stencil.Resolver.Map

/-! The visible characters of the output are those that the executed tokens hand to it, in order. -/

namespace Stencil

open Text

namespace Machine

variable {σ : Type} {r : Resolver σ} {m n : Machine} {s t : σ} {token : Token}

/-! ## What a token hands to the output -/

/-- The text of a value that may be absent. -/
def contentOf : Option Value → Text
  | none => []
  | some v => v.content

/-- The text that an executed token hands to the output: its own, or that of the value that an
expansion is given. -/
def handed (r : Resolver σ) (m : Machine) (s : σ) : Token → Text
  | .text t => t
  | .expand content =>
    match lookup r m content s with
    | (.ok value, _) => contentOf value
    | (.error _, _) => []
  | _ => []

/-- What a visit hands to the output. In a skipped branch there is nothing. -/
def Visit.handed (r : Resolver σ) (v : Visit σ) : Text :=
  if v.machine.active then Machine.handed r v.machine v.state v.token else []

theorem handed_active (h : m.active = true) :
    Visit.handed r ⟨m, token, s⟩ = handed r m s token := if_pos h

theorem handed_inactive (h : m.active = false) : Visit.handed r ⟨m, token, s⟩ = [] := by
  rw [Visit.handed, h]
  rfl

/-- Whatever else such a token does, it writes nothing. -/
theorem handed_silent (h : handed r m s token = []) : Visit.handed r ⟨m, token, s⟩ = [] := by
  cases ha : m.active with
  | false => exact handed_inactive ha
  | true => exact (handed_active ha).trans h

/-! ## One step -/

/-- The machine pads with blanks and drops blank lines only. -/
structure Blanking (m : Machine) : Prop where
  settled : Settled m
  alignments : ∀ alignment ∈ m.alignments, alignment.allBlank = true

theorem blanking_start : Blanking .start where
  settled := settled_start
  alignments := by simp [start]

theorem Blanking.step (hm : Blanking m) (h : Step r m s token n t) : Blanking n where
  settled := hm.settled.step h
  alignments := by
    cases h with
    | swallowed h => exact hm.alignments
    | newline h => exact hm.alignments
    | mark h => exact hm.alignments
    | passed hp hn h => exact hm.alignments
    | text h => exact hm.alignments
    | @expand content v _ h hl =>
        cases v with
        | none => exact hm.alignments
        | some v =>
            rw [expansion]
            split
            · exact hm.alignments
            · exact hm.alignments
    | set h ha hr => exact hm.alignments
    | pushAlign h =>
        intro alignment ha
        rcases List.mem_cons.mp ha with rfl | ha
        · exact m.output.allBlank_alignment
        · exact hm.alignments alignment ha
    | align h ha => exact hm.alignments
    | popAlign h ha =>
        intro alignment hmem
        exact hm.alignments alignment (by rw [ha]; exact List.mem_cons_of_mem _ hmem)

theorem visible_expansion (v : Option Value) :
    visible (m.expansion v).output.written =
      visible m.output.written ++ visible (contentOf v) := by
  cases v with
  | none => simp [expansion, silent, contentOf]
  | some v =>
      rw [expansion]
      split
      · rename_i hv
        have hnil : v.content = [] := by
          cases v <;> simp_all [Value.isEmpty, Value.content, Value.display]
        simp [silent, contentOf, hnil]
      · exact Output.visible_addValue m.output v

/-- A step adds to the visible characters what its token hands to the output. -/
theorem Blanking.visible_step (hm : Blanking m) (h : Step r m s token n t) :
    visible n.output.written =
      visible m.output.written ++ visible (Visit.handed r ⟨m, token, s⟩) := by
  cases h with
  | swallowed hs =>
      have hb := hm.settled hs
      rw [handed_silent rfl, swallowNewline, hb]
      simpa using Output.visible_discard hb
  | newline hs =>
      rw [handed_silent rfl, Machine.newline]
      cases m.active with
      | true => simpa using Output.visible_endLine m.output
      | false => simp
  | @mark mark blocks _ h =>
      rw [handed_silent (by cases mark <;> rfl)]
      simp [silent, withBlocks]
  | passed hp hn h =>
      rw [handed_inactive h]
      simp
  | text h =>
      rw [handed_active h]
      exact Output.visible_addText m.output _
  | expand h hl =>
      rw [handed_active h, handed, hl]
      exact visible_expansion _
  | set h ha hr =>
      rw [handed_silent rfl]
      simp [silent]
  | pushAlign h =>
      rw [handed_silent rfl]
      simp [withAlignments]
  | @align innermost outer h ha =>
      have hblank := hm.alignments innermost (by simp [ha])
      rw [handed_silent rfl]
      simpa [withOutput] using Output.visible_padTo m.output hblank
  | popAlign h ha =>
      rw [handed_silent rfl]
      simp [withAlignments]

/-! ## Runs -/

theorem Blanking.visible_steps {items : List Item} (hm : Blanking m)
    (h : steps r items m s = (.ok n, t)) :
    visible n.output.written =
      visible m.output.written ++ visible ((visits r items m s).flatMap (·.handed r)) := by
  induction items generalizing m s with
  | nil =>
      obtain ⟨rfl, rfl⟩ := ok_inj.mp h
      simp [visits]
  | cons item items ih =>
      cases item with
      | error e => simp at h
      | ok token =>
          obtain ⟨k, u, hstep, hrest⟩ := (steps_cons_eq_ok r).mp h
          rw [visits_cons r hstep.execution, List.flatMap_cons, visible_append,
            ih (hm.step hstep) hrest, hm.visible_step hstep, List.append_assoc]

end Machine

open Machine Lines

variable {σ : Type} (r : Resolver σ)

/-- No visible character is lost, added, repeated or moved: those of the lines are those of the
text tokens and of the values in executed branches, in the order of execution. -/
theorem visible_expand (template : Text) (s : σ) (lines : List Text) (s' : σ)
    (h : expand r template s = (.ok lines, s')) :
    visible lines.flatten =
      visible ((visits r (tokenize template) .start s).flatMap (·.handed r)) := by
  obtain ⟨m, hsteps, hblocks, rfl⟩ := expand_eq_ok h
  have hwritten : m.output.written = m.output.lines.flatten := by
    rw [eq_of_steps hsteps hblocks]
    simp [Output.written]
  rw [tokenize_eq, ← hwritten, blanking_start.visible_steps hsteps]
  rfl

/-- Lines set below each other between blanks. -/
theorem visible_expand_spliced :
    let template : Text := "[[[>]]]a [[[k]]] b".toList
    let values : Bindings Value := ⟨[(['k'], .lines ["x y", "", "z"])]⟩
    let lines : List Text := ["a x y", "", "  z b"]
    expand Resolver.bindings template values = (.ok lines, values) ∧
      visible lines.flatten =
        visible ((visits Resolver.bindings (tokenize template) .start values).flatMap
          (·.handed Resolver.bindings)) := by
  intro template values lines
  have h : expand Resolver.bindings template values = (.ok lines, values) := by
    rw [expand, tokenize_line rfl]
    rfl
  exact ⟨h, visible_expand Resolver.bindings template values lines values h⟩

end Stencil
