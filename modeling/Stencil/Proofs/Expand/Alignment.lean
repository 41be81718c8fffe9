import Mathlib.Data.List.Induction
import Stencil.Proofs.Expand.Invariant
import Stencil.Proofs.Machine.Refusal
import Stencil.Resolver.Map

/-! Alignment markers over a run. The markers that are executed pair up like brackets, and a line is
padded to the column in which the innermost one that is still open stood. -/

namespace Stencil

open Lines Text

/-- The marker as a token. -/
def AlignmentMarker.token : AlignmentMarker → Token
  | align => .align
  | pop => .popAlign

namespace Machine

variable {σ : Type} {r : Resolver σ} {m n k : Machine} {s t u : σ} {token : Token}

/-! ## Paths -/

/-- A run leads over the visits from one state to another. -/
inductive Path (r : Resolver σ) : Machine → σ → List (Visit σ) → Machine → σ → Prop where
  | nil {m : Machine} {s : σ} : Path r m s [] m s
  | cons {m k n : Machine} {s u t : σ} {token : Token} {vs : List (Visit σ)}
      (h : Step r m s token k u) (hrest : Path r k u vs n t) :
      Path r m s (⟨m, token, s⟩ :: vs) n t

variable {vs ws : List (Visit σ)} {v : Visit σ}

theorem Path.split (h : Path r m s (vs ++ ws) n t) :
    ∃ k u, Path r m s vs k u ∧ Path r k u ws n t := by
  induction vs generalizing m s with
  | nil => exact ⟨m, s, .nil, h⟩
  | cons v vs ih =>
      cases h with
      | cons hstep hrest =>
          obtain ⟨k, u, hfirst, hsecond⟩ := ih hrest
          exact ⟨k, u, .cons hstep hfirst, hsecond⟩

/-- A path leads to a visit, over it, and on. -/
theorem Path.visit (h : Path r m s (vs ++ v :: ws) n t) :
    Path r m s vs v.machine v.state ∧
      ∃ k u, Step r v.machine v.state v.token k u ∧ Path r k u ws n t := by
  obtain ⟨k, u, hfirst, hsecond⟩ := h.split
  cases hsecond with
  | cons hstep hrest => exact ⟨hfirst, _, _, hstep, hrest⟩

/-- The visits of a run before any of them are a path to it. -/
theorem path_of_visits {items : List Item} (h : visits r items m s = vs ++ v :: ws) :
    Path r m s vs v.machine v.state := by
  induction vs generalizing items m s with
  | nil =>
      cases items with
      | nil => simp [visits] at h
      | cons item items =>
          cases item with
          | error e => simp [visits] at h
          | ok token =>
              rw [visits] at h
              obtain ⟨rfl, -⟩ := List.cons.inj h
              exact .nil
  | cons w vs ih =>
      cases items with
      | nil => simp [visits] at h
      | cons item items =>
          cases item with
          | error e => simp [visits] at h
          | ok token =>
              rw [visits] at h
              obtain ⟨rfl, hrest⟩ := List.cons.inj h
              split at hrest
              · rename_i k u hstep
                exact .cons (step_relation hstep) (ih hrest)
              · simp at hrest

theorem Path.sound (hm : Sound m) (h : Path r m s vs n t) : Sound n := by
  induction h with
  | nil => exact hm
  | cons hstep hrest ih => exact ih (hm.step hstep)

/-! ## Markers that open and close -/

/-- An executed marker that records the alignment. -/
def Visit.Opens (v : Visit σ) : Prop := v.machine.active = true ∧ v.token = .pushAlign

/-- An executed marker that drops the alignment recorded last. -/
def Visit.Closes (v : Visit σ) : Prop := v.machine.active = true ∧ v.token = .popAlign

theorem alignments_opened (h : Step r m s token n t) (ho : Visit.Opens ⟨m, token, s⟩) :
    n.alignments = m.output.alignment :: m.alignments := by
  obtain ⟨ha, rfl⟩ : m.active = true ∧ token = .pushAlign := ho
  obtain ⟨rfl, rfl⟩ := ok_inj.mp (h.execution.symm.trans (Step.pushAlign ha).execution)
  rfl

theorem alignments_closed (h : Step r m s token n t) (hc : Visit.Closes ⟨m, token, s⟩) :
    ∃ innermost, m.alignments = innermost :: n.alignments := by
  obtain ⟨ha, rfl⟩ : m.active = true ∧ token = .popAlign := hc
  cases hm : m.alignments with
  | nil =>
      have herror := (Refusal.own (r := r) (s := s) (.popAlign ha hm)).execution
      simp [h.execution] at herror
  | cons innermost outer =>
      obtain ⟨rfl, rfl⟩ := ok_inj.mp (h.execution.symm.trans (Step.popAlign ha hm).execution)
      exact ⟨innermost, rfl⟩

theorem alignments_kept (h : Step r m s token n t) (ho : ¬ Visit.Opens ⟨m, token, s⟩)
    (hc : ¬ Visit.Closes ⟨m, token, s⟩) : n.alignments = m.alignments := by
  cases h with
  | expand h hl => exact (expansion_frame m _).2.1
  | pushAlign h => exact (ho ⟨h, rfl⟩).elim
  | popAlign h ha => exact (hc ⟨h, rfl⟩).elim
  | _ => rfl

/-- Each executed marker among the visits that opens is closed by one behind it, and conversely. -/
inductive Balanced : List (Visit σ) → Prop where
  | nil : Balanced []
  | other {v : Visit σ} {vs : List (Visit σ)} (ho : ¬ v.Opens) (hc : ¬ v.Closes)
      (h : Balanced vs) : Balanced (v :: vs)
  | pair {o c : Visit σ} {inner vs : List (Visit σ)} (ho : o.Opens) (hinner : Balanced inner)
      (hc : c.Closes) (h : Balanced vs) : Balanced (o :: (inner ++ c :: vs))

/-- Where no marker that opens or closes is executed there is nothing to pair up. -/
theorem balanced_of_plain (h : ∀ v ∈ vs, ¬ v.Opens ∧ ¬ v.Closes) : Balanced vs := by
  induction vs with
  | nil => exact .nil
  | cons v vs ih =>
      obtain ⟨⟨ho, hc⟩, hrest⟩ := List.forall_mem_cons.mp h
      exact .other ho hc (ih hrest)

theorem Balanced.append (hv : Balanced vs) (hw : Balanced ws) : Balanced (vs ++ ws) := by
  induction hv with
  | nil => exact hw
  | other ho hc h ih => exact .other ho hc ih
  | @pair o inner c vs ho hinner hc h _ ih =>
      rw [List.cons_append, List.append_assoc]
      exact .pair ho hinner hc ih

/-- Where the markers are balanced the recorded alignments are what they were. -/
theorem Balanced.alignments (h : Balanced vs) (hp : Path r m s vs n t) :
    n.alignments = m.alignments := by
  induction h generalizing m s n t with
  | nil =>
      cases hp
      rfl
  | other ho hc h ih =>
      cases hp with
      | cons hstep hrest => rw [ih hrest, alignments_kept hstep ho hc]
  | pair ho hinner hc h ihinner ih =>
      cases hp with
      | cons hopen hrest =>
          obtain ⟨hwithin, k, u, hclose, hbehind⟩ := hrest.visit
          obtain ⟨innermost, hdropped⟩ := alignments_closed hclose hc
          rw [ihinner hwithin, alignments_opened hopen ho] at hdropped
          rw [ih hbehind]
          exact (List.cons.inj hdropped).2.symm

/-- The executed marker among the visits that was met last of those that are still open. -/
structure Innermost (vs : List (Visit σ)) (o : Visit σ) : Prop where
  opens : o.Opens
  place : ∃ before between, vs = before ++ o :: between ∧ Balanced between

/-- The alignment recorded last is that at the innermost marker. -/
theorem Innermost.alignments {o : Visit σ} (h : Innermost vs o) (hp : Path r m s vs n t) :
    n.alignments = o.machine.output.alignment :: o.machine.alignments := by
  obtain ⟨hopens, before, between, rfl, hbetween⟩ := h
  obtain ⟨-, k, u, hstep, hrest⟩ := hp.visit
  rw [hbetween.alignments hrest, alignments_opened hstep hopens]

/-- The executed markers that are still open behind the visits, the innermost first. -/
inductive Leaves : List (Visit σ) → List (Visit σ) → Prop where
  | balanced {vs : List (Visit σ)} (h : Balanced vs) : Leaves vs []
  | opened {before between pending : List (Visit σ)} {o : Visit σ} (h : Leaves before pending)
      (ho : o.Opens) (hb : Balanced between) : Leaves (before ++ o :: between) (o :: pending)

theorem Leaves.append {pending : List (Visit σ)} (h : Leaves vs pending) (hw : Balanced ws) :
    Leaves (vs ++ ws) pending := by
  cases h with
  | balanced h => exact .balanced (h.append hw)
  | opened h ho hb =>
      rw [List.append_assoc, List.cons_append]
      exact .opened h ho (hb.append hw)

/-- The recorded alignments are those at the markers that are still open. A marker that is closed
and all behind it are one balanced stretch from then on. -/
theorem leaves_of_path (hm : m.alignments = []) (h : Path r m s vs n t) :
    ∃ pending, Leaves vs pending ∧
      n.alignments = pending.map fun o => o.machine.output.alignment := by
  induction vs using List.reverseRecOn generalizing n t with
  | nil =>
      cases h
      exact ⟨[], .balanced .nil, hm⟩
  | append_singleton vs v ih =>
      obtain ⟨hfront, k, u, hstep, hend⟩ := h.visit
      cases hend
      obtain ⟨pending, hleaves, halignments⟩ := ih hfront
      by_cases ho : v.Opens
      · refine ⟨v :: pending, .opened hleaves ho .nil, ?_⟩
        rw [alignments_opened hstep ho, halignments]
        rfl
      by_cases hc : v.Closes
      · obtain ⟨innermost, hdropped⟩ := alignments_closed hstep hc
        cases hleaves with
        | balanced h => simp [halignments] at hdropped
        | @opened before between pending o hbefore hopens hb =>
            rw [halignments] at hdropped
            refine ⟨pending, ?_, (List.cons.inj hdropped).2.symm⟩
            rw [List.append_assoc]
            exact hbefore.append (.pair hopens hb hc .nil)
      · have hother : Balanced [v] := .other ho hc .nil
        exact ⟨pending, hleaves.append hother, (alignments_kept hstep ho hc).trans halignments⟩

theorem balanced_or_innermost (hm : m.alignments = []) (h : Path r m s vs n t) :
    Balanced vs ∨ ∃ o, Innermost vs o := by
  obtain ⟨pending, hleaves, -⟩ := leaves_of_path hm h
  cases hleaves with
  | balanced h => exact .inl h
  | @opened before between pending o h ho hb => exact .inr ⟨o, ho, before, between, rfl, hb⟩

/-! ## Markers that need an open one -/

theorem step_marker_error (marker : AlignmentMarker) (ha : m.active = true)
    (hm : m.alignments = []) :
    m.step r marker.token s = (.error (.unbalancedAlignment marker), s) := by
  cases marker with
  | align => exact (Refusal.own (.align ha hm)).execution
  | pop => exact (Refusal.own (.popAlign ha hm)).execution

/-- Recording and dropping alignments leaves the output alone. -/
theorem output_of_marker (h : Step r m s token n t)
    (hmarker : token = .pushAlign ∨ token = .popAlign) : n.output = m.output := by
  cases h with
  | @mark mark => cases mark <;> simp [Mark.token] at hmarker
  | passed hp hn h => rfl
  | pushAlign h => rfl
  | popAlign h ha => rfl
  | _ => simp at hmarker

/-- The alignment reaches from the column to that at which it was recorded. -/
theorem padding_width {o : Output} (h : o.Tidy) (column : Nat) :
    column + (o.alignment.drop column).length = max column o.column := by
  rw [List.length_drop, h.length_alignment]
  omega

theorem Innermost.tidy {o : Visit σ} (h : Innermost vs o) (hm : Sound m)
    (hp : Path r m s vs n t) : o.machine.output.Tidy := by
  obtain ⟨-, before, between, rfl, -⟩ := h
  exact (hp.visit.1.sound hm).output

/-- Aligning adds what is missing of the alignment at the innermost marker. -/
theorem Innermost.step_align {o : Visit σ} (h : Innermost vs o) (hm : Sound m)
    (hp : Path r m s vs n t) (ha : n.active = true) :
    n.step r .align t = (.ok (n.withOutput ⟨n.output.lines,
      n.output.current ++ o.machine.output.alignment.drop n.output.column,
      max n.output.column o.machine.output.column⟩), t) := by
  rw [(Step.align ha (h.alignments hp)).execution, ← padding_width (h.tidy hm hp)]
  rfl

/-- Closing goes back to the alignments from before the innermost marker. -/
theorem Innermost.step_popAlign {o : Visit σ} (h : Innermost vs o) (hp : Path r m s vs n t)
    (ha : n.active = true) :
    n.step r .popAlign t = (.ok (n.withAlignments o.machine.alignments), t) :=
  (Step.popAlign ha (h.alignments hp)).execution

/-- A step that fails is the end of the expansion. -/
theorem expand_of_step_error {template : Text} {e : TemplateError}
    (hv : v ∈ visits r (tokenize template) .start s)
    (h : v.machine.step r v.token v.state = (.error e, t)) :
    expand r template s = (.error (.atLine v.machine.line e), t) := by
  obtain ⟨front, rest, hitems, hfront⟩ := (mem_visits_iff r).mp hv
  have hsteps := steps_eq_error.mpr
    ⟨front, _, rest, _, _, e, hitems, hfront, .refused (refusal_iff.mpr h), rfl⟩
  rw [expand_eq_steps, hsteps, chain_error]

/-- Alignment markers pair up over a run, whatever stands between them: each executed marker that
needs an open one finds the innermost that the markers before it leave open, and fails when they are
balanced. Aligning adds the tabs and spaces of the alignment recorded there that are behind the
column, and thereby reaches to the column of that marker; closing goes back to the alignments that
were recorded before it. The markers that open and close change no output. -/
theorem alignment_markers_pair (r : Resolver σ) (template : Text) (s : σ) :
    ∀ earlier v later, visits r (tokenize template) .start s = earlier ++ v :: later →
      (Balanced earlier ∨ ∃ o, Innermost earlier o) ∧
      (∀ marker : AlignmentMarker, v.token = marker.token → v.machine.active = true →
        (v.machine.step r v.token v.state = (.error (.unbalancedAlignment marker), v.state) ↔
          Balanced earlier) ∧
        (Balanced earlier → expand r template s =
          (.error (.atLine v.machine.line (.unbalancedAlignment marker)), v.state))) ∧
      (∀ o, Innermost earlier o → v.machine.active = true →
        (v.token = .align → ∃ recorded padding, Aligns o.machine.output.current recorded ∧
          recorded.length = o.machine.output.column ∧
          padding = recorded.drop v.machine.output.column ∧ Indenting padding ∧
          v.machine.step r v.token v.state =
            (.ok (v.machine.withOutput ⟨v.machine.output.lines,
              v.machine.output.current ++ padding,
              max v.machine.output.column o.machine.output.column⟩), v.state)) ∧
        (v.token = .popAlign → v.machine.step r v.token v.state =
          (.ok (v.machine.withAlignments o.machine.alignments), v.state))) ∧
      (v.token = .pushAlign ∨ v.token = .popAlign → ∀ n t,
        v.machine.step r v.token v.state = (.ok n, t) → n.output = v.machine.output) := by
  intro earlier v later hvisits
  have hpath := path_of_visits hvisits
  have hcases := balanced_or_innermost rfl hpath
  have hmem : v ∈ visits r (tokenize template) .start s := by simp [hvisits]
  refine ⟨hcases, ?_, ?_, ?_⟩
  · intro marker htoken ha
    have herror : Balanced earlier → v.machine.step r v.token v.state =
        (.error (.unbalancedAlignment marker), v.state) := fun hbalanced => by
      rw [htoken]
      exact step_marker_error marker ha (hbalanced.alignments hpath)
    refine ⟨⟨fun h => ?_, herror⟩, fun hbalanced => expand_of_step_error hmem (herror hbalanced)⟩
    rcases hcases with hbalanced | ⟨o, ho⟩
    · exact hbalanced
    · rw [htoken] at h
      cases marker with
      | align => simp [AlignmentMarker.token, ho.step_align sound_start hpath ha] at h
      | pop => simp [AlignmentMarker.token, ho.step_popAlign hpath ha] at h
  · intro o ho ha
    have htidy := ho.tidy sound_start hpath
    refine ⟨fun htoken => ?_, fun htoken => ?_⟩
    · refine ⟨o.machine.output.alignment, _, htidy.aligns, htidy.length_alignment, rfl, ?_, ?_⟩
      · intro c hc
        exact o.machine.output.indenting_alignment c (List.mem_of_mem_drop hc)
      · rw [htoken]
        exact ho.step_align sound_start hpath ha
    · rw [htoken]
      exact ho.step_popAlign hpath ha
  · intro hmarker n t hstep
    exact output_of_marker (step_relation hstep) hmarker

/-- A line padded to the marker on the line above it, and a marker behind the end of the first. -/
theorem alignment_markers_pair_lines :
    let r : Resolver (Bindings Value) := .bindings
    let values : Bindings Value := .empty
    let template : Text := "  [[[>]]]a\nb[[[|]]][[[<]]][[[|]]]".toList
    let visit : Output → List Text → Nat → Token → Visit (Bindings Value) :=
      fun output alignments line token => ⟨⟨output, [], alignments, line, false⟩, token, values⟩
    let o := visit ⟨[], [' ', ' '], 2⟩ [] 1 .pushAlign
    let between := [visit ⟨[], [' ', ' '], 2⟩ [[' ', ' ']] 1 (.text ['a']),
      visit ⟨[], [' ', ' ', 'a'], 3⟩ [[' ', ' ']] 1 .newline,
      visit ⟨[[' ', ' ', 'a']], [], 0⟩ [[' ', ' ']] 2 (.text ['b'])]
    let earlier := visit .empty [] 1 (.text [' ', ' ']) :: o :: between
    let align := visit ⟨[[' ', ' ', 'a']], ['b'], 1⟩ [[' ', ' ']] 2 .align
    let padded : Output := ⟨[[' ', ' ', 'a']], ['b', ' '], 2⟩
    let close := visit padded [[' ', ' ']] 2 .popAlign
    let unbalanced := visit padded [] 2 .align
    visits r (tokenize template) .start values = earlier ++ [align, close, unbalanced] ∧
      Innermost earlier o ∧
      align.machine.step r .align values = (.ok close.machine, values) ∧
      Balanced (earlier ++ [align, close]) ∧
      expand r template values =
        (.error (.atLine 2 (.unbalancedAlignment .align)), values) := by
  intro r values template visit o between earlier align padded close unbalanced
  have hsecond : tokenize "b[[[|]]][[[<]]][[[|]]]".toList = _ :=
    @tokenize_line _ [.ok (.text ['b']), .ok .align, .ok .popAlign, .ok .align, .ok .newline] rfl
  have hvisits : visits r (tokenize template) .start values =
      earlier ++ [align, close, unbalanced] := by
    rw [@tokenize_lines _ "b[[[|]]][[[<]]][[[|]]]".toList
      [.ok (.text [' ', ' ']), .ok .pushAlign, .ok (.text ['a']), .ok .newline] rfl, hsecond]
    rfl
  have hfirst : Balanced [visit .empty [] 1 (.text [' ', ' '])] :=
    balanced_of_plain (by simp [visit, Visit.Opens, Visit.Closes])
  have hbetween : Balanced between :=
    balanced_of_plain (by simp [between, visit, Visit.Opens, Visit.Closes])
  have hwithin : Balanced (between ++ [align]) :=
    hbetween.append (balanced_of_plain (by simp [align, visit, Visit.Opens, Visit.Closes]))
  have hopen : Innermost earlier o := ⟨⟨rfl, rfl⟩, [_], between, rfl, hbetween⟩
  have hpair : Balanced (o :: (between ++ [align] ++ [close])) :=
    .pair ⟨rfl, rfl⟩ hwithin ⟨rfl, rfl⟩ .nil
  have hclosed : Balanced (earlier ++ [align, close]) := hfirst.append hpair
  have hmarkers := alignment_markers_pair r template values
  obtain ⟨-, -, hinnermost, -⟩ := hmarkers earlier align [close, unbalanced] hvisits
  obtain ⟨recorded, padding, haligns, -, rfl, -, hstep⟩ := (hinnermost o hopen rfl).1 rfl
  have htidy : o.machine.output.Tidy := ⟨rfl, by decide⟩
  obtain rfl : recorded = [' ', ' '] := haligns.unique htidy.aligns
  obtain ⟨-, hneeds, -⟩ := hmarkers (earlier ++ [align, close]) unbalanced [] hvisits
  exact ⟨hvisits, hopen, hstep, hclosed, (hneeds .align rfl rfl).2 hclosed⟩

end Machine

end Stencil
