import Stencil.Proofs.Resolver.Assignments
import Stencil.Proofs.Resolver.Calls

/-! Resolvers with states of their own that answer alike as long as their states are related. -/

namespace Stencil

namespace Resolver

variable {σ τ : Type} {q : Resolver τ} {r : Resolver σ} {R : τ → σ → Prop}

/-- In related states both give the same answer, and their states stay related, also when the answer
is an error. -/
structure Agrees (q : Resolver τ) (r : Resolver σ) (R : τ → σ → Prop) : Prop where
  resolve : ∀ {t s}, R t s → ∀ key params context,
    (q.resolve key params context t).1 = (r.resolve key params context s).1 ∧
      R (q.resolve key params context t).2 (r.resolve key params context s).2
  assign : ∀ {t s}, R t s → ∀ name text,
    (q.assign name text t).1 = (r.assign name text s).1 ∧
      R (q.assign name text t).2 (r.assign name text s).2

/-- Both resolvers side by side, in related states. The answers are those of the first one. -/
def Agrees.beside (h : q.Agrees r R) : Resolver { p : τ × σ // R p.1 p.2 } where
  resolve key params context p :=
    ((q.resolve key params context p.1.1).1,
      ⟨((q.resolve key params context p.1.1).2, (r.resolve key params context p.1.2).2),
        (h.resolve p.2 key params context).2⟩)
  assign name text p :=
    ((q.assign name text p.1.1).1,
      ⟨((q.assign name text p.1.1).2, (r.assign name text p.1.2).2), (h.assign p.2 name text).2⟩)

theorem Agrees.covers_fst (h : q.Agrees r R) : h.beside.Covers q fun p => p.1.1 :=
  ⟨fun _ _ _ _ => rfl, fun _ _ _ => rfl⟩

theorem Agrees.covers_snd (h : q.Agrees r R) : h.beside.Covers r fun p => p.1.2 where
  resolve key params context p :=
    Prod.ext (h.resolve p.2 key params context).1.symm rfl
  assign name text p := Prod.ext (h.assign p.2 name text).1.symm rfl

end Resolver

variable {σ τ : Type} {q : Resolver τ} {r : Resolver σ} {R : τ → σ → Prop} {t : τ} {s : σ}

/-- Resolvers that agree expand a template alike, and its states stay related even if it fails. -/
theorem expand_agrees (h : q.Agrees r R) (hR : R t s) (template : Text) :
    (expand q template t).1 = (expand r template s).1 ∧
      R (expand q template t).2 (expand r template s).2 := by
  have hq : expand q template t = _ := expand_covers h.covers_fst template ⟨(t, s), hR⟩
  have hr : expand r template s = _ := expand_covers h.covers_snd template ⟨(t, s), hR⟩
  rw [hq, hr]
  exact ⟨rfl, (expand h.beside template ⟨(t, s), hR⟩).2.2⟩

/-- Resolvers that agree make a template execute the same assignments. -/
theorem executed_agrees (h : q.Agrees r R) (hR : R t s) (template : Text) :
    executed q template t = executed r template s := by
  have hq : Machine.visits q (tokenize template) .start t = _ :=
    Machine.visits_covers h.covers_fst _ _ ⟨(t, s), hR⟩
  have hr : Machine.visits r (tokenize template) .start s = _ :=
    Machine.visits_covers h.covers_snd _ _ ⟨(t, s), hR⟩
  rw [executed, executed, Machine.executed, Machine.executed, hq, hr, List.filterMap_map,
    List.filterMap_map]
  rfl

end Stencil
