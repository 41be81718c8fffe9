import Mathlib.Data.List.Forall2
import Stencil.Proofs.Resolver.Agreement
import Stencil.Proofs.Scan.Lines
import Stencil.Resolver.Members

/-! Sessions with a store of values. Members that are all plain values answer every request of a
session as the bindings with the same entries do. -/

namespace Stencil

namespace Session

/-- What a store of values can be asked for. -/
inductive Request where
  | expand (template : Text)
  | resolve (key : Text) (params : List Text) (context : Context)
  | assign (name text : Text)
  | setValue (name : Text) (v : Value)

inductive Answer where
  | lines (result : Except TemplateError (List Text))
  | value (result : Except TemplateError (Option Value))
  | done (result : Except TemplateError Unit)

/-- A request with its answer and the contents of the store around it. -/
structure Exchange (σ : Type) where
  before : σ
  request : Request
  answer : Answer
  after : σ

variable {σ : Type} (r : Resolver σ) (setValue : σ → Text → Value → σ)

def serve (s : σ) : Request → Answer × σ
  | .expand template => (expand r template s).map .lines id
  | .resolve key params context => (r.resolve key params context s).map .value id
  | .assign name text => (r.assign name text s).map .done id
  | .setValue name v => (.done (.ok ()), setValue s name v)

def exchange (s : σ) (request : Request) : Exchange σ :=
  let (answer, after) := serve r setValue s request
  ⟨s, request, answer, after⟩

/-- The exchanges of a session. An error does not end it. -/
def exchanges : σ → List Request → List (Exchange σ)
  | _, [] => []
  | s, request :: requests =>
    let first := exchange r setValue s request
    first :: exchanges first.after requests

/-- A request for a value changes nothing, and an expansion only the entries that it assigned to:
each of these is the text assigned last. -/
def Exchange.Framed {α : Type} (r : Resolver σ) (entry : σ → Text → Option α)
    (ofText : Text → α) (x : Exchange σ) : Prop :=
  match x.request with
  | .expand template => ∀ name, entry x.after name =
      ((lastText name (executed r template x.before)).map ofText).or (entry x.before name)
  | .resolve _ _ _ => ∀ name, entry x.after name = entry x.before name
  | _ => True

end Session

/-! ## Plain values -/

variable {σ : Type} {m : Members σ} {values : Bindings Value}

def Members.entry (m : Members σ) (name : Text) : Option (Member σ) := m.table.find? name

/-- All members are values, those that the bindings have. -/
def Members.Plain (m : Members σ) (values : Bindings Value) : Prop :=
  ∀ name, m.entry name = (values.find? name).map .value

namespace Members

theorem Plain.setValue (h : m.Plain values) (name : Text) (v : Value) :
    (m.setValue name v).Plain (values.insert name v) := by
  intro other
  have hother := h other
  simp only [entry, Members.setValue, Bindings.find?_insert] at hother ⊢
  split
  · rfl
  · exact hother

theorem members_agree (σ : Type) : (@Resolver.members σ).Agrees .bindings Plain where
  resolve := by
    intro m values h key params context
    have hkey : m.table.find? key = _ := h key
    cases hv : values.find? key with
    | none => simp [Resolver.members, Resolver.bindings, hkey, hv, h]
    | some v => simp [Resolver.members, Resolver.bindings, hkey, hv, h]
  assign := fun h name text => ⟨rfl, h.setValue name (.text text)⟩

/-- The frame of an expansion carries over from the bindings. -/
theorem Plain.entry_expand (h : m.Plain values) (template name : Text) :
    (expand .members template m).2.entry name =
      ((lastText name (executed .members template m)).map (.value ∘ .text)).or (m.entry name) := by
  rw [(expand_agrees (members_agree σ) h template).2 name, find?_expand,
    executed_agrees (members_agree σ) h, Option.map_or, Option.map_map, ← h name]

end Members

/-! ## Sessions -/

namespace Session

/-- The same request with the same answer, after which the entries are again the same, and those
that the request has no part in are the ones before it. -/
structure Exchange.Alike (x : Exchange (Members σ)) (y : Exchange (Bindings Value)) : Prop where
  request : x.request = y.request
  answer : x.answer = y.answer
  after : x.after.Plain y.after
  framed_members : x.Framed .members Members.entry (.value ∘ .text)
  framed_bindings : y.Framed .bindings Bindings.find? .text

theorem exchange_alike (h : m.Plain values) (request : Request) :
    (exchange .members Members.setValue m request).Alike
      (exchange .bindings Bindings.insert values request) := by
  cases request with
  | expand template =>
      obtain ⟨hlines, hafter⟩ := expand_agrees (Members.members_agree σ) h template
      exact ⟨rfl, congrArg Answer.lines hlines, hafter, fun name => h.entry_expand template name,
        fun name => find?_expand template name values⟩
  | resolve key params context =>
      obtain ⟨hvalue, hafter⟩ := (Members.members_agree σ).resolve h key params context
      have hstays := Resolver.bindings_stores.resolve key params context values
      refine ⟨rfl, congrArg Answer.value hvalue, hafter, fun name => ?_, fun name => ?_⟩
      · have hname := hafter name
        rw [hstays, ← h name] at hname
        exact hname
      · exact congrArg (·.find? name) hstays
  | assign name text => exact ⟨rfl, rfl, h.setValue name (.text text), trivial, trivial⟩
  | setValue name v => exact ⟨rfl, rfl, h.setValue name v, trivial, trivial⟩

/-- Members that are plain values cannot be told from bindings with the same entries: in any session
both give the same answers, and their entries stay the same. -/
theorem exchanges_alike (h : m.Plain values) (requests : List Request) :
    List.Forall₂ Exchange.Alike (exchanges .members Members.setValue m requests)
      (exchanges .bindings Bindings.insert values requests) := by
  induction requests generalizing m values with
  | nil => exact .nil
  | cons request requests ih =>
      have hfirst := exchange_alike h request
      exact .cons hfirst (ih hfirst.after)

/-- A template that fails behind an assignment leaves the new text to both. -/
theorem exchanges_alike_after_error :
    let m : Members Unit := ⟨⟨['\t'], 1⟩, ⟨[(['a'], .value (.text ['1']))]⟩, ()⟩
    let values : Bindings Value := ⟨[(['a'], .text ['1'])]⟩
    let requests : List Request :=
      [.expand "[[[SET a=2]]]\n[[[b]]]".toList, .resolve ['a'] [] ⟨[], 0⟩]
    m.Plain values ∧ (exchanges .members Members.setValue m requests).map (·.answer) =
      [.lines (.error (.atLine 2 (.unknownKey ['b']))), .value (.ok (some (.text ['2'])))] := by
  intro m values requests
  have hplain : m.Plain values := by
    intro name
    by_cases h : name = ['a']
    · simp [m, values, Members.entry, Bindings.find?, h]
    · simp [m, values, Members.entry, Bindings.find?, List.lookup_cons, beq_false_of_ne h]
  have halike := exchanges_alike hplain requests
  have hanswers : (exchanges .members Members.setValue m requests).map (·.answer) =
      (exchanges .bindings Bindings.insert values requests).map (·.answer) := by
    rw [← List.forall₂_eq_eq_eq, List.forall₂_map_left_iff, List.forall₂_map_right_iff]
    exact halike.imp fun _ _ hxy => hxy.answer
  have hexpand : expand .bindings "[[[SET a=2]]]\n[[[b]]]".toList values =
      (.error (.atLine 2 (.unknownKey ['b'])), ⟨[(['a'], .text ['2'])]⟩) := by
    have hline : Scan.line (.outside []) "[[[SET a=2]]]\n[[[b]]]".toList =
        ([.ok (.set "a=2".toList), .ok .newline], some "[[[b]]]".toList) := rfl
    rw [expand, Lines.tokenize_lines hline, Lines.tokenize_line rfl]
    rfl
  refine ⟨hplain, hanswers.trans ?_⟩
  simp only [exchanges, requests, exchange, serve, hexpand]
  rfl

end Session

end Stencil
