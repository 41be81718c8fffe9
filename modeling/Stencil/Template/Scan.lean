import Stencil.Template.Token

/-! Reading a template as a stream of tokens, one line at a time. A faulty directive is reported
where it stands, and nothing is read after it. -/

namespace Stencil

/-- What the stream yields: a token, or the fault that ends it. -/
abbrev Item := Except TemplateError Token

namespace Scan

/-- Where the reader stands in a line, with the characters read since, the last one first. -/
inductive Place where
  | outside (text : Text)
  | inside (content : Text)

/-- The text token for the characters read, unless there are none. -/
def flush : Text → List Item
  | [] => []
  | c :: rest => [.ok (.text (c :: rest).reverse)]

/-- The items up to the end of the line, and the text after it. There is no text after it when the
template ends or a directive is left open. -/
def line : Place → Text → List Item × Option Text
  | .outside text, [] => (flush text ++ [.ok .newline], none)
  | .inside _, [] => ([.error (.malformed .unclosed)], none)
  | .outside text, '\n' :: rest => (flush text ++ [.ok .newline], some rest)
  | .inside _, '\n' :: _ => ([.error (.malformed .unclosed)], none)
  | .outside text, '[' :: '[' :: '[' :: rest =>
    let (items, after) := line (.inside []) rest
    (flush text ++ items, after)
  | .inside content, ']' :: ']' :: ']' :: rest =>
    let (items, after) := line (.outside []) rest
    (Token.classify content.reverse :: items, after)
  | .outside text, c :: rest => line (.outside (c :: text)) rest
  | .inside content, c :: rest => line (.inside (c :: content)) rest

theorem line_rest_length : ∀ (place : Place) (text : Text) {items : List Item} {after : Text},
    line place text = (items, some after) → after.length < text.length := by
  intro place text
  fun_induction line place text with
  | case1 => simp
  | case2 => simp
  | case3 text rest =>
    intro items after h
    simp only [Prod.mk.injEq, Option.some.injEq] at h
    simp [← h.2]
  | case4 => simp
  | case5 text rest items' after' hl ih =>
    intro items after h
    simp only [Prod.mk.injEq] at h
    have := ih (h.2 ▸ hl)
    simp only [List.length_cons]
    omega
  | case6 content rest items' after' hl ih =>
    intro items after h
    simp only [Prod.mk.injEq] at h
    have := ih (h.2 ▸ hl)
    simp only [List.length_cons]
    omega
  | case7 text c rest _ _ ih =>
    intro items after h
    have := ih h
    simp only [List.length_cons]
    omega
  | case8 content c rest _ _ ih =>
    intro items after h
    have := ih h
    simp only [List.length_cons]
    omega

/-- The stream between two readings: items of the current line that wait, and the text still to be
read, which is absent once the end or a fault has been reached. -/
structure Stream where
  waiting : List Item
  rest : Option Text

namespace Stream

def ofText (template : Text) : Stream := ⟨[], some template⟩

/-- Reads the next line when no item waits. -/
def fill (s : Stream) : Stream :=
  match s.waiting, s.rest with
  | [], some text => let (items, after) := line (.outside []) text; ⟨items, after⟩
  | _, _ => s

/-- The next item; a fault empties the stream. -/
def next (s : Stream) : Option Item × Stream :=
  let s := s.fill
  match s.waiting with
  | [] => (none, s)
  | .ok token :: waiting => (some (.ok token), ⟨waiting, s.rest⟩)
  | .error e :: _ => (some (.error e), ⟨[], none⟩)

/-- The next `n` readings. -/
def take : Nat → Stream → List (Option Item)
  | 0, _ => []
  | n + 1, s => let (item, s) := s.next; item :: s.take n

/-- Readings decrease the text that is left, or the waiting items when no line is read. -/
theorem next_decreases {s t : Stream} {item : Item} (h : s.next = (some item, t)) :
    t.rest.elim 0 (·.length + 1) < s.rest.elim 0 (·.length + 1) ∨
      (t.rest = s.rest ∧ t.waiting.length < s.waiting.length) := by
  obtain ⟨waiting, rest⟩ := s
  cases waiting with
  | cons first waiting =>
    cases first with
    | ok token =>
      simp only [next, fill, Prod.mk.injEq, Option.some.injEq] at h
      right
      simp [← h.2]
    | error e =>
      simp only [next, fill, Prod.mk.injEq, Option.some.injEq] at h
      cases rest with
      | none => right; simp [← h.2]
      | some text => left; simp [← h.2]
  | nil =>
    cases rest with
    | none => simp [next, fill] at h
    | some text =>
      left
      simp only [next, fill] at h
      generalize hl : line (.outside []) text = read at h
      obtain ⟨items, after⟩ := read
      cases items with
      | nil => simp at h
      | cons first waiting =>
        cases first with
        | error e =>
          simp only [Prod.mk.injEq, Option.some.injEq] at h
          simp [← h.2]
        | ok token =>
          simp only [Prod.mk.injEq, Option.some.injEq] at h
          cases after with
          | none => simp [← h.2]
          | some after =>
            have := line_rest_length _ _ hl
            simp only [← h.2, Option.elim]
            omega

/-- All items of the stream. -/
def toList (s : Stream) : List Item :=
  match _h : s.next with
  | (none, _) => []
  | (some item, t) => item :: t.toList
termination_by (s.rest.elim 0 (·.length + 1), s.waiting.length)
decreasing_by
  rcases next_decreases ‹_› with h | ⟨h, h'⟩
  · exact Prod.Lex.left _ _ h
  · rw [h]; exact Prod.Lex.right _ h'

end Stream

end Scan

/-- The tokens of a template, and the fault that ends them if there is one. -/
def tokenize (template : Text) : List Item := (Scan.Stream.ofText template).toList

end Stencil
