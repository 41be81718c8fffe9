import Stencil.Template.Scan
import Stencil.Proofs.Scan.Directive

/-! Reading a template line by line. Each line is cut at the leftmost markers and nothing but the
first fault connects the lines; the stream yields these items and then nothing. -/

namespace Stencil.Lines

open Scan

/-! ## Items of a line -/

/-- Literal text, which leaves no token when it is empty. -/
def literal : Text → List Item
  | [] => []
  | c :: rest => [.ok (.text (c :: rest))]

/-- The items of one line. A directive runs from the leftmost opening marker to the leftmost
closing marker after it. -/
def ofLine (line : Text) : List Item :=
  match _ho : Text.breakOn Token.opening line with
  | none => literal line ++ [.ok .newline]
  | some (before, inner) =>
    match _hc : Text.breakOn Token.closing inner with
    | none => literal before ++ [.error (.malformed .unclosed)]
    | some (content, after) => literal before ++ Token.classify content :: ofLine after
termination_by line.length
decreasing_by
  have ho := (Text.breakOn_leftmost _ho).length_lt (by decide)
  have hc := (Text.breakOn_leftmost _hc).length_lt (by decide)
  omega

/-- The items of all lines, one line after the other. -/
def ofText (template : Text) : List Item := (template.splitOn '\n').flatMap ofLine

/-- Tokens as items without a fault. -/
abbrev ofTokens (tokens : List Token) : List Item := tokens.map .ok

/-- The items up to the first fault, that one included. -/
def untilFault : List Item → List Item
  | [] => []
  | .error e :: _ => [.error e]
  | .ok token :: items => .ok token :: untilFault items

/-- The items of a template, read line by line. -/
def items (template : Text) : List Item := untilFault (ofText template)

/-- The items of a line that is continued at a place. -/
def resume : Place → Text → List Item
  | .outside read, line =>
    match Text.breakOn Token.opening line with
    | none => literal (read.reverse ++ line) ++ [.ok .newline]
    | some (before, inner) => literal (read.reverse ++ before) ++ resume (.inside []) inner
  | .inside read, line =>
    match Text.breakOn Token.closing line with
    | none => [.error (.malformed .unclosed)]
    | some (content, after) => Token.classify (read.reverse ++ content) :: ofLine after
termination_by place => match place with | .outside _ => 1 | .inside _ => 0

theorem ofLine_eq_resume (line : Text) : ofLine line = resume (.outside []) line := by
  rw [resume]
  fun_cases ofLine line with
  | case1 ho => simp [ho]
  | case2 before inner ho hc => simp [ho, hc, resume]
  | case3 before inner ho content after hc => simp [ho, hc, resume]

theorem ofLine_of_unmarked {line : Text} (ho : Text.breakOn Token.opening line = none) :
    ofLine line = literal line ++ [.ok .newline] := by
  rw [ofLine_eq_resume, resume, ho]
  rfl

theorem ofLine_of_unclosed {line before inner : Text}
    (ho : Text.breakOn Token.opening line = some (before, inner))
    (hc : Text.breakOn Token.closing inner = none) :
    ofLine line = literal before ++ [.error (.malformed .unclosed)] := by
  rw [ofLine_eq_resume, resume, ho]
  simp [resume, hc]

theorem ofLine_of_directive {line before inner content after : Text}
    (ho : Text.breakOn Token.opening line = some (before, inner))
    (hc : Text.breakOn Token.closing inner = some (content, after)) :
    ofLine line = literal before ++ Token.classify content :: ofLine after := by
  rw [ofLine_eq_resume, resume, ho]
  simp [resume, hc]

/-- A directive behind a text in which no marker starts. -/
theorem breakOn_directive {before : Text} (hb : Text.Clear Token.opening before)
    (content after : Text) :
    Text.breakOn Token.opening (before ++ Token.directive content ++ after) =
      some (before, content ++ Token.closing ++ after) := by
  have hbreak := Text.breakOn_of_clear hb (content ++ Token.closing ++ after)
  simpa [Token.directive] using hbreak

theorem ofLine_directive {before content : Text} (hb : Text.Clear Token.opening before)
    (hc : Text.Clear Token.closing content) (after : Text) :
    ofLine (before ++ Token.directive content ++ after) =
      literal before ++ Token.classify content :: ofLine after :=
  ofLine_of_directive (breakOn_directive hb content after) (Text.breakOn_of_clear hc after)

theorem flush_eq_literal (read : Text) : flush read = literal read.reverse := by
  cases read with
  | nil => rfl
  | cons c rest =>
      rw [flush]
      cases h : (c :: rest).reverse with
      | nil => simp at h
      | cons d more => rfl

/-! ## Faults end the stream -/

@[simp] theorem untilFault_nil : untilFault [] = [] := rfl

@[simp] theorem untilFault_error (e : TemplateError) (items : List Item) :
    untilFault (.error e :: items) = [.error e] := rfl

@[simp] theorem untilFault_ok (token : Token) (items : List Item) :
    untilFault (.ok token :: items) = .ok token :: untilFault items := rfl

/-- What stands in front of two lists does not tell them apart. -/
theorem untilFault_append_congr (front : List Item) {xs ys : List Item}
    (h : untilFault xs = untilFault ys) : untilFault (front ++ xs) = untilFault (front ++ ys) := by
  induction front with
  | nil => exact h
  | cons item front ih =>
      cases item with
      | error e => rfl
      | ok token => simp [ih]

theorem error_not_mem_ofTokens {e : TemplateError} {tokens : List Token} :
    .error e ∉ ofTokens tokens := by
  simp

theorem ofTokens_injective {ts us : List Token} (h : ofTokens ts = ofTokens us) : ts = us :=
  List.map_inj_right (fun _ _ => Except.ok.inj) |>.mp h

theorem untilFault_ofTokens_append (tokens : List Token) (items : List Item) :
    untilFault (ofTokens tokens ++ items) = ofTokens tokens ++ untilFault items := by
  induction tokens with
  | nil => rfl
  | cons token tokens ih => simpa using ih

theorem untilFault_ofTokens (tokens : List Token) :
    untilFault (ofTokens tokens) = ofTokens tokens := by
  simpa using untilFault_ofTokens_append tokens []

/-- Items are tokens throughout or up to a first fault. -/
theorem exists_tokens (items : List Item) :
    (∃ tokens, items = ofTokens tokens) ∨
      ∃ tokens e unread, items = ofTokens tokens ++ .error e :: unread := by
  induction items with
  | nil => exact .inl ⟨[], rfl⟩
  | cons item items ih =>
      cases item with
      | error e => exact .inr ⟨[], e, items, rfl⟩
      | ok token =>
          rcases ih with ⟨tokens, rfl⟩ | ⟨tokens, e, unread, rfl⟩
          · exact .inl ⟨token :: tokens, rfl⟩
          · exact .inr ⟨token :: tokens, e, unread, rfl⟩

theorem untilFault_idem (items : List Item) : untilFault (untilFault items) = untilFault items := by
  rcases exists_tokens items with ⟨tokens, rfl⟩ | ⟨tokens, e, unread, rfl⟩
  · rw [untilFault_ofTokens, untilFault_ofTokens]
  · rw [untilFault_ofTokens_append, untilFault_error, untilFault_ofTokens_append, untilFault_error]

/-! ## The scanner reads line by line -/

theorem head_starts {x : Char} {t l : Text} {ls : List Text} (h : t.splitOn x = l :: ls) :
    l <+: t := by
  have ht : [x].intercalate (t.splitOn x) = t := List.intercalate_splitOn x
  rw [h] at ht
  cases ls with
  | nil => exact ⟨[], by simpa using ht⟩
  | cons m ls => exact ⟨[x] ++ [x].intercalate (m :: ls), by simpa using ht⟩

/-- The first line of a text that starts with a character other than the line break. -/
theorem splitOn_cons_of_ne {x c : Char} {t l : Text} {ls : List Text} (hc : c ≠ x)
    (h : (c :: t).splitOn x = l :: ls) : ∃ l', l = c :: l' ∧ t.splitOn x = l' :: ls := by
  rw [List.splitOn_cons_eq_if_modifyHead, if_neg (by simpa using hc)] at h
  obtain ⟨l', ls', hs⟩ := List.exists_cons_of_ne_nil (List.splitOn_ne_nil x t)
  rw [hs, List.modifyHead_cons, List.cons.injEq] at h
  exact ⟨l', h.1.symm, by rw [hs, h.2]⟩

/-- A marker stands at the front of a text when it stands at the front of its first line. -/
theorem marked_of_marked_head {mark t l : Text} {ls : List Text} (h : t.splitOn '\n' = l :: ls)
    (hm : mark <+: l) : mark <+: t :=
  hm.trans (head_starts h)

theorem resume_outside_cons {read l : Text} {c : Char} (h : ¬ Token.opening <+: c :: l) :
    resume (.outside read) (c :: l) = resume (.outside (c :: read)) l := by
  rw [resume, resume, Text.breakOn_cons_of_not_marked h]
  cases Text.breakOn Token.opening l with
  | none => simp
  | some found => simp

theorem resume_inside_cons {read l : Text} {c : Char} (h : ¬ Token.closing <+: c :: l) :
    resume (.inside read) (c :: l) = resume (.inside (c :: read)) l := by
  rw [resume, resume, Text.breakOn_cons_of_not_marked h]
  cases Text.breakOn Token.closing l with
  | none => simp
  | some found => simp

theorem resume_outside_opening (read l : Text) :
    resume (.outside read) ('[' :: '[' :: '[' :: l) =
      literal read.reverse ++ resume (.inside []) l := by
  have ho : Text.breakOn Token.opening ('[' :: '[' :: '[' :: l) = some ([], l) :=
    @Text.breakOn_mark_append Token.opening l
  rw [resume, ho]
  simp

theorem resume_inside_closing (read l : Text) :
    resume (.inside read) (']' :: ']' :: ']' :: l) =
      Token.classify read.reverse :: resume (.outside []) l := by
  have hc : Text.breakOn Token.closing (']' :: ']' :: ']' :: l) = some ([], l) :=
    @Text.breakOn_mark_append Token.closing l
  rw [← ofLine_eq_resume, resume, hc]
  simp

theorem resume_outside_nil (read : Text) :
    resume (.outside read) [] = literal read.reverse ++ [.ok .newline] := by
  rw [resume]
  simp [Text.breakOn, Token.opening]

theorem resume_inside_nil (read : Text) :
    resume (.inside read) [] = [.error (.malformed .unclosed)] := by
  rw [resume]
  simp [Text.breakOn, Token.closing]

/-- Up to the first fault the scanner yields the items of the line it stands in, continued at its
place, and leaves the other lines. -/
theorem scan_line (place : Place) (text l : Text) (ls : List Text)
    (h : text.splitOn '\n' = l :: ls) :
    untilFault ((Scan.line place text).1 ++ (Scan.line place text).2.elim [] ofText) =
      untilFault (resume place l ++ ls.flatMap ofLine) := by
  fun_induction Scan.line place text generalizing l with
  | case1 read =>
      simp only [List.splitOn_nil, List.cons.injEq] at h
      obtain ⟨rfl, rfl⟩ := h
      simp [resume_outside_nil, flush_eq_literal]
  | case2 read =>
      simp only [List.splitOn_nil, List.cons.injEq] at h
      obtain ⟨rfl, rfl⟩ := h
      simp [resume_inside_nil]
  | case3 read rest =>
      simp only [List.splitOn_cons_eq_if_modifyHead, beq_self_eq_true, ite_true,
        List.cons.injEq] at h
      obtain ⟨rfl, rfl⟩ := h
      simp [resume_outside_nil, flush_eq_literal, ofText]
  | case4 read rest =>
      simp only [List.splitOn_cons_eq_if_modifyHead, beq_self_eq_true, ite_true,
        List.cons.injEq] at h
      obtain ⟨rfl, rfl⟩ := h
      simp [resume_inside_nil]
  | case5 read rest items after hl ih =>
      obtain ⟨l₁, rfl, h₁⟩ := splitOn_cons_of_ne (by decide) h
      obtain ⟨l₂, rfl, h₂⟩ := splitOn_cons_of_ne (by decide) h₁
      obtain ⟨l₃, rfl, h₃⟩ := splitOn_cons_of_ne (by decide) h₂
      rw [resume_outside_opening, ← flush_eq_literal, List.append_assoc, List.append_assoc]
      apply untilFault_append_congr
      simpa only [hl] using ih l₃ h₃
  | case6 read rest items after hl ih =>
      obtain ⟨l₁, rfl, h₁⟩ := splitOn_cons_of_ne (by decide) h
      obtain ⟨l₂, rfl, h₂⟩ := splitOn_cons_of_ne (by decide) h₁
      obtain ⟨l₃, rfl, h₃⟩ := splitOn_cons_of_ne (by decide) h₂
      simp only [hl] at ih
      rw [resume_inside_closing]
      exact untilFault_append_congr [Token.classify read.reverse] (ih l₃ h₃)
  | case7 read c rest hn hb ih =>
      have hc : c ≠ '\n' := fun hc => hn hc
      obtain ⟨l', rfl, h'⟩ := splitOn_cons_of_ne hc h
      have hp : ¬ Token.opening <+: c :: l' := by
        intro hp
        obtain ⟨more, hm⟩ := marked_of_marked_head h hp
        obtain ⟨rfl, rfl⟩ := List.cons.inj hm
        exact hb more rfl rfl
      rw [resume_outside_cons hp]
      exact ih l' h'
  | case8 read c rest hn hb ih =>
      have hc : c ≠ '\n' := fun hc => hn hc
      obtain ⟨l', rfl, h'⟩ := splitOn_cons_of_ne hc h
      have hp : ¬ Token.closing <+: c :: l' := by
        intro hp
        obtain ⟨more, hm⟩ := marked_of_marked_head h hp
        obtain ⟨rfl, rfl⟩ := List.cons.inj hm
        exact hb more rfl rfl
      rw [resume_inside_cons hp]
      exact ih l' h'

/-! ## The stream -/

/-- What a stream still has to yield. -/
def remaining (s : Stream) : List Item := untilFault (s.waiting ++ s.rest.elim [] ofText)

theorem remaining_fill (s : Stream) : remaining s.fill = remaining s := by
  obtain ⟨waiting, rest⟩ := s
  cases waiting with
  | cons item waiting => rfl
  | nil =>
      cases rest with
      | none => rfl
      | some text =>
          obtain ⟨l, ls, hs⟩ := List.exists_cons_of_ne_nil (List.splitOn_ne_nil '\n' text)
          have h := scan_line (.outside []) text l ls hs
          rw [← ofLine_eq_resume] at h
          simpa [remaining, Stream.fill, ofText, hs] using h

theorem line_ne_nil (place : Place) (text : Text) : (Scan.line place text).1 ≠ [] := by
  fun_induction Scan.line place text with
  | case1 => simp
  | case2 => simp
  | case3 => simp
  | case4 => simp
  | case5 read rest items after hl ih => simp_all
  | case6 => simp
  | case7 read c rest _ _ ih => exact ih
  | case8 read c rest _ _ ih => exact ih

/-- A stream without waiting items has reached the end. -/
theorem rest_fill {s : Stream} (h : s.fill.waiting = []) : s.fill.rest = none := by
  obtain ⟨waiting, rest⟩ := s
  cases waiting with
  | cons item waiting => simp [Stream.fill] at h
  | nil =>
      cases rest with
      | none => rfl
      | some text => exact (line_ne_nil _ _ h).elim

/-- Each reading takes the first of the remaining items. -/
theorem next_eq (s : Stream) :
    s.next.1 = (remaining s).head? ∧ remaining s.next.2 = (remaining s).tail := by
  have hrest := rest_fill (s := s)
  rw [← remaining_fill s, Stream.next]
  generalize s.fill = t at *
  obtain ⟨waiting, rest⟩ := t
  cases waiting with
  | nil =>
      obtain rfl : rest = none := hrest rfl
      exact ⟨rfl, rfl⟩
  | cons item waiting =>
      cases item with
      | ok token => exact ⟨rfl, rfl⟩
      | error e => exact ⟨rfl, rfl⟩

/-- Reading again and again yields the remaining items in order, and nothing for ever after. -/
theorem take_eq (n : Nat) (s : Stream) :
    s.take n = (List.range n).map fun i => (remaining s)[i]? := by
  induction n generalizing s with
  | zero => rfl
  | succ n ih =>
      obtain ⟨hhead, htail⟩ := next_eq s
      rw [Stream.take, List.range_succ_eq_map]
      simp only [ih, hhead, htail, List.map_cons, List.map_map, List.head?_eq_getElem?]
      congr 1
      apply List.map_congr_left
      intro i _
      simp

theorem toList_eq (s : Stream) : s.toList = remaining s := by
  fun_induction Stream.toList s with
  | case1 s t h =>
      obtain ⟨hhead, -⟩ := next_eq s
      rw [h] at hhead
      exact (List.head?_eq_none_iff.mp hhead.symm).symm
  | case2 s item t h ih =>
      obtain ⟨hhead, htail⟩ := next_eq s
      rw [h] at hhead htail
      rw [ih, htail]
      obtain ⟨items, hitems⟩ := List.head?_eq_some_iff.mp hhead.symm
      rw [hitems, List.tail_cons]

theorem remaining_ofText (template : Text) : remaining (.ofText template) = items template := rfl

/-- Scanning a template is reading it line by line. -/
theorem tokenize_eq (template : Text) : tokenize template = items template :=
  (toList_eq _).trans (remaining_ofText template)

/-- A template of one line. -/
theorem tokenize_line {line : Text} {its : List Item}
    (h : Scan.line (.outside []) line = (its, none)) : tokenize line = untilFault its := by
  rw [tokenize_eq, ← remaining_ofText, ← remaining_fill]
  simp [remaining, Stream.fill, Stream.ofText, h]

/-- A template of several lines. -/
theorem tokenize_lines {text rest : Text} {its : List Item}
    (h : Scan.line (.outside []) text = (its, some rest)) :
    tokenize text = untilFault (its ++ tokenize rest) := by
  rw [tokenize_eq, tokenize_eq, ← remaining_ofText, ← remaining_fill]
  have hrest : untilFault (items rest) = untilFault (ofText rest) := untilFault_idem _
  simp [remaining, Stream.fill, Stream.ofText, h, untilFault_append_congr its hrest]

end Stencil.Lines
