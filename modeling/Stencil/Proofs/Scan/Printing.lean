import Mathlib.Data.List.Basic
import Stencil.Proofs.Scan.Items

/-! Printing the tokens of a template and reading them again. What is printed of a directive is told
as the directive was. Its closing marker is found where it was printed, unless a field that was
trimmed ends with a bracket that now touches it. -/

namespace Stencil

/-! ## Printed directives -/

namespace Token

/-- What is printed between the markers of a directive. Text and line breaks have no markers. -/
def content : Token → Text
  | ifThen key comment => fields "IF" key comment
  | elseIf key comment => fields "ELIF" key comment
  | otherwise => "ELSE"
  | endIf => "ENDIF"
  | set assignment => "SET ".toList ++ assignment
  | expand content => content
  | pushAlign => ['>']
  | align => ['|']
  | popAlign => ['<']
  | _ => []

/-- The field of a condition that is printed last: its comment, or else its key. -/
def lastField? : Token → Option Text
  | ifThen key comment => some (comment.getD key)
  | elseIf key comment => some (comment.getD key)
  | _ => none

/-- The last field of a condition ends with a bracket, which the closing marker will touch. -/
def Clashes (token : Token) : Prop := ∃ field ∈ token.lastField?, field.getLast? = some ']'

/-- The last field is printed behind a space. -/
theorem content_eq {token : Token} {field : Text} (h : token.lastField? = some field) :
    ∃ front, token.content = front ++ ' ' :: field := by
  cases token with
  | ifThen key comment =>
      obtain rfl := Option.some.inj h
      cases comment with
      | none => exact ⟨_, rfl⟩
      | some comment => exact ⟨_, rfl⟩
  | elseIf key comment =>
      obtain rfl := Option.some.inj h
      cases comment with
      | none => exact ⟨_, rfl⟩
      | some comment => exact ⟨_, rfl⟩
  | _ => simp [lastField?] at h

theorem Clashes.getLast?_content {token : Token} (h : token.Clashes) :
    token.content.getLast? = some ']' := by
  obtain ⟨field, hfield, hlast⟩ := h
  obtain ⟨front, hcontent⟩ := content_eq hfield
  obtain ⟨rest, rfl⟩ := List.getLast?_eq_some_iff.mp hlast
  rw [hcontent, ← List.cons_append, ← List.append_assoc, List.getLast?_concat]

end Token

namespace Directive

open Text

/-- A condition behind its keyword, as it is printed. -/
def written (key : Text) : Option Text → Text
  | none => key
  | some comment => key ++ ' ' :: comment

theorem fields_eq (keyword key : Text) (comment : Option Text) :
    Token.fields keyword key comment = keyword ++ ' ' :: written key comment := by
  cases comment with
  | none => rfl
  | some comment => simp [Token.fields, written]

theorem content_ifThen (key : Text) (comment : Option Text) :
    (Token.ifThen key comment).content = "IF".toList ++ ' ' :: written key comment :=
  fields_eq "IF" key comment

theorem content_elseIf (key : Text) (comment : Option Text) :
    (Token.elseIf key comment).content = "ELIF".toList ++ ' ' :: written key comment :=
  fields_eq "ELIF" key comment

theorem content_set (assignment : Text) :
    (Token.set assignment).content = "SET".toList ++ ' ' :: assignment := rfl

variable {rest key content : Text} {comment : Option Text} {token : Token}

/-- A condition that is printed has the same key and the same comment. -/
theorem Condition.written (h : Condition rest key comment) :
    Condition (written key comment) key comment := by
  cases h with
  | bare hgap hkey htrail =>
      have hbare := Condition.bare allBlank_nil hkey allBlank_nil
      simpa [Directive.written] using hbare
  | @commented _ _ _ comment _ hgap hkey hspace hne hc hstart hend htrail =>
      have hcommented : Condition ([] ++ key ++ ([' '] ++ comment ++ [])) key (some comment) :=
        .commented allBlank_nil hkey rfl (by simp) hc hstart hend allBlank_nil
      simpa [Directive.written] using hcommented

theorem Condition.length_written_le (h : Condition rest key comment) :
    (Directive.written key comment).length ≤ rest.length := by
  cases h with
  | bare hgap hkey htrail =>
      simp only [Directive.written, List.length_append]
      omega
  | commented hgap hkey hspace hne hc hstart hend htrail =>
      have hpos := List.length_pos_iff.mpr hne
      simp only [Directive.written, List.length_append, List.length_cons]
      omega

theorem Condition.not_infix_written {mark : Text} (h : Condition rest key comment)
    (hs : ' ' ∉ mark) (hm : ¬ mark <:+: rest) : ¬ mark <:+: Directive.written key comment := by
  cases h with
  | @bare gap key trail hgap hkey htrail =>
      exact fun hin => hm (hin.trans ⟨gap, trail, rfl⟩)
  | @commented gap key space comment trail hgap hkey hspace hne hc hstart hend htrail =>
      refine not_infix_separated hs (fun hin => hm (hin.trans ?_)) fun hin => hm (hin.trans ?_)
      · exact ⟨gap, space ++ comment ++ trail, rfl⟩
      · exact ⟨gap ++ key ++ space, trail, by simp⟩

theorem Classifies.display_eq (h : Classifies content (.ok token)) :
    token.display = Token.directive token.content := by
  cases h with
  | _ => rfl

/-- What is printed is told as what was read. -/
theorem Classifies.printed (h : Classifies content (.ok token)) :
    Classifies token.content (.ok token) := by
  cases h with
  | ifThen h =>
      rw [content_ifThen]
      exact .ifThen h.written
  | elseIf h =>
      rw [content_elseIf]
      exact .elseIf h.written
  | align => exact .align
  | pushAlign => exact .pushAlign
  | popAlign => exact .popAlign
  | otherwise rest => exact .otherwise []
  | endIf rest => exact .endIf []
  | set hgap h => exact .set allBlank_nil h
  | expand hk hm => exact .expand hk hm

/-- Printing drops blanks and what follows a keyword, and adds nothing. -/
theorem Classifies.length_content_le (h : Classifies content (.ok token)) :
    token.content.length ≤ content.length := by
  cases h with
  | ifThen h =>
      have hle := h.length_written_le
      simp [content_ifThen]
      omega
  | elseIf h =>
      have hle := h.length_written_le
      simp [content_elseIf]
      omega
  | set hgap h => simp [content_set]
  | otherwise rest => exact (List.prefix_append _ rest).length_le
  | endIf rest => exact (List.prefix_append _ rest).length_le
  | _ => exact Nat.le_refl _

/-- Nothing is printed that was not read, but for single spaces between the fields. -/
theorem Classifies.not_infix_content {mark : Text} (h : Classifies content (.ok token))
    (hs : ' ' ∉ mark) (hn : ¬ mark <:+: content) : ¬ mark <:+: token.content := by
  have hpart {front part back : Text} (hc : front ++ part ++ back = content) :
      ¬ mark <:+: part := fun hin => hn (hin.trans ⟨front, back, hc⟩)
  cases h with
  | @ifThen rest _ _ h =>
      have hrest : ¬ mark <:+: rest := hpart (List.append_nil _)
      rw [content_ifThen]
      exact not_infix_separated hs (@hpart [] _ (' ' :: rest) rfl) (h.not_infix_written hs hrest)
  | @elseIf rest _ _ h =>
      have hrest : ¬ mark <:+: rest := hpart (List.append_nil _)
      rw [content_elseIf]
      exact not_infix_separated hs (@hpart [] _ (' ' :: rest) rfl) (h.not_infix_written hs hrest)
  | @set gap assignment hgap h =>
      have hassignment : ¬ mark <:+: assignment :=
        @hpart ("SET ".toList ++ gap) _ [] (by simp)
      rw [content_set]
      exact not_infix_separated hs (@hpart [] _ (' ' :: (gap ++ assignment)) rfl) hassignment
  | otherwise rest => exact @hpart [] _ rest rfl
  | endIf rest => exact @hpart [] _ rest rfl
  | _ => exact hn

theorem Classifies.getLast?_content_ne (h : Classifies content (.ok token))
    (hl : content.getLast? ≠ some ']') (hc : ¬ token.Clashes) :
    token.content.getLast? ≠ some ']' := by
  cases hfield : token.lastField? with
  | some field =>
      obtain ⟨front, hcontent⟩ := Token.content_eq hfield
      intro hlast
      rw [hcontent, List.getLast?_append_of_ne_nil _ (by simp)] at hlast
      refine hc ⟨field, hfield, ?_⟩
      cases field with
      | nil => simp at hlast
      | cons c field => rwa [List.getLast?_cons_of_ne_nil (by simp)] at hlast
  | none =>
      cases h with
      | @set gap assignment hgap h =>
          cases assignment with
          | nil => decide
          | cons c assignment =>
              rw [← List.append_assoc, List.getLast?_append_of_ne_nil _ (by simp)] at hl
              rw [content_set, List.getLast?_append_of_ne_nil _ (by simp)]
              rwa [List.getLast?_cons_of_ne_nil (by simp)]
      | expand hk hm => exact hl
      | ifThen h => simp [Token.lastField?] at hfield
      | elseIf h => simp [Token.lastField?] at hfield
      | align => decide
      | pushAlign => decide
      | popAlign => decide
      | otherwise rest => decide
      | endIf rest => decide

/-- The closing marker is found where it is printed. -/
theorem Classifies.clear_content {inner after : Text}
    (h : Classifies content (.ok token)) (hl : Leftmost Token.closing inner content after)
    (hc : ¬ token.Clashes) : Clear Token.closing token.content :=
  clear_of_getLast? (h.not_infix_content (by decide) (hl.not_infix_before (by decide)))
    (h.getLast?_content_ne hl.getLast?_ne hc)

/-- A bracket at the end of what is printed closes the directive too early: what is read is shorter
than what was printed, and something else. -/
theorem misread_of_clashes {rest inner after : Text} (hc : token.Clashes)
    (hb : breakOn Token.closing (token.content ++ Token.closing ++ rest) = some (inner, after)) :
    Token.classify inner ≠ .ok token := by
  obtain ⟨front, hfront⟩ := List.getLast?_eq_some_iff.mp hc.getLast?_content
  have hle := (breakOn_leftmost hb).first front (']' :: rest) (by simp [hfront, Token.closing])
  have hlength := congrArg List.length hfront
  intro hinner
  have hshort := (classifies_iff.mpr hinner).length_content_le
  simp only [List.length_append, List.length_singleton] at hlength
  omega

/-- The last field of a condition ends where the condition does, but for blanks. -/
theorem Condition.trimmed (h : Condition rest key comment) :
    ∃ kept trail, rest = kept ++ trail ∧ trail.allBlank = true ∧
      kept.getLast? = (comment.getD key).getLast? := by
  cases h with
  | @bare gap key trail hgap hkey htrail =>
      exact ⟨gap ++ key, trail, rfl, htrail, List.getLast?_append_of_ne_nil _ hkey.1⟩
  | @commented gap key space comment trail hgap hkey hspace hne hc hstart hend htrail =>
      refine ⟨gap ++ key ++ space ++ comment, trail, by simp, htrail, ?_⟩
      exact List.getLast?_append_of_ne_nil _ hc

/-- A bracket that ends the last field of a condition was kept apart from the closing marker by
white space. -/
theorem Classifies.trimmed (h : Classifies content (.ok token))
    (hl : content.getLast? ≠ some ']') (hc : token.Clashes) :
    ∃ kept trail, content = kept ++ trail ∧ kept.getLast? = some ']' ∧ trail ≠ [] ∧
      trail.allBlank = true := by
  have hcondition : ∃ keyword rest key comment, content = keyword ++ rest ∧
      Condition rest key comment ∧ token.lastField? = some (comment.getD key) := by
    obtain ⟨field, hfield, -⟩ := hc
    cases h with
    | ifThen h => exact ⟨_, _, _, _, rfl, h, rfl⟩
    | elseIf h => exact ⟨_, _, _, _, rfl, h, rfl⟩
    | _ => simp [Token.lastField?] at hfield
  obtain ⟨keyword, rest, key, comment, rfl, hrest, hlast⟩ := hcondition
  obtain ⟨kept, trail, rfl, htrail, hkept⟩ := hrest.trimmed
  obtain ⟨field, hfield, hbracket⟩ := hc
  obtain rfl := Option.some.inj (hlast.symm.trans hfield)
  have hend : (keyword ++ kept).getLast? = some ']' := by
    rw [List.getLast?_append, hkept, hbracket]
    rfl
  refine ⟨keyword ++ kept, trail, by simp, hend, ?_, htrail⟩
  rintro rfl
  exact hl (by simpa using hend)

end Directive

/-! ## Printed lines -/

namespace Lines

open Directive

/-- The tokens of a template in print, without the line break that ends its last line. -/
def print (tokens : List Token) : Text := (tokens.flatMap Token.display).dropLast

theorem exists_display_literal (t : Text) :
    ∃ tokens, literal t = ofTokens tokens ∧ tokens.flatMap Token.display = t ∧
      ∀ token ∈ tokens, ¬ token.Clashes := by
  cases t with
  | nil => exact ⟨[], rfl, rfl, by simp⟩
  | cons c rest =>
      exact ⟨[.text (c :: rest)], rfl, by simp [Token.display],
        by simp [Token.Clashes, Token.lastField?]⟩

/-- The tokens of a line in print. They are read again unless one of them clashes, whatever is read
after them. -/
structure Reprints (tokens : List Token) (printed : Text) : Prop where
  display : tokens.flatMap Token.display = printed ++ ['\n']
  single : '\n' ∉ printed
  reads : ∀ xs ys : List Item, ofLine printed ++ xs = ofTokens tokens ++ ys ↔
    (∀ token ∈ tokens, ¬ token.Clashes) ∧ xs = ys

/-- A directive is printed between the text in front of it and the rest of its line. -/
theorem Reprints.directive {before content inner after printed : Text} {first more : List Token}
    {token : Token} (h : Reprints more printed) (hb : '\n' ∉ before)
    (hclear : Text.Clear Token.opening before) (hfirst : literal before = ofTokens first)
    (hdisplay : first.flatMap Token.display = before) (hcalm : ∀ token ∈ first, ¬ token.Clashes)
    (hn : '\n' ∉ content) (hl : Text.Leftmost Token.closing inner content after)
    (ht : Classifies content (.ok token)) :
    Reprints (first ++ token :: more) (before ++ Token.directive token.content ++ printed) where
  display := by simp [hdisplay, h.display, ht.display_eq]
  single := by
    have hbreak : ¬ ['\n'] <:+: token.content :=
      ht.not_infix_content (by decide) fun hin => hn (hin.mem (by simp))
    have hcontent : '\n' ∉ token.content := by
      intro hmem
      obtain ⟨front, back, hfront⟩ := List.mem_iff_append.mp hmem
      exact hbreak ⟨front, back, by simp [hfront]⟩
    simp [Token.directive, Token.opening, Token.closing, hb, hcontent, h.single]
  reads := by
    intro xs ys
    by_cases hc : token.Clashes
    · refine iff_of_false ?_ fun hall => hall.1 token (by simp) hc
      cases hclose : Text.breakOn Token.closing (token.content ++ Token.closing ++ printed) with
      | none => exact (Text.breakOn_eq_none_iff.mp hclose ⟨token.content, printed, rfl⟩).elim
      | some found =>
          intro heq
          have hopen := breakOn_directive hclear token.content printed
          rw [ofLine_of_directive hopen hclose, hfirst] at heq
          simp [misread_of_clashes hc hclose] at heq
    · rw [ofLine_directive hclear (ht.clear_content hl hc), hfirst, ht.printed.execution]
      calc
        _ ↔ ofLine printed ++ xs = ofTokens more ++ ys := by simp
        _ ↔ (∀ token ∈ more, ¬ token.Clashes) ∧ xs = ys := h.reads xs ys
        _ ↔ (∀ other ∈ first ++ token :: more, ¬ other.Clashes) ∧ xs = ys := by
          simp only [List.forall_mem_append, List.forall_mem_cons]
          exact and_congr_left fun _ => ⟨fun h => ⟨hcalm, hc, h⟩, fun h => h.2.2⟩

theorem exists_reprints {line : Text} {tokens : List Token} (hn : '\n' ∉ line)
    (h : ofLine line = ofTokens tokens) : ∃ printed, Reprints tokens printed := by
  fun_induction ofLine line generalizing tokens with
  | case1 line ho =>
      obtain ⟨first, hfirst, hdisplay, hcalm⟩ := exists_display_literal line
      obtain rfl : tokens = first ++ [.newline] := by
        apply ofTokens_injective
        rw [← h, hfirst]
        simp
      refine ⟨line, by simp [hdisplay, Token.display], hn, fun xs ys => ?_⟩
      have hnewline : ¬ Token.newline.Clashes := by simp [Token.Clashes, Token.lastField?]
      rw [ofLine_of_unmarked ho, h, List.append_cancel_left_eq]
      simp only [List.forall_mem_append, List.forall_mem_singleton]
      exact ⟨fun h => ⟨⟨hcalm, hnewline⟩, h⟩, fun h => h.2⟩
  | case2 line before inner ho hc =>
      have hmem : .error (.malformed .unclosed) ∈ ofTokens tokens := by simp [← h]
      exact (error_not_mem_ofTokens hmem).elim
  | case3 line before inner ho content after hc ih =>
      obtain ⟨first, hfirst, hdisplay, hcalm⟩ := exists_display_literal before
      obtain ⟨front, rest, rfl, hfront, hrest⟩ := List.map_eq_append_iff.mp h.symm
      obtain ⟨token, more, rfl, htoken, hmore⟩ := List.map_eq_cons_iff.mp hrest
      obtain rfl : first = front := ofTokens_injective (hfirst.symm.trans hfront.symm)
      have hl := Text.breakOn_leftmost hc
      rw [(Text.breakOn_leftmost ho).eq, hl.eq] at hn
      simp only [List.mem_append, not_or] at hn
      obtain ⟨printed, hprinted⟩ := ih hn.2.2 hmore.symm
      exact ⟨_, hprinted.directive hn.1.1 (Text.breakOn_leftmost ho).clear hfirst hdisplay hcalm
        hn.2.1.1 hl (classifies_iff.mpr htoken.symm)⟩

/-! ## Printed templates -/

/-- Printed lines are read again, one after the other, if no token of theirs clashes. -/
theorem exists_printed_lines {lines : List Text} {tokens : List Token}
    (hn : ∀ line ∈ lines, '\n' ∉ line) (h : lines.flatMap ofLine = ofTokens tokens) :
    ∃ printed : List Text, printed.length = lines.length ∧ (∀ line ∈ printed, '\n' ∉ line) ∧
      tokens.flatMap Token.display = printed.flatMap (· ++ ['\n']) ∧
      (printed.flatMap ofLine = ofTokens tokens ↔ ∀ token ∈ tokens, ¬ token.Clashes) := by
  induction lines generalizing tokens with
  | nil =>
      obtain rfl : tokens = [] := by simpa using h.symm
      exact ⟨[], by simp⟩
  | cons line lines ih =>
      obtain ⟨front, more, rfl, hfront, hmore⟩ := List.map_eq_append_iff.mp h.symm
      obtain ⟨first, hfirst⟩ := exists_reprints (hn line (by simp)) hfront.symm
      obtain ⟨printed, hlength, hsingle, hdisplay, hreads⟩ :=
        ih (fun other hmem => hn other (List.mem_cons_of_mem _ hmem)) hmore.symm
      refine ⟨first :: printed, by simp [hlength], ?_, by simp [hfirst.display, hdisplay], ?_⟩
      · exact List.forall_mem_cons.mpr ⟨hfirst.single, hsingle⟩
      · rw [List.flatMap_cons, ofTokens, List.map_append, hfirst.reads, hreads,
          List.forall_mem_append]

theorem flatMap_break {lines : List Text} (h : lines ≠ []) :
    lines.flatMap (· ++ ['\n']) = ['\n'].intercalate lines ++ ['\n'] := by
  induction lines with
  | nil => exact (h rfl).elim
  | cons line lines ih =>
      cases lines with
      | nil => simp
      | cons next lines =>
          rw [List.flatMap_cons, ih (by simp), List.intercalate_cons_cons]
          simp

/-- Where a condition is read, its last field ends, but for white space, at the closing marker. -/
theorem directive_of_mem_ofLine {line field : Text} {token : Token}
    (h : .ok token ∈ ofLine line) (hfield : token.lastField? = some field) :
    ∃ content inner after, Text.Leftmost Token.closing inner content after ∧
      Token.directive content <:+: line ∧ Classifies content (.ok token) := by
  have hliteral {t : Text} (hmem : .ok token ∈ literal t) : False := by
    obtain rfl : token = .text t := Except.ok.inj (mem_literal hmem).1
    simp [Token.lastField?] at hfield
  fun_induction ofLine line with
  | case1 line ho =>
      rcases List.mem_append.mp h with h | h
      · exact (hliteral h).elim
      · obtain rfl : token = .newline := by simpa using h
        simp [Token.lastField?] at hfield
  | case2 line before inner ho hc =>
      rcases List.mem_append.mp h with h | h
      · exact (hliteral h).elim
      · simp at h
  | case3 line before inner ho content after hc ih =>
      rcases List.mem_append.mp h with h | h
      · exact (hliteral h).elim
      rcases List.mem_cons.mp h with h | h
      · have hl := Text.breakOn_leftmost hc
        refine ⟨content, inner, after, hl, ⟨before, after, ?_⟩, classifies_iff.mpr h.symm⟩
        rw [(Text.breakOn_leftmost ho).eq, hl.eq]
        simp [Token.directive]
      · obtain ⟨content', inner', after', hl, hin, ht⟩ := ih h
        exact ⟨content', inner', after', hl, hin.trans (infix_after ho hc), ht⟩

/-- The tokens of a template are read again from their print if and only if no condition among them
has a last field that ends with a bracket. Where one has, white space stands between the bracket and
the closing marker in the template, and is trimmed. -/
theorem tokenize_print (template : Text) {tokens : List Token}
    (h : tokenize template = ofTokens tokens) :
    tokens.flatMap Token.display = print tokens ++ ['\n'] ∧
      (tokenize (print tokens) = ofTokens tokens ↔ ∀ token ∈ tokens, ¬ token.Clashes) ∧
      ∀ token ∈ tokens, token.Clashes → ∃ kept trail, kept.getLast? = some ']' ∧ trail ≠ [] ∧
        Text.allBlank trail = true ∧ Token.directive (kept ++ trail) <:+: template ∧
        Token.classify (kept ++ trail) = .ok token := by
  rw [tokenize_eq] at h
  have hitems : ofText template = ofTokens tokens := untilFault_eq_ofTokens h
  obtain ⟨printed, hlength, hsingle, hdisplay, hreads⟩ :=
    exists_printed_lines (fun _ hline => Text.not_mem_of_mem_splitOn hline) hitems
  have hne : printed ≠ [] := by
    rw [← List.length_pos_iff, hlength, List.length_pos_iff]
    exact List.splitOn_ne_nil _ _
  have hprint : print tokens = ['\n'].intercalate printed := by
    rw [print, hdisplay, flatMap_break hne, List.dropLast_concat]
  refine ⟨by rw [hprint, hdisplay, flatMap_break hne], ?_, ?_⟩
  · have hread : ofText (print tokens) = printed.flatMap ofLine := by
      rw [hprint, ofText, List.splitOn_intercalate '\n' hsingle hne]
    rw [← hreads, ← hread, tokenize_eq]
    refine ⟨untilFault_eq_ofTokens, fun heq => ?_⟩
    rw [items, heq, untilFault_ofTokens]
  · intro token hmem hclash
    obtain ⟨field, hfield, -⟩ := id hclash
    have htoken : .ok token ∈ items template := by simpa [h] using hmem
    obtain ⟨line, hline, htoken⟩ := mem_items htoken
    obtain ⟨content, inner, after, hl, hin, ht⟩ := directive_of_mem_ofLine htoken hfield
    obtain ⟨kept, trail, rfl, hkept, hne, hblank⟩ := ht.trimmed hl.getLast?_ne hclash
    exact ⟨kept, trail, hkept, hne, hblank, hin.trans (Text.infix_of_mem_splitOn hline),
      ht.execution⟩

/-- A bracket that ends a key is read again as text. A bracket inside of a key, or behind the closing
marker, stays where it is, and so do directives that are printed shorter than they were written. -/
theorem tokenize_print_bracket :
    let clashing : List Token := [.ifThen "a]" none, .newline]
    let calm : List Token :=
      [.ifThen "a]b" (some ['c']), .text [']'], .otherwise, .set ['d'], .text ['['], .newline]
    (tokenize "[[[IF a] ]]]".toList = ofTokens clashing ∧
      tokenize (print clashing) ≠ ofTokens clashing) ∧
    tokenize "[[[IF a]b  c ]]]][[[ELSEs]]][[[SET  d]]][".toList = ofTokens calm ∧
      tokenize (print calm) = ofTokens calm := by
  intro clashing calm
  have hclashing : tokenize "[[[IF a] ]]]".toList = ofTokens clashing := by
    have hline : Scan.line (.outside []) "[[[IF a] ]]]".toList = (ofTokens clashing, none) := rfl
    rw [tokenize_line hline, untilFault_ofTokens]
  have hcalm : tokenize "[[[IF a]b  c ]]]][[[ELSEs]]][[[SET  d]]][".toList = ofTokens calm := by
    have hline : Scan.line (.outside []) "[[[IF a]b  c ]]]][[[ELSEs]]][[[SET  d]]][".toList =
        (ofTokens calm, none) := rfl
    rw [tokenize_line hline, untilFault_ofTokens]
  refine ⟨⟨hclashing, ?_⟩, hcalm, ?_⟩
  · rw [Ne, (tokenize_print _ hclashing).2.1]
    intro h
    exact h (.ifThen "a]" none) (by simp [clashing]) ⟨_, rfl, rfl⟩
  · rw [(tokenize_print _ hcalm).2.1]
    simp [calm, Token.Clashes, Token.lastField?]

end Lines

end Stencil
