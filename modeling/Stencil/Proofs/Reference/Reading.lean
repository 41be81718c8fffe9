import Stencil.Proofs.Text.Search
import Stencil.Proofs.Text.Trim
import Stencil.Template.Reference

/-! Reading references. A written parameter list is read back, whatever white space stands around
the parameters and whatever follows the list. Every text but one whose list is not closed is a
reference, and rendering what has been read gives a text that is read the same. -/

namespace Stencil.Reference

open Text

/-! ## How a content is read -/

/-- A content has no list, a closed one, or one that is not closed. -/
inductive Reads : Text → Except TemplateError Reference → Prop where
  | bare {key : Text} (hkey : '(' ∉ key) : Reads key (.ok ⟨key, []⟩)
  | list {key inside trailing : Text} (hkey : '(' ∉ key) (hinside : ')' ∉ inside) :
      Reads (key ++ '(' :: (inside ++ ')' :: trailing))
        (.ok ⟨key, (inside.splitOn ',').map trim⟩)
  | unclosed {key rest : Text} (hkey : '(' ∉ key) (hrest : ')' ∉ rest) :
      Reads (key ++ '(' :: rest) (.error (.unclosedParameterList (key ++ '(' :: rest)))

theorem Reads.execution {t : Text} {result : Except TemplateError Reference}
    (h : Reads t result) : parse t = result := by
  cases h with
  | bare hkey => rw [parse, cut_eq_none_iff.mpr hkey]
  | list hkey hinside =>
      rw [parse, cut_append hkey]
      simp only
      rw [cut_append hinside]
  | unclosed hkey hrest =>
      rw [parse, cut_append hkey]
      simp only
      rw [cut_eq_none_iff.mpr hrest]

theorem parse_reads (t : Text) : Reads t (parse t) := by
  by_cases hopen : '(' ∈ t
  · obtain ⟨key, rest, rfl, hkey⟩ := List.eq_append_cons_of_mem hopen
    by_cases hclose : ')' ∈ rest
    · obtain ⟨inside, trailing, rfl, hinside⟩ := List.eq_append_cons_of_mem hclose
      have hlist := @Reads.list key inside trailing hkey hinside
      rwa [hlist.execution]
    · have hunclosed := Reads.unclosed hkey hclose
      rwa [hunclosed.execution]
  · have hbare := Reads.bare hopen
    rwa [hbare.execution]

theorem reads_iff {t : Text} {result : Except TemplateError Reference} :
    Reads t result ↔ parse t = result :=
  ⟨Reads.execution, fun h => h ▸ parse_reads t⟩

/-- There is no closing parenthesis after the first opening one. -/
def Unclosed (t : Text) : Prop :=
  ∃ key rest, t = key ++ '(' :: rest ∧ '(' ∉ key ∧ ')' ∉ rest

theorem parse_eq_error_iff {t : Text} {e : TemplateError} :
    parse t = .error e ↔ e = .unclosedParameterList t ∧ Unclosed t := by
  constructor
  · intro h
    cases reads_iff.mpr h with
    | unclosed hkey hrest => exact ⟨rfl, _, _, rfl, hkey, hrest⟩
  · rintro ⟨rfl, key, rest, rfl, hkey, hrest⟩
    exact (Reads.unclosed hkey hrest).execution

/-- The key ends in front of the first opening parenthesis. -/
theorem key_of_parse {t : Text} {r : Reference} (h : parse t = .ok r) :
    r.key = t.takeWhile (· ≠ '(') := by
  have hfront : ∀ key rest : Text, '(' ∉ key →
      (key ++ rest).takeWhile (· ≠ '(') = key ++ rest.takeWhile (· ≠ '(') := by
    intro key rest hkey
    apply List.takeWhile_append_of_pos
    intro c hc
    simpa using ne_of_mem_of_not_mem hc hkey
  cases reads_iff.mpr h with
  | bare hkey => simpa using (hfront t [] hkey).symm
  | list hkey hinside =>
      rw [hfront _ _ hkey]
      simp

/-! ## Written lists -/

/-- A parameter as it may be written: a trimmed text with white space around it. -/
structure Written where
  gap : Text
  param : Text
  trail : Text
  gap_blank : gap.allBlank = true
  trail_blank : trail.allBlank = true
  trimmed : trim param = param
  no_comma : ',' ∉ param
  no_closing : ')' ∉ param

namespace Written

def text (p : Written) : Text := p.gap ++ p.param ++ p.trail

theorem trim_text (p : Written) : trim p.text = p.param :=
  trim_padded p.gap_blank p.trail_blank p.trimmed

theorem not_mem_text (p : Written) {c : Char} (hc : isBlank c = false) (hparam : c ∉ p.param) :
    c ∉ p.text := by
  simp only [text, List.mem_append, not_or]
  exact ⟨⟨not_mem_of_allBlank p.gap_blank hc, hparam⟩, not_mem_of_allBlank p.trail_blank hc⟩

/-- A trimmed text as it is rendered, with no white space around it. -/
def plain (param : Text) (trimmed : trim param = param) (no_comma : ',' ∉ param)
    (no_closing : ')' ∉ param) : Written :=
  ⟨[], param, [], rfl, rfl, trimmed, no_comma, no_closing⟩

/-- The text of a key with a parameter list, and what follows it. -/
def reference (key : Text) (params : List Written) (trailing : Text) : Text :=
  key ++ '(' :: (joined [','] (params.map text) ++ ')' :: trailing)

end Written

theorem parse_written {key : Text} {params : List Written} (hkey : '(' ∉ key)
    (hparams : params ≠ []) (trailing : Text) :
    parse (Written.reference key params trailing) = .ok ⟨key, params.map (·.param)⟩ := by
  have hcomma : ∀ t ∈ params.map Written.text, ',' ∉ t := by
    intro t ht
    obtain ⟨p, -, rfl⟩ := List.mem_map.mp ht
    exact p.not_mem_text (by decide) p.no_comma
  have hclosing : ')' ∉ joined [','] (params.map Written.text) := by
    apply not_mem_intercalate (by decide)
    intro t ht
    obtain ⟨p, -, rfl⟩ := List.mem_map.mp ht
    exact p.not_mem_text (by decide) p.no_closing
  have hsplit : (joined [','] (params.map Written.text)).splitOn ',' = params.map Written.text :=
    List.splitOn_intercalate ',' hcomma (by simpa using hparams)
  have hread : Reads (Written.reference key params trailing) _ := .list hkey hclosing
  rw [hread.execution, hsplit, List.map_map]
  simp only [Function.comp_def, Written.trim_text]

/-! ## Rendering what has been read -/

/-- What is read from a list can be written. -/
theorem exists_written {inside : Text} (hinside : ')' ∉ inside) :
    ∃ params : List Written, params ≠ [] ∧
      params.map (·.param) = (inside.splitOn ',').map trim ∧
      params.map Written.text = (inside.splitOn ',').map trim := by
  have hpiece : ∀ piece ∈ inside.splitOn ',', ',' ∉ trim piece ∧ ')' ∉ trim piece := by
    intro piece hmem
    exact ⟨fun h => not_mem_of_mem_splitOn hmem (mem_of_mem_trim h),
      fun h => hinside (mem_of_mem_splitOn hmem (mem_of_mem_trim h))⟩
  refine ⟨(inside.splitOn ',').attach.map fun piece =>
    .plain (trim piece.1) (trim_trim piece.1) (hpiece piece.1 piece.2).1 (hpiece piece.1 piece.2).2,
    ?_, ?_, ?_⟩
  · simp [List.splitOn_ne_nil]
  · simp [Written.plain]
  · simp [Written.plain, Written.text]

theorem parse_render {t : Text} {r : Reference} (h : parse t = .ok r) : parse r.render = .ok r := by
  cases reads_iff.mpr h with
  | bare hkey => exact (Reads.bare hkey).execution
  | list hkey hinside =>
      obtain ⟨params, hne, hparams, htexts⟩ := exists_written hinside
      have hwritten := parse_written hkey hne []
      rw [hparams] at hwritten
      rw [← hwritten, Written.reference, htexts]
      congr 1
      rw [render]
      split
      · rename_i hnil
        simp [List.splitOn_ne_nil] at hnil
      · simp

/-! ## Both -/

/-- A written list is read back. A content is refused just when its list is not closed. Otherwise
its key is what stands in front of the list, and rendering what has been read gives a text that is
read the same. -/
theorem parse_list :
    (∀ (key trailing : Text) (params : List Written), '(' ∉ key → params ≠ [] →
      parse (Written.reference key params trailing) = .ok ⟨key, params.map (·.param)⟩) ∧
    ∀ t, (∀ e, parse t = .error e ↔ e = .unclosedParameterList t ∧ Unclosed t) ∧
      (¬ Unclosed t → ∃ r, parse t = .ok r ∧ r.key = t.takeWhile (· ≠ '(') ∧
        ('(' ∉ t → r = ⟨t, []⟩) ∧ parse r.render = .ok r) := by
  refine ⟨fun key trailing params hkey hparams => parse_written hkey hparams trailing,
    fun t => ⟨fun e => parse_eq_error_iff, fun hclosed => ?_⟩⟩
  cases hread : parse t with
  | error e => exact (hclosed (parse_eq_error_iff.mp hread).2).elim
  | ok r =>
      refine ⟨r, rfl, key_of_parse hread, fun hbare => ?_, parse_render hread⟩
      exact Except.ok.inj (hread.symm.trans (Reads.bare hbare).execution)

/-- The first closing parenthesis ends the list, also in front of an opening one. -/
theorem parse_list_reversed :
    let params : List Written :=
      [⟨['\t'], "a b".toList, [' '], by decide, by decide, by decide, by decide, by decide⟩,
        .plain [] (by decide) (by decide) (by decide)]
    '(' ∉ "f)".toList ∧ params ≠ [] ∧
      parse (Written.reference "f)".toList params ")(".toList) = .ok ⟨"f)", ["a b", []]⟩ ∧
      ¬ Unclosed "f( a ,(b)".toList ∧
      ∃ r, parse "f( a ,(b)".toList = .ok r ∧ r.key = ['f'] ∧ parse r.render = .ok r := by
  intro params
  have hkey : '(' ∉ "f)".toList := by decide
  have hclosed : ¬ Unclosed "f( a ,(b)".toList := by
    intro h
    have hfault : parse "f( a ,(b)".toList = .error _ := ((parse_list.2 _).1 _).mpr ⟨rfl, h⟩
    cases hfault
  obtain ⟨r, hr, hname, -, hagain⟩ := (parse_list.2 _).2 hclosed
  exact ⟨hkey, by simp [params], parse_list.1 _ _ params hkey (by simp [params]), hclosed,
    r, hr, hname, hagain⟩

end Stencil.Reference
