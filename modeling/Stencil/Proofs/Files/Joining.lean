import Mathlib.Logic.Basic
import Stencil.Files.Tree
import Stencil.Proofs.Text.Search

/-! Paths that differ only in pieces that lead nowhere. Joining, going up and naming do not tell
them apart, and what is joined to them leads to the same file. -/

namespace Stencil

namespace Path

variable {p q base path : Path} {absolute : Bool} {trail front : List Text}

/-! ## Components -/

/-- A piece that leads elsewhere. -/
def leads (piece : Text) : Bool := piece ≠ [] ∧ piece ≠ ['.']

/-- Drops all pieces that lead nowhere, not only the last ones. -/
def dropAllIdle (absolute : Bool) : List Text → List Text
  | [] => []
  | piece :: earlier =>
    if piece = [] ∨ (piece = ['.'] ∧ (absolute ∨ earlier ≠ [])) then dropAllIdle absolute earlier
    else piece :: dropAllIdle absolute earlier

/-- The pieces of a path that count, the last one first. -/
def components (p : Path) : List Text := dropAllIdle p.isAbsolute p.pieces

/-- The paths differ at most in pieces that lead nowhere. -/
structure Same (p q : Path) : Prop where
  isAbsolute : isAbsolute p = isAbsolute q
  components : components p = components q

theorem Same.refl (p : Path) : Same p p := ⟨rfl, rfl⟩

theorem Same.trans (h : Same p q) (h' : Same q path) : Same p path :=
  ⟨h.isAbsolute.trans h'.isAbsolute, h.components.trans h'.components⟩

theorem Same.symm (h : Same p q) : Same q p := ⟨h.isAbsolute.symm, h.components.symm⟩

/-- Before other pieces, or after a slash, a dot leads nowhere. -/
theorem dropAllIdle_append (h : absolute = true ∨ front ≠ []) (back : List Text) :
    dropAllIdle absolute (back ++ front) = back.filter leads ++ dropAllIdle absolute front := by
  induction back with
  | nil => rfl
  | cons piece back ih =>
      have hrest : absolute = true ∨ back ++ front ≠ [] :=
        h.imp_right fun hne => List.append_ne_nil_of_right_ne_nil back hne
      rw [List.cons_append, dropAllIdle, ih, List.filter_cons]
      by_cases hp : piece = [] ∨ piece = ['.']
      · rw [if_pos (hp.imp_right (⟨·, hrest⟩)), if_neg]
        rcases hp with rfl | rfl <;> decide
      · have hleads : leads piece = true := by simpa [leads] using hp
        rw [if_neg (mt (Or.imp_right And.left) hp), if_pos hleads]
        rfl

theorem filter_dropAllIdle (absolute : Bool) (trail : List Text) :
    (dropAllIdle absolute trail).filter leads = trail.filter leads := by
  induction trail with
  | nil => rfl
  | cons piece earlier ih =>
      rw [dropAllIdle]
      split
      · rename_i h
        rw [ih, List.filter_cons, if_neg]
        rcases h with rfl | ⟨rfl, -⟩ <;> decide
      · rw [List.filter_cons, List.filter_cons, ih]

theorem dropAllIdle_eq (absolute : Bool) (trail : List Text) :
    dropAllIdle absolute trail =
      match dropIdle absolute trail with
      | [] => []
      | last :: earlier => last :: dropAllIdle absolute earlier := by
  induction trail with
  | nil => rfl
  | cons piece earlier ih =>
      rw [dropAllIdle, dropIdle]
      split
      · exact ih
      · rfl

theorem dropAllIdle_dropIdle (absolute : Bool) (trail : List Text) :
    dropAllIdle absolute (dropIdle absolute trail) = dropAllIdle absolute trail := by
  induction trail with
  | nil => rfl
  | cons piece earlier ih =>
      rw [dropIdle]
      split
      · rename_i h
        rw [ih, dropAllIdle, if_pos h]
      · rfl

theorem dropIdle_suffix (absolute : Bool) (trail : List Text) :
    dropIdle absolute trail <:+ trail := by
  induction trail with
  | nil => exact List.suffix_rfl
  | cons piece earlier ih =>
      rw [dropIdle]
      split
      · exact ih.trans (List.suffix_cons piece earlier)
      · exact List.suffix_rfl

/-! ## Pieces -/

theorem isAbsolute_cons (c : Char) (p : Path) : isAbsolute (c :: p) = (c == '/') := rfl

theorem pieces_slash (p : Path) : pieces ('/' :: p) = (p.splitOn '/').reverse := rfl

theorem pieces_relative (h : isAbsolute p = false) : pieces p = (p.splitOn '/').reverse := by
  rw [pieces, anchor, h]
  rfl

theorem pieces_ne_nil (p : Path) : pieces p ≠ [] := by
  rw [pieces, ne_eq, List.reverse_eq_nil_iff]
  exact List.splitOn_ne_nil _ _

theorem not_mem_of_mem_pieces {piece : Text} (h : piece ∈ pieces p) : '/' ∉ piece :=
  Text.not_mem_of_mem_splitOn (List.mem_reverse.mp h)

/-- The first piece of a relative path is empty only in the empty path. -/
theorem getLast?_pieces (h : isAbsolute p = false) (hne : p ≠ []) :
    (pieces p).getLast? ≠ some [] := by
  rw [pieces_relative h, List.getLast?_reverse]
  cases p with
  | nil => exact absurd rfl hne
  | cons c p =>
      obtain ⟨first, rest, hs⟩ := List.exists_cons_of_ne_nil (List.splitOn_ne_nil '/' p)
      rw [List.splitOn_cons_eq_if_modifyHead, ← isAbsolute_cons c p, h, hs]
      simp

theorem components_ne_nil (h : isAbsolute p = false) (hne : p ≠ []) : components p ≠ [] := by
  obtain ⟨later, first, hp⟩ := (List.eq_nil_or_concat (pieces p)).resolve_left (pieces_ne_nil p)
  have hfirst : first ≠ [] := by
    rintro rfl
    exact getLast?_pieces h hne (by rw [hp, List.concat_eq_append, List.getLast?_concat])
  rw [components, hp, List.concat_eq_append, dropAllIdle_append (.inr (List.cons_ne_nil _ _)),
    dropAllIdle, if_neg (by simp [h, hfirst])]
  exact List.append_ne_nil_of_right_ne_nil _ (List.cons_ne_nil _ _)

theorem Same.eq_nil_iff (h : Same p q) : p = [] ↔ q = [] := by
  have heq {p q : Path} (h : Same p q) (hq : q = []) : p = [] := by
    subst hq
    exact Decidable.of_not_not fun hp => components_ne_nil h.isAbsolute hp h.components
  exact ⟨heq h.symm, heq h⟩

/-! ## Going up -/

theorem isAbsolute_joined {first : Text} (hne : first ≠ []) (hslash : '/' ∉ first)
    (rest : List Text) : isAbsolute (Text.joined ['/'] (first :: rest)) = false := by
  obtain ⟨c, first, rfl⟩ := List.exists_cons_of_ne_nil hne
  have hc : (c == '/') = false := beq_false_of_ne fun h => hslash (h ▸ List.mem_cons_self)
  cases rest with
  | nil =>
      rw [Text.joined, List.intercalate_singleton, isAbsolute_cons, hc]
  | cons second rest =>
      rw [Text.joined, List.intercalate_cons_cons, List.cons_append, List.cons_append,
        isAbsolute_cons, hc]

/-- A path is made of its anchor and its pieces. -/
theorem same_anchor_joined (hslash : ∀ piece ∈ trail, '/' ∉ piece)
    (hfirst : isAbsolute p = false → trail.getLast? ≠ some []) :
    isAbsolute (anchor p ++ Text.joined ['/'] trail.reverse) = isAbsolute p ∧
      components (anchor p ++ Text.joined ['/'] trail.reverse) =
        dropAllIdle (isAbsolute p) trail := by
  have hsplit (hne : trail ≠ []) :
      ((Text.joined ['/'] trail.reverse).splitOn '/').reverse = trail := by
    rw [Text.joined, List.splitOn_intercalate '/' (by simpa using hslash) (by simpa using hne),
      List.reverse_reverse]
  cases hp : isAbsolute p with
  | true =>
      rw [anchor, if_pos hp, List.singleton_append, components, pieces_slash]
      refine ⟨rfl, ?_⟩
      cases trail with
      | nil => rfl
      | cons piece earlier => rw [hsplit (List.cons_ne_nil _ _)]; rfl
  | false =>
      rw [anchor, hp, if_neg Bool.false_ne_true, List.nil_append]
      rcases List.eq_nil_or_concat trail with rfl | ⟨later, first, rfl⟩
      · exact ⟨rfl, rfl⟩
      have hrelative : isAbsolute (Text.joined ['/'] (later.concat first).reverse) = false := by
        rw [List.concat_eq_append, List.reverse_append, List.reverse_singleton,
          List.singleton_append]
        refine isAbsolute_joined (fun hnil => hfirst hp ?_) (hslash first (by simp)) _
        rw [List.concat_eq_append, List.getLast?_concat, hnil]
      rw [components, hrelative, pieces_relative hrelative, hsplit (by simp)]
      exact ⟨rfl, rfl⟩

/-- Going up drops the last component. -/
theorem exists_parent {last : Text} {earlier : List Text} (h : components p = last :: earlier) :
    ∃ around, parent? p = some around ∧ isAbsolute around = isAbsolute p ∧
      components around = earlier := by
  rw [components, dropAllIdle_eq] at h
  cases hsteps : dropIdle (isAbsolute p) (pieces p) with
  | nil => simp [hsteps] at h
  | cons step before =>
      rw [hsteps] at h
      obtain ⟨rfl, rfl⟩ := List.cons.inj h
      have hsuffix : dropIdle (isAbsolute p) before <:+ pieces p := by
        have hbefore : before <:+ pieces p :=
          (List.suffix_cons step before).trans (hsteps ▸ dropIdle_suffix (isAbsolute p) (pieces p))
        exact (dropIdle_suffix _ _).trans hbefore
      have hfirst : isAbsolute p = false →
          (dropIdle (isAbsolute p) before).getLast? ≠ some [] := by
        intro hp hempty
        obtain ⟨later, hlater⟩ := hsuffix
        refine getLast?_pieces hp ?_ (by rw [← hlater, List.getLast?_append, hempty]; rfl)
        rintro rfl
        simp [pieces, anchor, isAbsolute, dropIdle] at hsteps
      have hslash : ∀ piece ∈ dropIdle (isAbsolute p) before, '/' ∉ piece :=
        fun piece hpiece => not_mem_of_mem_pieces (hsuffix.mem hpiece)
      obtain ⟨habsolute, hcomponents⟩ := same_anchor_joined hslash hfirst
      refine ⟨_, ?_, habsolute, hcomponents.trans (dropAllIdle_dropIdle _ _)⟩
      rw [parent?, steps, hsteps]

/-- The name is the last component, unless that leads back. -/
theorem name?_eq (p : Path) :
    name? p = (components p).head?.filter fun last => last ≠ ['.'] ∧ last ≠ ['.', '.'] := by
  rw [name?, steps, components, dropAllIdle_eq]
  cases dropIdle (isAbsolute p) (pieces p) with
  | nil => rfl
  | cons last earlier =>
      simp only [List.head?_cons, Option.filter_some]
      by_cases h : last = ['.'] ∨ last = ['.', '.']
      · rw [if_pos h, if_neg]
        rcases h with rfl | rfl <;> decide
      · rw [if_neg h, if_pos]
        simpa using h

theorem Same.name? (h : Same p q) : name? p = name? q := by
  rw [name?_eq, name?_eq, h.components]

theorem Same.extension? (h : Same p q) : extension? p = extension? q := by
  rw [Path.extension?, Path.extension?, h.name?]

/-! ## Joining -/

theorem components_slash (hne : base ≠ []) (p : Path) :
    isAbsolute (base ++ '/' :: p) = isAbsolute base ∧
      components (base ++ '/' :: p) = (p.splitOn '/').reverse.filter leads ++ components base := by
  obtain ⟨c, base, rfl⟩ := List.exists_cons_of_ne_nil hne
  have habsolute : isAbsolute (c :: base ++ '/' :: p) = isAbsolute (c :: base) := rfl
  have hpieces : pieces (c :: base ++ '/' :: p) = (p.splitOn '/').reverse ++ pieces (c :: base) := by
    rw [pieces, pieces, anchor, anchor, habsolute, ← List.reverse_append,
      ← List.splitOn_append_cons_self, List.cons_append]
    cases isAbsolute (c :: base) <;> rfl
  refine ⟨habsolute, ?_⟩
  rw [components, habsolute, hpieces, dropAllIdle_append (.inr (pieces_ne_nil _))]
  rfl

/-- A slash comes between a path and what is joined to it, unless there is one. -/
theorem exists_join (hne : base ≠ []) (hp : isAbsolute p = false) :
    ∃ front, (base = front ∨ base = front ++ ['/']) ∧ join base p = front ++ '/' :: p := by
  rw [join, hp, Bool.false_or, if_neg (by simpa using hne)]
  split
  · rename_i hlast
    obtain ⟨front, rfl⟩ := List.getLast?_eq_some_iff.mp (beq_iff_eq.mp hlast)
    exact ⟨front, .inr rfl, by simp⟩
  · exact ⟨base, .inl rfl, rfl⟩

/-- The components of a relative path come after those of the path that it is joined to. -/
theorem components_join (hne : base ≠ []) (hp : isAbsolute p = false) :
    isAbsolute (join base p) = isAbsolute base ∧
      components (join base p) = (pieces p).filter leads ++ components base := by
  obtain ⟨front, hbase, hjoin⟩ := exists_join hne hp
  rw [hjoin, pieces_relative hp]
  rcases eq_or_ne front [] with rfl | hfront
  · obtain rfl : base = ['/'] := hbase.resolve_left hne
    refine ⟨rfl, ?_⟩
    have hdrop := @dropAllIdle_append true [] (.inl rfl) (p.splitOn '/').reverse
    rw [List.append_nil] at hdrop
    exact hdrop
  · obtain ⟨habsolute, hcomponents⟩ := components_slash hfront p
    rcases hbase with rfl | rfl
    · exact ⟨habsolute, hcomponents⟩
    · obtain ⟨habsolute', hcomponents'⟩ := components_slash hfront []
      exact ⟨habsolute.trans habsolute'.symm, by rw [hcomponents, hcomponents']; rfl⟩

theorem join_nil (p : Path) : join [] p = p := by simp [join]

theorem join_absolute (hp : isAbsolute p = true) (base : Path) : join base p = p := by
  simp [join, hp]

theorem Same.join (h : Same p q) (file : Path) : Same (join p file) (join q file) := by
  cases hfile : Path.isAbsolute file with
  | true =>
      rw [join_absolute hfile, join_absolute hfile]
      exact .refl file
  | false =>
      rcases eq_or_ne p [] with rfl | hp
      · obtain rfl : q = [] := h.eq_nil_iff.mp rfl
        exact .refl _
      · obtain ⟨ha, hc⟩ := components_join hp hfile
        obtain ⟨ha', hc'⟩ := components_join (mt h.eq_nil_iff.mpr hp) hfile
        exact ⟨by rw [ha, ha', h.isAbsolute], by rw [hc, hc', h.components]⟩

/-! ## Where paths lead -/

/-- The pieces that lead on, the first one first. -/
def route (p : Path) : List Text := (p.splitOn '/').filter leads

theorem route_eq (p : Path) : route p = ((components p).filter leads).reverse := by
  rw [components, filter_dropAllIdle, ← List.filter_reverse, route]
  cases hp : isAbsolute p with
  | true =>
      obtain ⟨rest, rfl⟩ : ∃ rest, p = '/' :: rest := by
        cases p with
        | nil => cases hp
        | cons c rest => exact ⟨rest, congrArg (· :: rest) (beq_iff_eq.mp hp)⟩
      rw [pieces_slash, List.reverse_reverse, List.splitOn_cons_eq_if_modifyHead]
      rfl
  | false => rw [pieces_relative hp, List.reverse_reverse]

theorem Same.route (h : Same p q) : route p = route q := by rw [route_eq, route_eq, h.components]

/-- The characters of a path, but for slashes and dots, are those of its route. -/
theorem mem_iff_route {c : Char} (hslash : c ≠ '/') (hdot : c ≠ '.') :
    c ∈ p ↔ ∃ piece ∈ route p, c ∈ piece := by
  have hflatten : c ∈ p ↔ c ∈ (p.splitOn '/').flatten := by
    rw [Text.flatten_splitOn, List.mem_filter]
    simp [hslash]
  rw [hflatten, List.mem_flatten]
  constructor
  · rintro ⟨piece, hpiece, hc⟩
    refine ⟨piece, List.mem_filter.mpr ⟨hpiece, ?_⟩, hc⟩
    rw [leads, decide_eq_true_iff]
    constructor
    · rintro rfl
      cases hc
    · rintro rfl
      exact hdot (List.mem_singleton.mp hc)
  · rintro ⟨piece, hpiece, hc⟩
    exact ⟨piece, (List.mem_filter.mp hpiece).1, hc⟩

end Path

namespace FileTree

open Stencil.Path

variable {tree : FileTree} {p q : Path} {rest : List Text}

/-- Before other pieces it does not matter whether a piece leads nowhere. -/
theorem walk_filter (hrest : rest ≠ []) (here : Location) (trail : List Text) :
    tree.walk here (trail ++ rest) = tree.walk here (trail.filter leads ++ rest) := by
  induction trail generalizing here with
  | nil => rfl
  | cons piece trail ih =>
      rw [List.cons_append, List.filter_cons]
      by_cases hp : piece = [] ∨ piece = ['.']
      · have hleads : leads piece = false := by rcases hp with rfl | rfl <;> rfl
        rw [if_neg (by simp [hleads]), walk, ih here, if_pos hp]
        split
        · rfl
        · rename_i hhere
          obtain ⟨next, more, hnext⟩ := List.exists_cons_of_ne_nil
            (List.append_ne_nil_of_right_ne_nil (trail.filter leads) hrest)
          rw [hnext, walk, if_neg hhere]
      · have hleads : leads piece = true := by simpa [leads] using hp
        rw [if_pos hleads, List.cons_append, walk, walk, if_neg hp, if_neg hp, ih here.tail,
          ih (piece :: here)]

/-- The place that a relative path leads to from a directory depends on the directory's route. -/
theorem locate_join_eq (hne : p ≠ []) {file : Path} (hfile : isAbsolute file = false) :
    tree.locate (p.join file) =
      if (∃ piece ∈ route p, '\x00' ∈ piece) ∨ '\x00' ∈ file then .error .badName
      else tree.walk (if isAbsolute p then [] else tree.home) (route p ++ file.splitOn '/') := by
  obtain ⟨front, hfront, hjoin⟩ := exists_join hne hfile
  have hwalk (start : Location) : tree.walk start ((p.join file).splitOn '/') =
      tree.walk start (route p ++ file.splitOn '/') := by
    have hroute : (front.splitOn '/').filter leads = route p := by
      rcases hfront with rfl | rfl
      · rfl
      · rw [route, List.splitOn_append_cons_self, List.filter_append]
        exact (List.append_nil _).symm
    rw [hjoin, List.splitOn_append_cons_self, walk_filter (List.splitOn_ne_nil _ _), hroute]
  have hmem : '\x00' ∈ p.join file ↔ (∃ piece ∈ route p, '\x00' ∈ piece) ∨ '\x00' ∈ file := by
    rw [← mem_iff_route (by decide) (by decide), hjoin]
    rcases hfront with rfl | rfl <;> simp
  have habsolute : isAbsolute (p.join file) = isAbsolute p := (components_join hne hfile).1
  have hempty : (p.join file).isEmpty = false := by simp [hjoin]
  simp only [locate, List.contains_iff_mem, hmem, hempty, habsolute, hwalk, Bool.false_eq_true,
    if_false]

/-- Paths that differ in idle pieces lead everything joined to them to the same place. -/
theorem locate_join (h : Same p q) (file : Path) :
    tree.locate (p.join file) = tree.locate (q.join file) := by
  cases hfile : isAbsolute file with
  | true => rw [join_absolute hfile, join_absolute hfile]
  | false =>
      rcases eq_or_ne p [] with rfl | hp
      · rw [h.eq_nil_iff.mp rfl]
      · rw [locate_join_eq hp hfile, locate_join_eq (mt h.eq_nil_iff.mpr hp) hfile, h.route,
          h.isAbsolute]

theorem read_join (h : Same p q) (file : Path) :
    tree.read (p.join file) = tree.read (q.join file) := by
  rw [read, read, locate_join h]

end FileTree

end Stencil
