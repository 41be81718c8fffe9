import Stencil.Files.Tree

/-! Writing a file. The place that the path leads to gets the text, and the tree is otherwise the
same: no directory comes or goes, every path leads where it led, and all other files are as they
were. -/

namespace Stencil.FileTree

variable {tree after : FileTree} {place other : Location} {path : Path} {t : Text}

/-! ## Directories -/

theorem isDirectory_iff : tree.isDirectory place = true ↔
    place <:+ tree.home ∨ tree.find? place = some .directory ∨
      ∃ inside entry, (inside, entry) ∈ tree.entries ∧ place <:+ inside ∧ inside ≠ place := by
  simp [isDirectory, or_assoc]

/-- Whatever is around a directory is one. -/
theorem isDirectory_of_suffix (h : tree.isDirectory place = true) {above : Location}
    (habove : above <:+ place) : tree.isDirectory above = true := by
  by_cases heq : above = place
  · exact heq ▸ h
  rw [isDirectory_iff] at h ⊢
  rcases h with hhome | hentry | ⟨inside, entry, hmem, hinside, -⟩
  · exact .inl (habove.trans hhome)
  · obtain ⟨front, rest, hentries, -⟩ := List.lookup_eq_some_iff.mp hentry
    refine .inr (.inr ⟨place, .directory, ?_, habove, Ne.symm heq⟩)
    simp [hentries]
  · refine .inr (.inr ⟨inside, entry, hmem, habove.trans hinside, ?_⟩)
    rintro rfl
    exact heq (habove.eq_of_length_le hinside.length_le)

/-- Everything around the place is a directory. -/
def Enclosed (tree : FileTree) (place : Location) : Prop :=
  ∀ above, above <:+ place → above ≠ place → tree.isDirectory above = true

theorem enclosed_of_isDirectory (h : tree.isDirectory place = true) : tree.Enclosed place :=
  fun _ habove _ => isDirectory_of_suffix h habove

/-- A path leads out of directories only. -/
theorem enclosed_of_walk {here : Location} {pieces : List Text} (hhere : tree.Enclosed here)
    (h : tree.walk here pieces = .ok place) : tree.Enclosed place := by
  induction pieces generalizing here with
  | nil => exact Except.ok.inj h ▸ hhere
  | cons piece rest ih =>
      rw [walk] at h
      split at h
      · rename_i hdir
        split at h
        · exact ih hhere h
        split at h
        · exact ih (enclosed_of_isDirectory (isDirectory_of_suffix hdir (List.tail_suffix here))) h
        · refine ih ?_ h
          intro above habove hne
          exact isDirectory_of_suffix hdir ((List.suffix_cons_iff.mp habove).resolve_left hne)
      · simp at h

theorem enclosed_of_locate (h : tree.locate path = .ok place) : tree.Enclosed place := by
  unfold locate at h
  split at h
  · simp at h
  split at h
  · simp at h
  · refine enclosed_of_walk (enclosed_of_isDirectory (isDirectory_iff.mpr (.inl ?_))) h
    split
    · exact List.nil_suffix
    · exact List.suffix_rfl

/-! ## A text at a place -/

/-- The tree after it has been given a text at a place. -/
structure Given (tree : FileTree) (place : Location) (t : Text) (after : FileTree) : Prop where
  home : after.home = tree.home
  entry : ∀ other, after.find? other = if other = place then some (.text t) else tree.find? other
  directories : ∀ other, after.isDirectory other = tree.isDirectory other
  free : tree.isDirectory place = false

theorem find?_put (tree : FileTree) (place other : Location) (entry : Entry) :
    (tree.put place entry).find? other =
      if other = place then some entry else tree.find? other := by
  have hfilter : ∀ entries : List (Location × Entry), other ≠ place →
      (entries.filter (·.1 ≠ place)).lookup other = entries.lookup other := by
    intro entries hne
    induction entries with
    | nil => rfl
    | cons first entries ih =>
        by_cases hfirst : first.1 = place
        · rw [List.filter_cons_of_neg (by simpa using hfirst), ih, List.lookup_cons,
            beq_false_of_ne (hfirst ▸ hne)]
        · rw [List.filter_cons_of_pos (by simpa using hfirst), List.lookup_cons, List.lookup_cons,
            ih]
  split
  · rename_i heq
    simp [find?, put, heq]
  · rename_i hne
    rw [find?, put, List.lookup_cons, beq_false_of_ne hne]
    exact hfilter tree.entries hne

theorem isDirectory_put (hplace : tree.isDirectory place = false) (henclosed : tree.Enclosed place)
    (other : Location) :
    (tree.put place (.text t)).isDirectory other = tree.isDirectory other := by
  rw [Bool.eq_iff_iff]
  constructor
  · intro h
    rcases isDirectory_iff.mp h with hhome | hentry | ⟨inside, entry, hmem, hinside, hne⟩
    · exact isDirectory_iff.mpr (.inl hhome)
    · rw [find?_put] at hentry
      split at hentry
      · simp at hentry
      · exact isDirectory_iff.mpr (.inr (.inl hentry))
    · rcases List.mem_cons.mp hmem with heq | hmem
      · obtain ⟨rfl, -⟩ := Prod.mk.inj heq
        exact henclosed other hinside (Ne.symm hne)
      · exact isDirectory_iff.mpr
          (.inr (.inr ⟨inside, entry, (List.mem_filter.mp hmem).1, hinside, hne⟩))
  · intro h
    have hother : other ≠ place := by
      rintro rfl
      simp [hplace] at h
    rcases isDirectory_iff.mp h with hhome | hentry | ⟨inside, entry, hmem, hinside, hne⟩
    · exact isDirectory_iff.mpr (.inl hhome)
    · refine isDirectory_iff.mpr (.inr (.inl ?_))
      rw [find?_put, if_neg hother, hentry]
    · refine isDirectory_iff.mpr (.inr (.inr ?_))
      by_cases heq : inside = place
      · exact ⟨place, .text t, List.mem_cons_self, heq ▸ hinside, Ne.symm hother⟩
      · refine ⟨inside, entry, List.mem_cons_of_mem _ ?_, hinside, hne⟩
        exact List.mem_filter.mpr ⟨hmem, by simpa using heq⟩

/-- A file is written where the path leads to. -/
theorem given_of_write (h : tree.write path t = .ok after) :
    ∃ place, tree.locate path = .ok place ∧ tree.Given place t after := by
  unfold write at h
  cases hplace : tree.locate path with
  | error fault => simp [hplace, Except.bind] at h
  | ok place =>
      simp only [hplace, Except.bind] at h
      split at h
      · simp at h
      · rename_i hfree
        have hfree : tree.isDirectory place = false := by simpa using hfree
        obtain rfl := Except.ok.inj h
        exact ⟨place, rfl, rfl, fun other => find?_put tree place other _,
          isDirectory_put hfree (enclosed_of_locate hplace), hfree⟩

/-! ## Paths after writing -/

namespace Given

theorem walk (h : tree.Given place t after) (here : Location) (pieces : List Text)
    (other : Location) :
    after.walk here pieces = .ok other ↔ tree.walk here pieces = .ok other := by
  induction pieces generalizing here with
  | nil => rfl
  | cons piece rest ih =>
      simp only [FileTree.walk, h.directories here]
      split
      · split
        · exact ih here
        split
        · exact ih here.tail
        · exact ih (piece :: here)
      · simp

theorem locate (h : tree.Given place t after) (path : Path) (other : Location) :
    after.locate path = .ok other ↔ tree.locate path = .ok other := by
  simp only [FileTree.locate, h.home]
  split
  · rfl
  split
  · rfl
  · exact h.walk _ _ other

/-- The text can be read back. -/
theorem read_self (h : tree.Given place t after) (hpath : tree.locate path = .ok place) :
    after.read path = .ok t := by
  rw [read, (h.locate path place).mpr hpath]
  change after.contents place = .ok t
  rw [contents, h.directories, h.free, h.entry, if_pos rfl]
  rfl

/-- What could be read elsewhere still can. -/
theorem read (h : tree.Given place t after) (hpath : tree.locate path ≠ .ok place) {content : Text}
    (hread : tree.read path = .ok content) : after.read path = .ok content := by
  cases hother : tree.locate path with
  | error fault => simp [FileTree.read, hother, Except.bind] at hread
  | ok other =>
      have hne : other ≠ place := by
        rintro rfl
        exact hpath hother
      rw [FileTree.read, hother] at hread
      rw [FileTree.read, (h.locate path other).mpr hother, ← hread]
      change after.contents other = tree.contents other
      rw [contents, contents, h.directories, h.entry, if_neg hne]

/-- A path leads to a file elsewhere just when it did before. -/
theorem isFile (h : tree.Given place t after) (hpath : tree.locate path ≠ .ok place) :
    after.isFile path = tree.isFile path := by
  cases hother : tree.locate path with
  | error fault =>
      cases hafter : after.locate path with
      | error fault' => rw [FileTree.isFile, FileTree.isFile, hother, hafter]
      | ok other => simp [(h.locate path other).mp hafter] at hother
  | ok other =>
      have hne : other ≠ place := by
        rintro rfl
        exact hpath hother
      simp only [FileTree.isFile, (h.locate path other).mpr hother, hother, h.directories, h.entry,
        if_neg hne]

end Given

end Stencil.FileTree
