import Stencil.Proofs.Command.Layers
import Stencil.Proofs.Files.Joining

/-! The directory of a project whose configuration is looked for. It is the directory that is looked
in, and the data files are read from there, but for one case: a configuration file right in a
directory that is itself called `.config` takes its data files from the directory around it. -/

namespace Stencil

open Stencil.Path

variable {tree : FileTree} {input : Text} {home path p q : Path} {project : Project}

/-- The configuration in the file at a path. -/
def FileTree.config (tree : FileTree) (path : Path) : Except Failure Config :=
  ((tree.read path).mapError (.unreadable path)).bind fun content =>
    (Config.read? content).elim (.error (.badConfig path)) .ok

namespace Project

/-! ## The directory of a configuration file -/

/-- A path with a name has a directory around it. -/
theorem exists_parent_of_name? {name : Text} (h : p.name? = some name) :
    ∃ around, p.parent? = some around ∧ isAbsolute around = isAbsolute p ∧
      components p = name :: components around := by
  rw [name?_eq] at h
  obtain ⟨hhead, -⟩ := Option.filter_eq_some_iff.mp h
  cases hp : components p with
  | nil => simp [hp] at hhead
  | cons last earlier =>
      obtain ⟨around, hparent, habsolute, hcomponents⟩ := exists_parent hp
      rw [hp] at hhead
      obtain rfl := Option.some.inj hhead
      exact ⟨around, hparent, habsolute, by rw [hcomponents]⟩

/-- The candidates that stand in the directory itself. -/
def directCandidates : List Path := ["cgt.toml", ".cgt.toml"]

/-- The candidate that stands in a directory for configurations. -/
def innerCandidate : Path := ".config/cgt.toml"

theorem candidates_eq : Config.candidates = directCandidates ++ [innerCandidate] := rfl

theorem components_candidate (home : Path) {file : Path} (hfile : file ∈ Config.candidates) :
    isAbsolute (home.join file) = isAbsolute home ∧
      components (home.join file) = components file ++ components home := by
  have hplain : ∀ file ∈ Config.candidates, isAbsolute file = false ∧
      (pieces file).filter leads = components file := by decide
  obtain ⟨hrelative, hpieces⟩ := hplain file hfile
  rcases eq_or_ne home [] with rfl | hne
  · rw [join_nil, hrelative]
    exact ⟨rfl, (List.append_nil _).symm⟩
  · rw [← hpieces]
    exact components_join hne hrelative

/-- The root is the directory of the file, or the one around it if the directory has that name. -/
theorem rootOf_cases {last : Text} {earlier : List Text} (h : components path = last :: earlier) :
    ∃ directory, isAbsolute directory = isAbsolute path ∧ components directory = earlier ∧
      ∀ home, (directory.name? ≠ some ".config".toList → rootOf path home = directory) ∧
        (directory.name? = some ".config".toList →
          directory.parent? = some (rootOf path home)) := by
  obtain ⟨directory, hparent, habsolute, hcomponents⟩ := exists_parent h
  refine ⟨directory, habsolute, hcomponents, fun home => ⟨fun hname => ?_, fun hname => ?_⟩⟩
  · rw [rootOf, hparent, Option.getD_some, if_neg hname]
  · obtain ⟨around, haround, -⟩ := exists_parent_of_name? hname
    rw [rootOf, hparent, Option.getD_some, if_pos hname, haround, Option.getD_some]

/-- The root of a file does not depend on where it is asked for. -/
theorem rootOf_eq {last : Text} {earlier : List Text} (h : components path = last :: earlier)
    (home other : Path) : rootOf path home = rootOf path other := by
  obtain ⟨directory, -, -, hroot⟩ := rootOf_cases h
  by_cases hname : directory.name? = some ".config".toList
  · exact Option.some.inj (((hroot home).2 hname).symm.trans ((hroot other).2 hname))
  · rw [(hroot home).1 hname, (hroot other).1 hname]

/-- The inner candidate has the root that it is looked for in. -/
theorem rootOf_inner (home : Path) : Same (rootOf (home.join innerCandidate) home) home := by
  obtain ⟨habsolute, hcomponents⟩ := components_candidate home (by decide : innerCandidate ∈ _)
  obtain ⟨directory, hdirectory, hearlier, hroot⟩ := rootOf_cases hcomponents
  obtain ⟨around, hparent, haround, hcomponents⟩ := exists_parent hearlier
  have hname : directory.name? = some ".config".toList := by
    rw [name?_eq, hearlier]
    rfl
  obtain rfl := Option.some.inj (hparent.symm.trans ((hroot home).2 hname))
  exact ⟨haround.trans (hdirectory.trans habsolute), hcomponents⟩

/-- A direct candidate has the root that it is looked for in, unless that has the name of a
directory for configurations. -/
theorem rootOf_direct {file : Path} (hfile : file ∈ directCandidates) (home : Path) :
    (home.name? ≠ some ".config".toList → Same (rootOf (home.join file) home) home) ∧
      (home.name? = some ".config".toList →
        ∃ around, home.parent? = some around ∧ Same (rootOf (home.join file) home) around) := by
  obtain ⟨name, hname⟩ : ∃ name, components file = [name] := by
    have hall : ∀ file ∈ directCandidates, components file = [file] := by decide
    exact ⟨file, hall file hfile⟩
  obtain ⟨habsolute, hcomponents⟩ :=
    components_candidate home (List.mem_append_left [innerCandidate] hfile)
  rw [hname] at hcomponents
  obtain ⟨directory, hdirectory, hearlier, hroot⟩ := rootOf_cases hcomponents
  have hsame : Same directory home := ⟨hdirectory.trans habsolute, hearlier⟩
  obtain ⟨hother, hconfig⟩ := hroot home
  rw [hsame.name?] at hother hconfig
  refine ⟨fun h => by rw [hother h]; exact hsame, fun h => ?_⟩
  obtain ⟨around, haround, hanchor, hcomponents⟩ := exists_parent_of_name? h
  obtain ⟨root, hparent, hrootAnchor, hrootComponents⟩ := exists_parent (hearlier.trans hcomponents)
  obtain rfl := Option.some.inj (hparent.symm.trans (hconfig h))
  exact ⟨around, haround, hrootAnchor.trans (hsame.isAbsolute.trans hanchor.symm), hrootComponents⟩

/-! ## Loading -/

theorem run_loadConfig (tree : FileTree) (input : Text) (path : Path) :
    (loadConfig (FileTree.access input) path).run.run tree = (tree.config path, tree) := by
  rw [loadConfig, run_bind, run_load, FileTree.config]
  cases tree.read path with
  | error fault => rfl
  | ok content =>
      simp only [Except.mapError, Except.bind]
      cases Config.read? content <;> rfl

theorem run_configPath (tree : FileTree) (input : Text) (home : Path) :
    (liftM (configPath (FileTree.access input) none home) : Reading (Option Path)).run.run tree =
      (.ok ((Config.candidates.map home.join).find? (tree.isFile ·)), tree) :=
  congrArg (Prod.map (.ok : Option Path → Except Failure (Option Path)) id)
    (run_firstFile tree input (Config.candidates.map home.join))

theorem run_load_of_path {explicit : Option Path}
    (h : (liftM (configPath (FileTree.access input) explicit home) :
      Reading (Option Path)).run.run tree = (.ok (some path), tree)) :
    (load (FileTree.access input) explicit home).run.run tree =
      ((tree.config path).map fun config => ⟨some path, rootOf path home, config⟩, tree) := by
  rw [load, run_bind, h]
  simp only [run_bind, run_loadConfig]
  cases tree.config path <;> rfl

/-- A project has the first candidate that is a file, and the root of that file. -/
theorem load_cases
    (h : (load (FileTree.access input) none home).run.run tree = (.ok project, tree)) :
    project.path = (Config.candidates.map home.join).find? (tree.isFile ·) ∧
      (project.path = none → project.root = home) ∧
      ∀ path, project.path = some path → project.root = rootOf path home := by
  have hpath := run_configPath tree input home
  cases hfound : (Config.candidates.map home.join).find? (tree.isFile ·) with
  | none =>
      rw [load, run_bind, hpath, hfound] at h
      obtain rfl := Except.ok.inj (congrArg Prod.fst h)
      exact ⟨rfl, fun _ => rfl, fun other hother => absurd hother.symm (Option.some_ne_none other)⟩
  | some path =>
      rw [hfound] at hpath
      rw [run_load_of_path hpath] at h
      cases hconfig : tree.config path with
      | error failure =>
          rw [hconfig] at h
          cases congrArg Prod.fst h
      | ok config =>
          rw [hconfig] at h
          have hproject : ⟨some path, rootOf path home, config⟩ = project :=
            Except.ok.inj (congrArg Prod.fst h)
          subst hproject
          refine ⟨rfl, fun hnone => absurd hnone (Option.some_ne_none path), fun other hother => ?_⟩
          rw [Option.some.inj hother]

/-- A project that is found is the one that its file gives when it is named, wherever that is. -/
theorem load_named (h : (load (FileTree.access input) none home).run.run tree = (.ok project, tree))
    (hpath : project.path = some path) (other : Path) :
    (load (FileTree.access input) (some path) other).run.run tree = (.ok project, tree) := by
  have hfound := (load_cases h).1
  rw [hpath] at hfound
  obtain ⟨file, hfile, rfl⟩ := List.mem_map.mp (List.mem_of_find?_eq_some hfound.symm)
  obtain ⟨last, earlier, hcomponents⟩ : ∃ last earlier, components (home.join file) =
      last :: earlier := by
    rw [(components_candidate home hfile).2]
    refine List.exists_cons_of_ne_nil (List.append_ne_nil_of_left_ne_nil ?_ _)
    exact (by decide : ∀ file ∈ Config.candidates, components file ≠ []) file hfile
  have hrun := run_configPath tree input home
  rw [← hfound] at hrun
  rw [run_load_of_path hrun] at h
  rw [run_load_of_path rfl, rootOf_eq hcomponents other home]
  exact h

/-! ## Data files -/

theorem toOption_bind {α β : Type} (x : Except Failure α) (f : α → Except Failure β) :
    (x.bind f).toOption = x.toOption.bind fun a => (f a).toOption := by
  cases x <;> rfl

/-- A path is only named in failures to decode. -/
theorem toOption_decode (format : DataFormat) (p q : Path) (content : Text) :
    (format.decode p content).toOption = (format.decode q content).toOption := by
  cases format with
  | json =>
      simp only [DataFormat.decode]
      cases Json.read content <;> rfl
  | yaml =>
      simp only [DataFormat.decode]
      cases Yaml.read content <;> rfl
  | toml =>
      simp only [DataFormat.decode]
      split
      · rfl
      · rename_i document _
        split
        · cases document.toJson <;> rfl
        · rfl

theorem toOption_readData (h : p.extension? = q.extension?) (content : Text) :
    (readData p content).toOption = (readData q content).toOption := by
  simp only [readData, h]
  cases DataFormat.ofExtension? (q.extension?.getD []) with
  | none => rfl
  | some format =>
      refine (toOption_bind (format.decode p content) _).trans ?_
      refine .trans ?_ (toOption_bind (format.decode q content) _).symm
      rw [toOption_decode format p q]
      refine congrArg _ (funext fun json => ?_)
      cases json <;> rfl

/-- The data files of a directory are the same under all paths to it. -/
theorem toOption_data (h : Same p q) (file : Path) :
    (tree.data (p.join file)).toOption = (tree.data (q.join file)).toOption := by
  have hmap (path : Path) (x : Except Fault Text) :
      (x.mapError (Failure.unreadable path)).toOption = x.toOption := by
    cases x <;> rfl
  rw [FileTree.data, FileTree.data, FileTree.read_join h, toOption_bind, toOption_bind, hmap, hmap]
  exact congrArg _ (funext (toOption_readData (h.join file).extension?))

theorem toOption_addData (h : Same p q) (files : List Path) (values : Bindings Value) :
    ((addData (FileTree.access input) (files.map p.join) values).run.run tree).1.toOption =
      ((addData (FileTree.access input) (files.map q.join) values).run.run tree).1.toOption := by
  induction files generalizing values with
  | nil => rfl
  | cons file files ih =>
      have hfile : (tree.data (p.join file)).toOption = _ := toOption_data h file
      rw [List.map_cons, List.map_cons, addData, addData, run_bind, run_bind, run_loadData,
        run_loadData]
      cases hp : tree.data (p.join file) with
      | error failure =>
          cases hq : tree.data (q.join file) with
          | error other => rfl
          | ok layer => simp [hp, hq, Except.toOption] at hfile
      | ok layer =>
          cases hq : tree.data (q.join file) with
          | error other => simp [hp, hq, Except.toOption] at hfile
          | ok other =>
              rw [hp, hq] at hfile
              obtain rfl := Option.some.inj hfile
              exact ih (values.insertAll layer)

theorem values_fst (project : Project) (tree : FileTree) (input : Text) :
    ((project.values (FileTree.access input)).run.run tree).1 =
      ((addData (FileTree.access input) project.dataFiles .empty).run.run tree).1.map
        (·.insertAll project.config.values) := by
  rw [values_eq, run_bind]
  rcases (addData (FileTree.access input) project.dataFiles .empty).run.run tree with ⟨_ | _, after⟩
    <;> rfl

/-- The values are the same under all paths to the root. -/
theorem toOption_values (h : Same project.root q) :
    ((project.values (FileTree.access input)).run.run tree).1.toOption =
      (({ project with root := q }.values (FileTree.access input)).run.run tree).1.toOption := by
  have hmap (x : Except Failure (Bindings Value)) (f : Bindings Value → Bindings Value) :
      (x.map f).toOption = x.toOption.map f := by
    cases x <;> rfl
  rw [values_fst, values_fst, hmap, hmap, dataFiles, toOption_addData h]
  rfl

/-! ## The directory of a project -/

/-- The configuration file stands right in the directory that it is looked for in, and that has the
name of a directory for configurations. -/
def Displaced (project : Project) (home : Path) : Prop :=
  home.name? = some ".config".toList ∧ ∃ file ∈ directCandidates, project.path = some (home.join file)

theorem root_of_not_displaced
    (h : (load (FileTree.access input) none home).run.run tree = (.ok project, tree))
    (hd : ¬ project.Displaced home) : Same project.root home := by
  obtain ⟨hfound, hnone, hsome⟩ := load_cases h
  cases hpath : project.path with
  | none =>
      rw [hnone hpath]
      exact .refl home
  | some path =>
      rw [hsome path hpath]
      rw [hpath] at hfound
      obtain ⟨file, hfile, rfl⟩ := List.mem_map.mp (List.mem_of_find?_eq_some hfound.symm)
      rw [candidates_eq, List.mem_append, List.mem_singleton] at hfile
      rcases hfile with hdirect | hinner
      · exact (rootOf_direct hdirect home).1 fun hname => hd ⟨hname, file, hdirect, hpath⟩
      · rw [hinner]
        exact rootOf_inner home

theorem root_of_displaced
    (h : (load (FileTree.access input) none home).run.run tree = (.ok project, tree))
    (hd : project.Displaced home) :
    ∃ around, home.parent? = some around ∧ Same project.root around := by
  obtain ⟨hname, file, hfile, hpath⟩ := hd
  rw [(load_cases h).2.2 _ hpath]
  exact (rootOf_direct hfile home).2 hname

/-- No directory is the one around it. -/
theorem not_same_around {around : Path} (hname : home.name? ≠ none)
    (h : home.parent? = some around) : ¬ Same around home := by
  intro hsame
  obtain ⟨name, hname⟩ := Option.ne_none_iff_exists'.mp hname
  obtain ⟨other, hother, -, hcomponents⟩ := exists_parent_of_name? hname
  obtain rfl := Option.some.inj (h.symm.trans hother)
  exact List.cons_ne_self _ _ (hcomponents.symm.trans hsame.components.symm)

/-- A project whose configuration is looked for in a directory has the first of the candidates that
is a file. Its root is that directory, and its data files are read from there, unless the file stands
right in it and it is itself called `.config`; then its root is the directory around it. -/
theorem load_anchored (tree : FileTree) (input : Text) (home : Path) (project : Project)
    (hload : (load (FileTree.access input) none home).run.run tree = (.ok project, tree)) :
    project.path = (Config.candidates.map home.join).find? (tree.isFile ·) ∧
      (Same project.root home ↔ ¬ project.Displaced home) ∧
      (¬ project.Displaced home →
        (∀ file, tree.read (project.root.join file) = tree.read (home.join file)) ∧
        ((project.values (FileTree.access input)).run.run tree).1.toOption =
          (({ project with root := home }.values (FileTree.access input)).run.run tree).1.toOption) ∧
      (project.Displaced home →
        ∃ around, home.parent? = some around ∧ Same project.root around) := by
  have hroot := root_of_not_displaced hload
  have haround := root_of_displaced hload
  refine ⟨(load_cases hload).1, ⟨fun hsame hd => ?_, hroot⟩, fun hd => ?_, haround⟩
  · obtain ⟨around, hparent, hother⟩ := haround hd
    exact not_same_around (by simp [hd.1]) hparent (hother.symm.trans hsame)
  · exact ⟨fun file => FileTree.read_join (hroot hd) file, toOption_values (hroot hd)⟩

/-- A directory called `.config` with the configuration in an inner directory of that name. -/
theorem load_anchored_inner :
    let tree : FileTree := ⟨[".config".toList, ['w']],
      [(["cgt.toml".toList, ".config".toList, ".config".toList, ['w']],
        .text "data.files=['d.json']".toList),
      (["d.json".toList, ".config".toList, ['w']], .text "\x7b\x7d".toList)]⟩
    let home : Path := "/w/.config/.".toList
    let root : Path := "/w/.config".toList
    let project : Project := ⟨some "/w/.config/./.config/cgt.toml".toList, root,
      ⟨[], ["d.json".toList], .default⟩⟩
    (load (FileTree.access []) none home).run.run tree = (.ok project, tree) ∧
      ¬ project.Displaced home ∧ Same root home ∧
      tree.read (root.join "d.json".toList) = tree.read (home.join "d.json".toList) := by
  intro tree home root project
  have hload : (load (FileTree.access []) none home).run.run tree = (.ok project, tree) := by
    have hconfig : Config.read? "data.files=['d.json']".toList = some project.config := by
      decide +kernel
    exact run_project rfl rfl hconfig
  have hd : ¬ project.Displaced home := by
    rintro ⟨-, file, hfile, hpath⟩
    revert file
    decide
  obtain ⟨-, hroot, hread, -⟩ := load_anchored tree [] home project hload
  exact ⟨hload, hd, hroot.mpr hd, (hread hd).1 "d.json".toList⟩

/-- The project directory `p/.config` with a configuration and a data file right in it, and another
data file of that name in `p`. -/
theorem load_displaced :
    let tree : FileTree := ⟨[['w']],
      [([".cgt.toml".toList, ".config".toList, ['p'], ['w']], .text "data.files=['d.json']".toList),
      (["d.json".toList, ".config".toList, ['p'], ['w']], .text "\x7b\"a\":1\x7d".toList),
      (["d.json".toList, ['p'], ['w']], .text "\x7b\"a\":2\x7d".toList)]⟩
    let home : Path := "/w/p/.config".toList
    let path : Path := "/w/p/.config/.cgt.toml".toList
    let project : Project := ⟨some path, "/w/p".toList, ⟨[], ["d.json".toList], .default⟩⟩
    (load (FileTree.access []) none home).run.run tree = (.ok project, tree) ∧
      (load (FileTree.access []) (some path) "/w".toList).run.run tree = (.ok project, tree) ∧
      ¬ Same project.root home ∧
      tree.read (project.root.join "d.json".toList) = .ok "\x7b\"a\":2\x7d".toList ∧
      tree.read (home.join "d.json".toList) = .ok "\x7b\"a\":1\x7d".toList := by
  intro tree home path project
  have hload : (load (FileTree.access []) none home).run.run tree = (.ok project, tree) := by
    have hconfig : Config.read? "data.files=['d.json']".toList = some project.config := by
      decide +kernel
    exact run_project rfl rfl hconfig
  refine ⟨hload, load_named hload rfl _, fun h => ?_, rfl, rfl⟩
  exact absurd h.components (by decide)

end Project

end Stencil
