import Stencil.Command.Run
import Stencil.Proofs.Files.Writing

/-! What an expansion reads. It leaves the files as they are, and it gives the same text again as
long as the paths that it looks at lead to the same files. -/

namespace Stencil

/-! ## Paths that keep their files -/

/-- What can be read at the path stays, and so does whether there is a file. -/
structure FileTree.Keeps (before after : FileTree) (path : Path) : Prop where
  read : ∀ {content}, before.read path = .ok content → after.read path = .ok content
  isFile : after.isFile path = before.isFile path

theorem FileTree.Keeps.refl (tree : FileTree) (path : Path) : tree.Keeps tree path := ⟨id, rfl⟩

theorem FileTree.Given.keeps {tree after : FileTree} {place : Location} {t : Text} {path : Path}
    (h : tree.Given place t after) (hpath : tree.locate path ≠ .ok place) : tree.Keeps after path :=
  ⟨h.read hpath, h.isFile hpath⟩

/-! ## Reading -/

abbrev Reading (α : Type) := ExceptT Failure (StateM FileTree) α

/-- The first computation does not change the one tree. If it gives a value there, the second gives
the same value in the other tree, which it does not change either. -/
structure Carries {α : Type} (before after : FileTree) (x y : Reading α) : Prop where
  quiet : (x.run.run before).2 = before
  kept : ∀ {a}, x.run.run before = (.ok a, before) → y.run.run after = (.ok a, after)

section

variable {α β : Type} {before after : FileTree} {x y : Reading α} {f g : α → Reading β}

theorem Carries.pure (a : α) : Carries before after (pure a) (Pure.pure a) := by
  refine ⟨rfl, fun {b} h => ?_⟩
  obtain rfl := Except.ok.inj (congrArg Prod.fst h)
  rfl

theorem Carries.throw (failure : Failure) :
    Carries before after (MonadExcept.throw failure : Reading α) (MonadExcept.throw failure) := by
  refine ⟨rfl, fun {b} h => ?_⟩
  cases congrArg Prod.fst h

theorem Carries.lift {z w : StateM FileTree α} {a : α} (hz : z.run before = (a, before))
    (hw : w.run after = (a, after)) :
    Carries before after (liftM z : Reading α) (liftM w : Reading α) := by
  have hrun : ∀ (z : StateM FileTree α) tree,
      (liftM z : Reading α).run.run tree = (.ok (z.run tree).1, (z.run tree).2) := fun _ _ => rfl
  refine ⟨by rw [hrun, hz], fun {b} hb => ?_⟩
  rw [hrun, hz] at hb
  rw [hrun, hw]
  obtain rfl := Except.ok.inj (congrArg Prod.fst hb)
  rfl

theorem run_bind (x : Reading α) (f : α → Reading β) (tree : FileTree) :
    (x >>= f).run.run tree =
      match x.run.run tree with
      | (.ok a, s) => (f a).run.run s
      | (.error failure, s) => (.error failure, s) := by
  rw [ExceptT.run_bind, StateT.run_bind]
  rcases x.run.run tree with ⟨result, s⟩
  cases result <;> rfl

theorem Carries.bind (h : Carries before after x y)
    (hf : ∀ a, x.run.run before = (.ok a, before) → Carries before after (f a) (g a)) :
    Carries before after (x >>= f) (y >>= g) := by
  have hquiet := h.quiet
  rcases hx : x.run.run before with ⟨result, s⟩
  rw [hx] at hquiet
  obtain rfl : s = before := hquiet
  cases result with
  | error failure =>
      refine ⟨by rw [run_bind, hx], fun {b} hb => ?_⟩
      rw [run_bind, hx] at hb
      cases congrArg Prod.fst hb
  | ok a =>
      refine ⟨by rw [run_bind, hx]; exact (hf a hx).quiet, fun {b} hb => ?_⟩
      rw [run_bind, hx] at hb
      rw [run_bind, h.kept hx]
      exact (hf a hx).kept hb

end

variable {before after : FileTree} {input input' : Text} {path home template : Path}
  {config : Option Path} {sources : Sources}

/-! ## Files and configurations -/

theorem run_load (tree : FileTree) (input : Text) (path : Path) :
    ((FileTree.access input).load path).run.run tree =
      ((tree.read path).mapError (.unreadable path), tree) := by
  have hread : (liftM ((FileTree.access input).read path) : Reading _).run.run tree =
      (.ok (tree.read path), tree) := rfl
  rw [FileAccess.load, run_bind, hread]
  cases tree.read path <;> rfl

theorem carries_load (h : before.Keeps after path) :
    Carries before after ((FileTree.access input).load path)
      ((FileTree.access input').load path) := by
  refine ⟨by rw [run_load], fun {content} hload => ?_⟩
  rw [run_load] at hload ⊢
  cases hread : before.read path with
  | error fault =>
      rw [hread] at hload
      cases congrArg Prod.fst hload
  | ok t =>
      rw [hread] at hload
      rw [h.read hread, ← Except.ok.inj (congrArg Prod.fst hload)]
      rfl

theorem carries_loadData (h : before.Keeps after path) :
    Carries before after ((FileTree.access input).loadData path)
      ((FileTree.access input').loadData path) := by
  refine (carries_load h).bind fun content _ => ?_
  cases readData path content with
  | error failure => exact .throw failure
  | ok entries => exact .pure entries

theorem run_firstFile (tree : FileTree) (input : Text) (paths : List Path) :
    (Project.firstFile (FileTree.access input) paths).run tree =
      (paths.find? (tree.isFile ·), tree) := by
  induction paths with
  | nil => rfl
  | cons path paths ih =>
      have hfile : ((FileTree.access input).isFile path).run tree = (tree.isFile path, tree) := rfl
      rw [Project.firstFile, StateT.run_bind, hfile, List.find?_cons]
      cases tree.isFile path with
      | true => rfl
      | false => exact ih

/-- The paths at which a configuration is looked for. -/
def configPaths (config : Option Path) (home : Path) : List Path :=
  config.elim (Config.candidates.map home.join) ([·])

/-- The first file among the candidates is the same in both trees. -/
theorem find?_isFile {paths : List Path} (h : ∀ path ∈ paths, before.Keeps after path) :
    paths.find? (after.isFile ·) = paths.find? (before.isFile ·) := by
  induction paths with
  | nil => rfl
  | cons path paths ih =>
      rw [List.find?_cons, List.find?_cons, (h path List.mem_cons_self).isFile,
        ih fun other hmem => h other (List.mem_cons_of_mem _ hmem)]

theorem carries_configPath (h : ∀ path ∈ configPaths config home, before.Keeps after path) :
    Carries before after
      (liftM (Project.configPath (FileTree.access input) config home) : Reading (Option Path))
      (liftM (Project.configPath (FileTree.access input') config home)) := by
  cases config with
  | some path => exact .lift rfl rfl
  | none =>
      refine .lift (run_firstFile before input _) ?_
      have hsame : (Config.candidates.map home.join).find? (after.isFile ·) = _ := find?_isFile h
      rw [← hsame]
      exact run_firstFile after input' _

/-- A configuration file is one of the paths at which it is looked for. -/
theorem mem_configPaths {tree : FileTree}
    (h : (liftM (Project.configPath (FileTree.access input) config home) :
      Reading (Option Path)).run.run tree = (.ok (some path), tree)) :
    path ∈ configPaths config home := by
  have hpath : ((Project.configPath (FileTree.access input) config home).run tree).1 = some path :=
    Except.ok.inj (congrArg Prod.fst h)
  cases config with
  | some explicit =>
      obtain rfl : explicit = path := Option.some.inj hpath
      exact List.mem_singleton_self _
  | none =>
      rw [Project.configPath, Project.discover, run_firstFile] at hpath
      exact List.mem_of_find?_eq_some hpath

theorem carries_loadConfig (h : before.Keeps after path) :
    Carries before after (Project.loadConfig (FileTree.access input) path)
      (Project.loadConfig (FileTree.access input') path) := by
  refine (carries_load h).bind fun content _ => ?_
  cases Config.read? content with
  | none => exact .throw (.badConfig path)
  | some config => exact .pure config

theorem carries_project (h : ∀ path ∈ configPaths config home, before.Keeps after path) :
    Carries before after (Project.load (FileTree.access input) config home)
      (Project.load (FileTree.access input') config home) := by
  refine (carries_configPath h).bind fun found hfound => ?_
  cases found with
  | none => exact .pure _
  | some path =>
      exact (carries_loadConfig (h path (mem_configPaths hfound))).bind fun config _ => .pure _

/-! ## Values and expansions -/

theorem carries_addData {paths : List Path} (h : ∀ path ∈ paths, before.Keeps after path)
    (values : Bindings Value) :
    Carries before after (Project.addData (FileTree.access input) paths values)
      (Project.addData (FileTree.access input') paths values) := by
  induction paths generalizing values with
  | nil => exact .pure values
  | cons path paths ih =>
      refine (carries_loadData (h path List.mem_cons_self)).bind fun entries _ => ?_
      exact ih (fun other hmem => h other (List.mem_cons_of_mem _ hmem)) (values.insertAll entries)

/-- The data files of a project. -/
def Project.dataFiles (p : Project) : List Path := p.config.files.map p.root.join

theorem carries_projectValues {p : Project} (h : ∀ path ∈ p.dataFiles, before.Keeps after path) :
    Carries before after (p.values (FileTree.access input)) (p.values (FileTree.access input')) :=
  (carries_addData h .empty).bind fun _ _ => .pure _

/-- The paths at which an expansion looks in a tree. -/
inductive Sources.LooksAt (sources : Sources) (tree : FileTree) (config : Option Path)
    (home template : Path) : Path → Prop where
  | template : LooksAt sources tree config home template template
  | config {path : Path} (h : path ∈ configPaths config home) :
      LooksAt sources tree config home template path
  /-- A data file of the configuration. -/
  | data {path : Path} {project : Project} {input : Text}
      (hload : (Project.load (FileTree.access input) config home).run.run tree =
        (.ok project, tree))
      (h : path ∈ project.dataFiles) : LooksAt sources tree config home template path
  /-- A data file given with the template. -/
  | file {path : Path} (h : path ∈ sources.files) :
      LooksAt sources tree config home template path

theorem carries_values
    (h : ∀ path, sources.LooksAt before config home template path → before.Keeps after path) :
    Carries before after (sources.values (FileTree.access input) config home)
      (sources.values (FileTree.access input') config home) := by
  refine (carries_project fun path hpath => h path (.config hpath)).bind fun project hload => ?_
  have hdata := fun path hpath => h path (.data hload hpath)
  refine (carries_projectValues hdata).bind fun values _ => ?_
  exact (carries_addData (fun path hpath => h path (.file hpath)) values).bind fun _ _ => .pure _

theorem carries_expansion
    (h : ∀ path, sources.LooksAt before config home template path → before.Keeps after path) :
    Carries before after (sources.expansion (FileTree.access input) config home template)
      (sources.expansion (FileTree.access input') config home template) := by
  refine (carries_values h).bind fun values _ => ?_
  refine (carries_load (h template .template)).bind fun source _ => ?_
  cases (expandToText Resolver.bindings source values).1 with
  | error e => exact .throw (.template template e)
  | ok t => exact .pure t

/-- The outcome of an expansion in a tree. -/
def Sources.expanded (sources : Sources) (tree : FileTree) (input : Text) (config : Option Path)
    (home template : Path) : Except Failure Text :=
  ((sources.expansion (FileTree.access input) config home template).run.run tree).1

/-- An expansion leaves all files as they are. -/
theorem run_expansion (sources : Sources) (tree : FileTree) (input : Text) (config : Option Path)
    (home template : Path) :
    (sources.expansion (FileTree.access input) config home template).run.run tree =
      (sources.expanded tree input config home template, tree) := by
  have hcarries := @carries_expansion tree tree input input home template config sources
    fun path _ => .refl tree path
  exact Prod.ext rfl hcarries.quiet

/-- An expansion gives the same text again if it finds the same files. -/
theorem expanded_keeps {t : Text}
    (h : ∀ path, sources.LooksAt before config home template path → before.Keeps after path)
    (hfresh : sources.expanded before input config home template = .ok t) :
    sources.expanded after input' config home template = .ok t := by
  have hrun := run_expansion sources before input config home template
  rw [hfresh] at hrun
  exact congrArg Prod.fst ((carries_expansion h).kept hrun)

end Stencil
