import Mathlib.Data.List.Basic
import Stencil.Proofs.Command.Check

/-! Layers of values. A name has the entry that it has in the last layer that defines it: the data
files of the configuration come first, then its values, the data files given with the template, and
the assignments. The first data file that cannot be loaded ends the command. -/

namespace Stencil

/-! ## Entries of layers -/

/-- The entries of one source of values. -/
abbrev Layer := List (Text × Value)

namespace Layer

/-- The entry of a name, the last one if there are more. -/
def last? (name : Text) (layer : Layer) : Option Value := layer.reverse.lookup name

/-- The entry of a name in the last layer that has one. -/
def top? (name : Text) (layers : List Layer) : Option Value :=
  layers.reverse.findSome? (last? name)

/-- An assignment as a layer of its own. -/
def ofAssignment (a : Assignment) : Layer := [(a.name, .text a.value)]

/-- Later entries replace earlier ones. -/
theorem find?_insertAll (layer : Layer) (values : Bindings Value) (name : Text) :
    (values.insertAll layer).find? name = (last? name layer).or (values.find? name) := by
  rw [Bindings.insertAll, List.foldl_eq_foldr_reverse, last?]
  induction layer.reverse with
  | nil => rfl
  | cons e earlier ih =>
      rw [List.foldr_cons, Bindings.find?_insert, ih, List.lookup_cons]
      by_cases h : name = e.1
      · simp [h]
      · simp [h, beq_false_of_ne h]

/-- Later layers replace earlier ones. -/
theorem find?_foldl (layers : List Layer) (values : Bindings Value) (name : Text) :
    (layers.foldl Bindings.insertAll values).find? name =
      (top? name layers).or (values.find? name) := by
  rw [List.foldl_eq_foldr_reverse, top?]
  induction layers.reverse with
  | nil => rfl
  | cons layer earlier ih =>
      rw [List.foldr_cons, find?_insertAll, ih, List.findSome?_cons]
      cases last? name layer <;> rfl

theorem assignAll_eq (assignments : List Assignment) (values : Bindings Value) :
    assignAll assignments values = (assignments.map ofAssignment).foldl .insertAll values := by
  rw [assignAll, List.foldl_map]
  rfl

end Layer

/-! ## Loading data files -/

/-- The entries of the data file at a path. -/
def FileTree.data (tree : FileTree) (path : Path) : Except Failure Layer :=
  ((tree.read path).mapError (.unreadable path)).bind (readData path)

variable {tree : FileTree} {input : Text} {paths before after : List Path} {path home : Path}
  {config : Option Path} {project : Project} {sources : Sources} {failure : Failure}
  {layers data files : List Layer}

theorem run_loadData (tree : FileTree) (input : Text) (path : Path) :
    ((FileTree.access input).loadData path).run.run tree = (tree.data path, tree) := by
  rw [FileAccess.loadData, run_bind, run_load, FileTree.data]
  cases tree.read path with
  | error fault => rfl
  | ok content =>
      simp only [Except.mapError, Except.bind]
      cases readData path content <;> rfl

theorem data_eq_ok {content : Text} {layer : Layer} (hread : tree.read path = .ok content)
    (h : (readData path content).toOption = some layer) : tree.data path = .ok layer := by
  rw [FileTree.data, hread]
  exact readData_eq_ok h

/-- Data files that can be loaded are put on top of the values one after the other. -/
theorem run_addData_of_ok (h : paths.map tree.data = layers.map .ok) (values : Bindings Value) :
    (Project.addData (FileTree.access input) paths values).run.run tree =
      (.ok (layers.foldl .insertAll values), tree) := by
  induction paths generalizing layers values with
  | nil =>
      obtain rfl : layers = [] := by simpa using h.symm
      rfl
  | cons path paths ih =>
      obtain ⟨layer, layers, rfl⟩ : ∃ layer rest, layers = layer :: rest := by
        cases layers with
        | nil => simp at h
        | cons layer rest => exact ⟨layer, rest, rfl⟩
      obtain ⟨hpath, hpaths⟩ := List.cons.inj h
      rw [Project.addData, run_bind, run_loadData, hpath]
      exact ih hpaths (values.insertAll layer)

/-- The first data file that cannot be loaded is the failure. -/
theorem run_addData_of_error (hbefore : ∀ other ∈ before, ∃ layer, tree.data other = .ok layer)
    (h : tree.data path = .error failure) (values : Bindings Value) :
    (Project.addData (FileTree.access input) (before ++ path :: after) values).run.run tree =
      (.error failure, tree) := by
  induction before generalizing values with
  | nil => rw [List.nil_append, Project.addData, run_bind, run_loadData, h]
  | cons other before ih =>
      obtain ⟨layer, hlayer⟩ := hbefore other List.mem_cons_self
      rw [List.cons_append, Project.addData, run_bind, run_loadData, hlayer]
      exact ih (fun next hnext => hbefore next (List.mem_cons_of_mem other hnext))
        (values.insertAll layer)

theorem exists_layers (h : ∀ path ∈ paths, ∃ layer, tree.data path = .ok layer) :
    ∃ layers : List Layer, paths.map tree.data = layers.map .ok := by
  induction paths with
  | nil => exact ⟨[], rfl⟩
  | cons path paths ih =>
      obtain ⟨layer, hlayer⟩ := h path List.mem_cons_self
      obtain ⟨layers, hlayers⟩ := ih fun other hother => h other (List.mem_cons_of_mem path hother)
      exact ⟨layer :: layers, by rw [List.map_cons, List.map_cons, hlayer, hlayers]⟩

/-! ## The values of an expansion -/

theorem run_project {content : Text} {config : Config}
    (hfound : (Config.candidates.map home.join).find? (tree.isFile ·) = some path)
    (hread : tree.read path = .ok content) (hconfig : Config.read? content = some config) :
    (Project.load (FileTree.access input) none home).run.run tree =
      (.ok ⟨some path, Project.rootOf path home, config⟩, tree) := by
  have hfirst := run_firstFile tree input (Config.candidates.map home.join)
  have hpath : (liftM (Project.configPath (FileTree.access input) none home) :
      Reading (Option Path)).run.run tree = (.ok (some path), tree) := by
    rw [hfound] at hfirst
    exact congrArg (Prod.map (.ok : Option Path → Except Failure (Option Path)) id) hfirst
  rw [Project.load, run_bind, hpath]
  simp only [run_bind, Project.loadConfig, run_load, hread, Except.mapError, hconfig]
  rfl

/-- The layers of the values for a template, the first one at the bottom. -/
def Sources.allLayers (sources : Sources) (project : Project) (data files : List Layer) :
    List Layer :=
  data ++ [project.config.values] ++ files ++ sources.assignments.map .ofAssignment

theorem Project.values_eq (project : Project) (input : Text) :
    project.values (FileTree.access input) =
      Project.addData (FileTree.access input) project.dataFiles .empty >>= fun values =>
        Pure.pure (values.insertAll project.config.values) := rfl

theorem run_projectValues_of_ok (h : project.dataFiles.map tree.data = data.map .ok) :
    (project.values (FileTree.access input)).run.run tree =
      (.ok ((data ++ [project.config.values]).foldl .insertAll .empty), tree) := by
  rw [Project.values_eq, run_bind, run_addData_of_ok h, List.foldl_append]
  rfl

theorem run_values_of_ok
    (hproject : (Project.load (FileTree.access input) config home).run.run tree =
      (.ok project, tree))
    (hdata : project.dataFiles.map tree.data = data.map .ok)
    (hfiles : sources.files.map tree.data = files.map .ok) :
    (sources.values (FileTree.access input) config home).run.run tree =
      (.ok ((sources.allLayers project data files).foldl .insertAll .empty), tree) := by
  rw [Sources.values, run_bind, hproject]
  simp only [run_bind, run_projectValues_of_ok hdata, run_addData_of_ok hfiles, Layer.assignAll_eq,
    Sources.allLayers, List.foldl_append]
  rfl

theorem run_projectValues_of_error (hpaths : project.dataFiles = before ++ path :: after)
    (hbefore : ∀ other ∈ before, ∃ layer, tree.data other = .ok layer)
    (h : tree.data path = .error failure) :
    (project.values (FileTree.access input)).run.run tree = (.error failure, tree) := by
  rw [Project.values_eq, hpaths, run_bind, run_addData_of_error hbefore h]

/-- The failing file is one of the configuration's, or it comes after all of these. -/
theorem run_values_of_error
    (hproject : (Project.load (FileTree.access input) config home).run.run tree =
      (.ok project, tree))
    (hpaths : project.dataFiles ++ sources.files = before ++ path :: after)
    (hbefore : ∀ other ∈ before, ∃ layer, tree.data other = .ok layer)
    (h : tree.data path = .error failure) :
    (sources.values (FileTree.access input) config home).run.run tree = (.error failure, tree) := by
  have hlate : ∀ more, before = project.dataFiles ++ more → sources.files = more ++ path :: after →
      (sources.values (FileTree.access input) config home).run.run tree =
        (.error failure, tree) := by
    rintro more rfl hfiles
    obtain ⟨data, hdata⟩ := exists_layers fun other hother =>
      hbefore other (List.mem_append_left more hother)
    have hmore := fun other hother => hbefore other (List.mem_append_right _ hother)
    rw [Sources.values, run_bind, hproject]
    simp only [run_bind, run_projectValues_of_ok hdata, hfiles, run_addData_of_error hmore h]
  rcases List.append_eq_append_iff.mp hpaths with ⟨more, hdata, hfiles⟩ | ⟨more, hdata, hmore⟩
  · exact hlate more hdata hfiles
  · cases more with
    | nil => exact hlate [] (by simpa using hdata.symm) (by simpa using hmore.symm)
    | cons other more =>
        obtain ⟨rfl, -⟩ := List.cons.inj hmore
        rw [Sources.values, run_bind, hproject]
        simp only [run_bind, run_projectValues_of_error hdata hbefore h]

/-! ## Expansions -/

/-- The expansion of the template at a path with the given values. -/
def FileTree.expansion (tree : FileTree) (values : Bindings Value) (template : Path) :
    Except Failure Text :=
  ((tree.read template).mapError (.unreadable template)).bind fun source =>
    (expandToText .bindings source values).1.mapError (.template template)

theorem expanded_of_values {values : Bindings Value}
    (h : (sources.values (FileTree.access input) config home).run.run tree = (.ok values, tree))
    (template : Path) :
    sources.expanded tree input config home template = tree.expansion values template := by
  rw [Sources.expanded, Sources.expansion, run_bind, h]
  simp only [run_bind, run_load, FileTree.expansion]
  cases tree.read template with
  | error fault => rfl
  | ok source =>
      simp only [Except.mapError, Except.bind]
      cases (expandToText .bindings source values).1 <;> rfl

theorem expanded_of_error
    (h : (sources.values (FileTree.access input) config home).run.run tree = (.error failure, tree))
    (template : Path) : sources.expanded tree input config home template = .error failure := by
  rw [Sources.expanded, Sources.expansion, run_bind, h]

/-- If all data files can be loaded, the template is expanded with the entries that the names have
in their last layers. Otherwise the first file that cannot be loaded is the failure, whatever the
template, and all files stay as they are. -/
theorem values_layered (i : Invocation) (input : Text) (tree : FileTree) (home : Path)
    (project : Project) (sources : Sources)
    (hproject : (Project.load (FileTree.access input) i.config home).run.run tree =
      (.ok project, tree)) :
    (∀ data files, project.dataFiles.map tree.data = data.map .ok →
      sources.files.map tree.data = files.map .ok →
      ∃ values : Bindings Value,
        (sources.values (FileTree.access input) i.config home).run.run tree = (.ok values, tree) ∧
        (∀ name, values.find? name = Layer.top? name (sources.allLayers project data files)) ∧
        ∀ template, sources.expanded tree input i.config home template =
          tree.expansion values template) ∧
    ∀ before path after failure, project.dataFiles ++ sources.files = before ++ path :: after →
      (∀ other ∈ before, ∃ layer, tree.data other = .ok layer) → tree.data path = .error failure →
      ∀ color template output expected showDiff,
        (Invocation.run { i with command := .expand template sources output }
          (FileTree.access input) color home).run tree = (.failed failure, tree) ∧
        (Invocation.run { i with command := .check template expected sources showDiff }
          (FileTree.access input) color home).run tree = (.failed failure, tree) := by
  refine ⟨fun data files hdata hfiles => ?_,
    fun before path after failure hpaths hbefore hfailure color template output expected showDiff => ?_⟩
  · have hvalues := run_values_of_ok hproject hdata hfiles
    refine ⟨_, hvalues, fun name => ?_, fun template => expanded_of_values hvalues template⟩
    rw [Layer.find?_foldl, Bindings.find?_empty, Option.or_none]
  · have hexpanded := expanded_of_error
      (run_values_of_error hproject hpaths hbefore hfailure) template
    exact ⟨Invocation.runExpand_of_error _ hexpanded, Invocation.runCheck_of_error _ hexpanded⟩

/-- Each of four layers is on top for one of the names, and a file that is not there ends the
command before the one after it. -/
theorem values_layered_four :
    let tree : FileTree := ⟨[['w']],
      [(["cgt.toml".toList, ['w']], .text "values.a='v'\ndata.files=['d.json']".toList),
      (["d.json".toList, ['w']], .text "\x7b\"a\":\"1\",\"b\":\"1\",\"d\":true\x7d".toList),
      (["e.json".toList, ['w']], .text "\x7b\"b\":\"2\",\"c\":\"2\"\x7d".toList)]⟩
    let i : Invocation := ⟨none, true, false, .tokens []⟩
    let home : Path := "/w".toList
    let project : Project := ⟨some "/w/cgt.toml".toList, home,
      ⟨[(['a'], .text ['v'])], ["d.json".toList], .default⟩⟩
    let data : Layer := [(['a'], .text ['1']), (['b'], .text ['1']), (['d'], .bool true)]
    let given : Layer := [(['b'], .text ['2']), (['c'], .text ['2'])]
    let sources : Sources := ⟨["e.json".toList], [⟨['c'], ['3']⟩]⟩
    let missing : Sources := ⟨["e.json".toList, ['n'], ['m']], []⟩
    (Project.load (FileTree.access []) none home).run.run tree = (.ok project, tree) ∧
      project.dataFiles.map tree.data = [data].map .ok ∧
      sources.files.map tree.data = [given].map .ok ∧
      (∃ values : Bindings Value,
        (sources.values (FileTree.access []) none home).run.run tree = (.ok values, tree) ∧
        values.find? ['a'] = some (.text ['v']) ∧ values.find? ['b'] = some (.text ['2']) ∧
        values.find? ['c'] = some (.text ['3']) ∧ values.find? ['d'] = some (.bool true) ∧
        values.find? ['e'] = none) ∧
      tree.data ['n'] = .error (.unreadable ['n'] .notFound) ∧
      (Invocation.run { i with command := .expand ['t'] missing none }
        (FileTree.access []) true home).run tree =
          (.failed (.unreadable ['n'] .notFound), tree) := by
  intro tree i home project data given sources missing
  have hproject : (Project.load (FileTree.access []) none home).run.run tree =
      (.ok project, tree) := by
    have hconfig : Config.read? "values.a='v'\ndata.files=['d.json']".toList =
        some project.config := by decide +kernel
    exact run_project rfl rfl hconfig
  have hdata : tree.data "/w/d.json".toList = .ok data := data_eq_ok rfl (by decide +kernel)
  have hgiven : tree.data "e.json".toList = .ok given := data_eq_ok rfl (by decide +kernel)
  have hmissing : tree.data ['n'] = .error (.unreadable ['n'] .notFound) := rfl
  have hlayers : project.dataFiles.map tree.data = [data].map .ok := by
    change [tree.data "/w/d.json".toList] = _
    rw [hdata]
    rfl
  have hfiles : sources.files.map tree.data = [given].map .ok := by
    change [tree.data "e.json".toList] = _
    rw [hgiven]
    rfl
  obtain ⟨values, hrun, hvalues, -⟩ :=
    (values_layered i [] tree home project sources hproject).1 [data] [given] hlayers hfiles
  have hfailed := (values_layered i [] tree home project missing hproject).2
    ["/w/d.json".toList, "e.json".toList] ['n'] [['m']] (.unreadable ['n'] .notFound) rfl
    (List.forall_mem_cons.mpr ⟨⟨data, hdata⟩, List.forall_mem_singleton.mpr ⟨given, hgiven⟩⟩)
    hmissing true ['t'] none ['t'] false
  refine ⟨hproject, hlayers, hfiles, ⟨values, hrun, ?_, ?_, ?_, ?_, ?_⟩, hmissing, hfailed.1⟩
  all_goals
    rw [hvalues]
    rfl

end Stencil
