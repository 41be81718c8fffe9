import Stencil.Proofs.Files.Reading
import Stencil.Proofs.Scan.Lines

/-! Expanding a template and checking a file against it. A check accepts what an expansion has
written or printed, and nothing else but the text without its last line break. -/

namespace Stencil

variable {tree after : FileTree} {input t content : Text} {home template path : Path}
  {sources : Sources} {output : Option Path} {failure : Failure}

/-! ## Line breaks at the end -/

theorem lineEnded_cases (t : Text) : t = lineEnded t ∨ t ++ ['\n'] = lineEnded t := by
  unfold lineEnded
  split
  · exact .inl rfl
  · exact .inr rfl

/-! ## Data files -/

theorem readData_eq_ok {entries : List (Text × Value)}
    (h : (readData path content).toOption = some entries) :
    readData path content = .ok entries := by
  cases hread : readData path content with
  | error failure =>
      rw [hread] at h
      nomatch h
  | ok found =>
      rw [hread] at h
      exact congrArg Except.ok (Option.some.inj h)

/-! ## Exit codes -/

theorem Outcome.exitCode_failed (failure : Failure) : (Outcome.failed failure).exitCode ≠ 0 := by
  cases failure <;> simp [exitCode, failed]

namespace Invocation

variable (i : Invocation)

theorem exitCode_compared (styled showDiff : Bool) (expected : Path) (current fresh : Text) :
    (compared styled showDiff expected current fresh).exitCode =
      if current = fresh ∨ current ++ ['\n'] = fresh then 0 else 1 := by
  unfold compared
  split <;> rfl

/-! ## Expanding -/

theorem runExpand_of_error
    (h : sources.expanded tree input i.config home template = .error failure) :
    (i.runExpand (FileTree.access input) home template sources output).run tree =
      (.failed failure, tree) := by
  rw [runExpand, StateT.run_bind, run_expansion, h]
  rfl

theorem runExpand_none (h : sources.expanded tree input i.config home template = .ok t) :
    (i.runExpand (FileTree.access input) home template sources none).run tree =
      ({ Outcome.printed (lineEnded t) with logged := i.verbose }, tree) := by
  rw [runExpand, StateT.run_bind, run_expansion, h]
  rfl

theorem runExpand_some (h : sources.expanded tree input i.config home template = .ok t) :
    (i.runExpand (FileTree.access input) home template sources (some path)).run tree =
      match tree.write path t with
      | .ok after =>
        ({ Outcome.printed [] with
          notes := if i.verbose then ["Wrote ".toList ++ path] else []
          logged := i.verbose }, after)
      | .error fault =>
        ({ Outcome.failed (.unwritable path fault) with logged := i.verbose }, tree) := by
  have hwrite : ((FileTree.access input).write path t).run tree =
      match tree.write path t with
      | .ok after => (.ok (), after)
      | .error fault => (.error fault, tree) := by
    simp only [FileTree.access, StateT.run_bind, StateT.run_get, pure_bind]
    cases tree.write path t <;> rfl
  rw [runExpand, StateT.run_bind, run_expansion, h]
  change (((FileTree.access input).write path t) >>= _).run tree = _
  rw [StateT.run_bind, hwrite]
  cases tree.write path t <;> rfl

/-- What a successful expansion prints. -/
theorem printed_of_runExpand
    (h : ((i.runExpand (FileTree.access input) home template sources none).run
      tree).1.exitCode = 0) :
    ∃ t, sources.expanded tree input i.config home template = .ok t ∧
      ((i.runExpand (FileTree.access input) home template sources none).run tree).1.stdout =
        lineEnded t := by
  cases hfresh : sources.expanded tree input i.config home template with
  | error failure =>
      rw [runExpand_of_error i hfresh] at h
      exact (Outcome.exitCode_failed failure h).elim
  | ok t => exact ⟨t, rfl, by rw [runExpand_none i hfresh]; rfl⟩

/-- What a successful expansion writes. -/
theorem written_of_runExpand
    (h : ((i.runExpand (FileTree.access input) home template sources (some path)).run
      tree).1.exitCode = 0) :
    ∃ t, sources.expanded tree input i.config home template = .ok t ∧ tree.write path t =
      .ok ((i.runExpand (FileTree.access input) home template sources (some path)).run tree).2 := by
  cases hfresh : sources.expanded tree input i.config home template with
  | error failure =>
      rw [runExpand_of_error i hfresh] at h
      exact (Outcome.exitCode_failed failure h).elim
  | ok t =>
      refine ⟨t, rfl, ?_⟩
      rw [runExpand_some i hfresh] at h ⊢
      cases hwrite : tree.write path t with
      | error fault =>
          rw [hwrite] at h
          exact (Outcome.exitCode_failed (.unwritable path fault) h).elim
      | ok after => rfl

/-- Writing comes last, so whatever fails leaves all files as they are. -/
theorem quiet_runExpand
    (h : ((i.runExpand (FileTree.access input) home template sources output).run
      tree).1.exitCode ≠ 0) :
    ((i.runExpand (FileTree.access input) home template sources output).run tree).2 = tree := by
  cases hfresh : sources.expanded tree input i.config home template with
  | error failure => rw [runExpand_of_error i hfresh]
  | ok t =>
      cases output with
      | none => rw [runExpand_none i hfresh]
      | some path =>
          rw [runExpand_some i hfresh] at h ⊢
          cases hwrite : tree.write path t with
          | error fault => rfl
          | ok after =>
              rw [hwrite] at h
              exact (h rfl).elim

/-! ## Checking -/

variable {styled showDiff : Bool}

theorem runCheck_of_error
    (h : sources.expanded tree input i.config home template = .error failure) :
    (i.runCheck (FileTree.access input) styled home template path sources showDiff).run tree =
      (.failed failure, tree) := by
  rw [runCheck, StateT.run_bind, run_expansion, h]
  rfl

theorem runCheck_of_ok (h : sources.expanded tree input i.config home template = .ok t) :
    (i.runCheck (FileTree.access input) styled home template path sources showDiff).run tree =
      match tree.read path with
      | .ok current =>
        ({ compared styled showDiff path current (lineEnded t) with logged := i.verbose }, tree)
      | .error fault =>
        ({ Outcome.failed (.unreadable path fault) with logged := i.verbose }, tree) := by
  rw [runCheck, StateT.run_bind, run_expansion, h]
  change (((FileTree.access input).load path).run >>= _).run tree = _
  rw [StateT.run_bind, run_load]
  cases tree.read path <;> rfl

/-- A check leaves all files as they are. -/
theorem quiet_runCheck (tree : FileTree) (input : Text) (home template path : Path)
    (sources : Sources) :
    ((i.runCheck (FileTree.access input) styled home template path sources showDiff).run tree).2 =
      tree := by
  cases hfresh : sources.expanded tree input i.config home template with
  | error failure => rw [runCheck_of_error i hfresh]
  | ok t =>
      rw [runCheck_of_ok i hfresh]
      cases tree.read path <;> rfl

theorem exitCode_runCheck (hfresh : sources.expanded tree input i.config home template = .ok t)
    (hread : tree.read path = .ok content) :
    ((i.runCheck (FileTree.access input) styled home template path sources showDiff).run
      tree).1.exitCode =
        if content = lineEnded t ∨ content ++ ['\n'] = lineEnded t then 0 else 1 := by
  rw [runCheck_of_ok i hfresh, hread]
  exact exitCode_compared styled showDiff path content (lineEnded t)

/-- What is written elsewhere does not change the expansion, so it is compared with what it was
made from. -/
theorem exitCode_runCheck_write {input' : Text} (hwrite : tree.write path content = .ok after)
    (hapart : ∀ other, sources.LooksAt tree i.config home template other →
      tree.locate other ≠ tree.locate path)
    (hfresh : sources.expanded tree input' i.config home template = .ok t)
    (hcontent : content = lineEnded t ∨ content ++ ['\n'] = lineEnded t) :
    ((i.runCheck (FileTree.access input) styled home template path sources showDiff).run
      after).1.exitCode = 0 := by
  obtain ⟨place, hplace, hgiven⟩ := FileTree.given_of_write hwrite
  rw [hplace] at hapart
  have hagain : sources.expanded after input i.config home template = .ok t :=
    expanded_keeps (fun other hother => hgiven.keeps (hapart other hother)) hfresh
  rw [exitCode_runCheck i hagain (hgiven.read_self hplace), if_pos hcontent]

end Invocation

/-! ## Both -/

/-- A check accepts a file that an expansion has written, or that holds what an expansion prints, if
nothing else is read from it. It accepts just that text, with or without the last line break. A
failed expansion and any check leave all files as they are. -/
theorem check_agrees_with_expand (i j : Invocation) (color color' showDiff : Bool)
    (input input' : Text) (tree : FileTree) (home template path : Path) (sources : Sources) :
    let expand := fun output tree =>
      (Invocation.run { i with command := .expand template sources output }
        (FileTree.access input) color home).run tree
    let check := fun tree =>
      (Invocation.run { j with
        config := i.config, command := .check template path sources showDiff }
        (FileTree.access input') color' home).run tree
    let printed := (expand none tree).1
    ((∀ other, sources.LooksAt tree i.config home template other →
        tree.locate other ≠ tree.locate path) →
      ((expand (some path) tree).1.exitCode = 0 →
        (check (expand (some path) tree).2).1.exitCode = 0) ∧
      ∀ after, printed.exitCode = 0 → tree.write path printed.stdout = .ok after →
        (check after).1.exitCode = 0) ∧
    (∀ content, printed.exitCode = 0 → tree.read path = .ok content →
      (check tree).1.exitCode =
        if content = printed.stdout ∨ content ++ ['\n'] = printed.stdout then 0 else 1) ∧
    (∀ output, (expand output tree).1.exitCode ≠ 0 → (expand output tree).2 = tree) ∧
    (check tree).2 = tree := by
  intro expand check printed
  refine ⟨fun hapart => ⟨fun hexit => ?_, fun after hexit hwrite => ?_⟩,
    fun content hexit hread => ?_, fun output hexit => ?_, ?_⟩
  · obtain ⟨t, hfresh, hwrite⟩ := Invocation.written_of_runExpand _ hexit
    exact Invocation.exitCode_runCheck_write _ hwrite hapart hfresh (lineEnded_cases t)
  · obtain ⟨t, hfresh, hprinted⟩ := Invocation.printed_of_runExpand _ hexit
    exact Invocation.exitCode_runCheck_write _ hwrite hapart hfresh (.inl hprinted)
  · obtain ⟨t, hfresh, hprinted⟩ := Invocation.printed_of_runExpand _ hexit
    have hagain : sources.expanded tree input' i.config home template = .ok t :=
      expanded_keeps (fun other _ => .refl tree other) hfresh
    have hstdout : printed.stdout = lineEnded t := hprinted
    rw [hstdout]
    exact Invocation.exitCode_runCheck _ hagain hread
  · exact Invocation.quiet_runExpand _ hexit
  · exact Invocation.quiet_runCheck _ tree input' home template path sources

/-- A stale file is told from a fresh one, and is up to date when the expansion has replaced it. The
value comes from a data file of the configuration. -/
theorem check_agrees_with_expand_stale :
    let tree : FileTree := ⟨[['w']], [([['t'], ['w']], .text "[[[n]]]".toList),
      (["cgt.toml".toList, ['w']], .text "data.files=['d.json']".toList),
      (["d.json".toList, ['w']], .text "\x7b\"n\":\"1\"\x7d".toList),
      ([['o'], ['w']], .text ['2'])]⟩
    let i : Invocation := ⟨none, false, false, .tokens []⟩
    let expand := (Invocation.run { i with command := .expand ['t'] ⟨[], []⟩ (some ['o']) }
      (FileTree.access []) true "/w".toList).run tree
    let check := fun tree =>
      (Invocation.run { i with command := .check ['t'] ['o'] ⟨[], []⟩ false }
        (FileTree.access []) true "/w".toList).run tree
    (check tree).1.exitCode = 1 ∧ expand.1.exitCode = 0 ∧ (check expand.2).1.exitCode = 0 := by
  have hconfig : Config.read? "data.files=['d.json']".toList =
      some ⟨[], ["d.json".toList], .default⟩ := by decide +kernel
  have hjson : readData "/w/d.json".toList "\x7b\"n\":\"1\"\x7d".toList =
      .ok [(['n'], .text ['1'])] := readData_eq_ok (by decide +kernel)
  intro tree i expand check
  let home : Path := "/w".toList
  let config : Config := ⟨[], ["d.json".toList], .default⟩
  let project : Project := ⟨some "/w/cgt.toml".toList, home, config⟩
  let values : Bindings Value := ⟨[(['n'], .text ['1'])]⟩
  have hproject : ∀ input, (Project.load (FileTree.access input) none home).run.run tree =
      (.ok project, tree) := by
    intro input
    have hfound : (liftM (Project.configPath (FileTree.access input) none home) :
        Reading (Option Path)).run.run tree = (.ok (some "/w/cgt.toml".toList), tree) := rfl
    have hload : ((FileTree.access input).load "/w/cgt.toml".toList).run.run tree =
        (.ok "data.files=['d.json']".toList, tree) := rfl
    rw [Project.load, run_bind, hfound]
    simp only [run_bind, Project.loadConfig, hload, hconfig]
    rfl
  have hvalues : (Sources.values ⟨[], []⟩ (FileTree.access []) none home).run.run tree =
      (.ok values, tree) := by
    have hload : ((FileTree.access []).load "/w/d.json".toList).run.run tree =
        (.ok "\x7b\"n\":\"1\"\x7d".toList, tree) := rfl
    have hdata : (project.values (FileTree.access [])).run.run tree = (.ok values, tree) := by
      change (Project.addData (FileTree.access []) ["/w/d.json".toList] .empty >>=
        _).run.run tree = _
      simp only [run_bind, Project.addData, FileAccess.loadData, hload, hjson]
      rfl
    rw [Sources.values, run_bind, hproject]
    simp only [run_bind, hdata]
    rfl
  have hfresh : Sources.expanded ⟨[], []⟩ tree [] none home ['t'] = .ok ['1'] := by
    have hload : ((FileTree.access []).load ['t']).run.run tree =
        (.ok "[[[n]]]".toList, tree) := rfl
    have hlines : Stencil.expand .bindings "[[[n]]]".toList values = (.ok [['1']], values) := by
      rw [Stencil.expand, Lines.tokenize_line rfl]
      rfl
    rw [Sources.expanded, Sources.expansion, run_bind, hvalues]
    simp only [run_bind, hload, expandToText, hlines]
    rfl
  have hapart : ∀ other, Sources.LooksAt ⟨[], []⟩ tree none home ['t'] other →
      tree.locate other ≠ tree.locate ['o'] := by
    intro other hother
    suffices hplaces : (tree.locate other).toOption ≠ (tree.locate ['o']).toOption from
      fun heq => hplaces (congrArg _ heq)
    cases hother with
    | template => decide
    | config h =>
        simp only [configPaths, Option.elim, Config.candidates, List.map_cons, List.map_nil,
          List.mem_cons, List.not_mem_nil, or_false] at h
        rcases h with rfl | rfl | rfl <;> decide
    | @data _ loaded input hload h =>
        obtain rfl : project = loaded :=
          Except.ok.inj (congrArg Prod.fst ((hproject input).symm.trans hload))
        obtain rfl : other = "/w/d.json".toList := List.mem_singleton.mp h
        decide
    | file h => simp at h
  obtain ⟨hunread, hread, -, -⟩ :=
    check_agrees_with_expand i i true true false [] [] tree home ['t'] ['o'] ⟨[], []⟩
  have hwritten : expand.1.exitCode = 0 :=
    congrArg (·.1.exitCode) (Invocation.runExpand_some { i with command := _ } hfresh)
  have hprinted : (Invocation.run { i with command := .expand ['t'] ⟨[], []⟩ none }
      (FileTree.access []) true home).run tree =
        ({ Outcome.printed (lineEnded ['1']) with logged := false }, tree) :=
    Invocation.runExpand_none { i with command := .expand ['t'] ⟨[], []⟩ none } hfresh
  have hstale := hread ['2']
  simp only [hprinted] at hstale
  exact ⟨hstale rfl rfl, hwritten, (hunread hapart).1 hwritten⟩

end Stencil
