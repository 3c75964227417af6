import SourceGauge.Proofs.OutputOption
import SourceGauge.Proofs.ReadPolicies
import SourceGauge.Proofs.Resolution
import SourceGauge.Run.Outcome

/-!
# Where the output of a run goes

A run that stops early prints nothing and writes nothing. A run that comes to its end has one text,
which it prints or, if an output file is asked for, writes there and nowhere else. The text is the
same either way, since the tree is read before the file is written.
-/

namespace SourceGauge.Run

open CommandLine (Request)

/-- The run stopped before it had anything to print. -/
structure Outcome.Silent (o : Outcome) (t : FileTree) : Prop where
  status : o.status ≠ .ok 0
  output : o.output = []
  tree : o.tree = t

/-- The run came to its end with a text, which went where the request says. -/
structure Outcome.Delivers (o : Outcome) (t : FileTree) (text : List Char)
    (file : Option Path) : Prop where
  status : o.status = .ok 0
  emitted : emit t text file = .ok (o.output, o.tree)

theorem finish_cases (t : FileTree) (r : Request) (p : Plan) (log log' : List (List Char))
    (files : List Path) :
    (finish t r p log files).Silent t ∨
      ∃ text, (finish t r p log files).Delivers t text r.outputFile ∧
        (finish t r.printed p log' files).Delivers t text none := by
  cases hrun : (files.map (analyzeFile t)).foldlM (AnalysisRun.add p.policy) .empty with
  | error e =>
      refine Or.inl ?_
      simp only [finish, analyzePaths_run, hrun]
      exact ⟨by simp, rfl, rfl⟩
  | ok run =>
      have hcontent : content r.printed run = content r run := rfl
      cases hemit : emit t (content r run) r.outputFile with
      | error e =>
          refine Or.inl ?_
          simp only [finish, analyzePaths_run, hrun, hemit]
          exact ⟨by simp, rfl, rfl⟩
      | ok result =>
          refine Or.inr ⟨content r run, ?_, ?_⟩
          · simp only [finish, analyzePaths_run, hrun, hemit]
            exact ⟨rfl, hemit⟩
          · simp only [finish, analyzePaths_run, hrun, hcontent]
            exact ⟨rfl, rfl⟩

/-- A run is silent or delivers, and what it delivers does not depend on where. -/
theorem ofRequest_cases (t : FileTree) (r : Request) :
    (ofRequest t r).Silent t ∨
      ∃ text, (ofRequest t r).Delivers t text r.outputFile ∧
        (ofRequest t r.printed).Delivers t text none := by
  have hplan : Plan.make t r.printed = Plan.make t r := rfl
  have hcheck : (r.printed.outputFile.map (checkOutput t)).getD (.ok ()) = .ok () := rfl
  cases houtput : (r.outputFile.map (checkOutput t)).getD (.ok ()) with
  | error e =>
      refine Or.inl ?_
      simp only [ofRequest, houtput]
      exact ⟨by simp, rfl, rfl⟩
  | ok checked =>
      cases hfound : Discovery.discover t (Plan.make t r).options (Plan.make t r).root with
      | error e =>
          refine Or.inl ?_
          simp only [ofRequest, houtput, hfound]
          exact ⟨by simp, rfl, rfl⟩
      | ok found =>
          obtain ⟨files, notices⟩ := found
          simp only [ofRequest, houtput, hcheck, hplan, hfound]
          exact finish_cases t r _ _ _ files

theorem ofArguments_of_parse (t : FileTree) {arguments : List (List Char)} {r : Request}
    (h : CommandLine.parse arguments = .ok r) : ofArguments t arguments = ofRequest t r := by
  rw [ofArguments, h]

/-- The tree behind a delivery to a file differs from the one before in that file only. -/
theorem Outcome.Delivers.written {o : Outcome} {t : FileTree} {text : List Char} {f : Path}
    (h : o.Delivers t text (some f)) :
    o.output = [] ∧ ∃ l, t.fileTarget f = .ok l ∧
      o.tree = t.put l (.file (Text.encode text)) := by
  have hemitted := h.emitted
  unfold emit at hemitted
  cases htarget : t.fileTarget f with
  | error cause =>
      have hwrite : t.writeFile f text = .error cause := by
        rw [FileTree.writeFile, htarget]
        rfl
      simp only [hwrite, reduceCtorEq] at hemitted
  | ok l =>
      have hwrite : t.writeFile f text = .ok (t.put l (.file (Text.encode text))) := by
        rw [FileTree.writeFile, htarget]
        rfl
      simp only [hwrite, Except.ok.injEq, Prod.mk.injEq] at hemitted
      exact ⟨hemitted.1.symm, l, rfl, hemitted.2.symm⟩

/-- A text that is printed leaves the tree alone. -/
theorem Outcome.Delivers.shown {o : Outcome} {t : FileTree} {text : List Char}
    (h : o.Delivers t text none) : o.output = text ∧ o.tree = t := by
  have hemitted := h.emitted
  simp only [emit, Except.ok.injEq, Prod.mk.injEq] at hemitted
  exact ⟨hemitted.1.symm, hemitted.2.symm⟩

/-- What a run has to show goes to one place, whole or not at all. -/
theorem output_goes_to_one_place (t : FileTree) (arguments : List (List Char)) (r : Request)
    (h : CommandLine.parse arguments = .ok r) :
    ((ofArguments t arguments).status ≠ .ok 0 →
      (ofArguments t arguments).output = [] ∧ (ofArguments t arguments).tree = t) ∧
    ((ofArguments t arguments).status = .ok 0 → r.outputFile = none →
      (ofArguments t arguments).tree = t) ∧
    (∀ f, (ofArguments t arguments).status = .ok 0 → r.outputFile = some f →
      (ofArguments t arguments).output = [] ∧
      (ofArguments t (CommandLine.withoutOutput arguments)).status = .ok 0 ∧
      ∃ l, t.fileTarget f = .ok l ∧
        (ofArguments t arguments).tree.node? l =
          some (.file (Text.encode
            (ofArguments t (CommandLine.withoutOutput arguments)).output)) ∧
        (∀ m, m ≠ l → (ofArguments t arguments).tree.node? m = t.node? m) ∧
        (ofArguments t arguments).tree.current = t.current ∧
        (t.WellFormed → (ofArguments t arguments).tree.locate f = .ok l)) := by
  rw [ofArguments_of_parse t h, ofArguments_of_parse t (CommandLine.parse_withoutOutput h)]
  rcases ofRequest_cases t r with hsilent | ⟨text, hdelivers, hprinted⟩
  · refine ⟨fun _ => ⟨hsilent.output, hsilent.tree⟩, fun hok => absurd hok hsilent.status, ?_⟩
    intro f hok
    exact absurd hok hsilent.status
  · refine ⟨fun hfailed => absurd hdelivers.status hfailed, ?_, ?_⟩
    · intro _ hfile
      rw [hfile] at hdelivers
      exact hdelivers.shown.2
    · intro f _ hfile
      rw [hfile] at hdelivers
      obtain ⟨houtput, l, htarget, htree⟩ := hdelivers.written
      have hl := FileTree.ne_nil_of_fileTarget htarget
      refine ⟨houtput, hprinted.status, l, htarget, ?_, ?_, ?_, ?_⟩
      · rw [htree, hprinted.shown.1, FileTree.node?_put hl, if_pos rfl]
      · intro m hm
        rw [htree, FileTree.node?_put hl, if_neg hm]
      · rw [htree, FileTree.current_put]
      · intro hwf
        rw [htree]
        exact FileTree.locate_put_fileTarget hwf htarget

/-- One source file in one directory. -/
def oneSource : FileTree where
  entries :=
    [(["src".toList], .directory),
      (["src".toList, "a.js".toList], .file (Text.encode "if (a) { b(); }".toList))]
  current := []

/-- The report is to replace the one source file that it is about. -/
def overSource : List (List Char) :=
  ["--output-file=src/a.js".toList, "src".toList]

theorem output_goes_to_one_place_over_source :
    oneSource.WellFormed ∧ (ofArguments oneSource overSource).status = .ok 0 ∧
    (ofArguments oneSource overSource).output = [] ∧
    ∃ l, oneSource.fileTarget ⟨"src/a.js".toList⟩ = .ok l ∧
      (ofArguments oneSource overSource).tree.node? l =
        some (.file (Text.encode (ofArguments oneSource ["src".toList]).output)) ∧
      (ofArguments oneSource overSource).tree.locate ⟨"src/a.js".toList⟩ = .ok l := by
  have hwf : oneSource.WellFormed := by decide +kernel
  have hstatus : (ofArguments oneSource overSource).status = .ok 0 := by decide +kernel
  obtain ⟨_, _, hwritten⟩ := output_goes_to_one_place oneSource overSource
    { root := some ⟨"src".toList⟩, extensions := [], excludes := [], gitignore := false,
      onReadError := none, json := false, files := false,
      outputFile := some ⟨"src/a.js".toList⟩, verbose := false } (by decide +kernel)
  obtain ⟨houtput, _, l, htarget, hnode, _, _, hlocate⟩ := hwritten _ hstatus rfl
  exact ⟨hwf, hstatus, houtput, l, htarget, hnode, hlocate hwf⟩

end SourceGauge.Run
