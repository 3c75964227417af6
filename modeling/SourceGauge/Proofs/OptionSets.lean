import SourceGauge.Proofs.DirectoryVisits
import SourceGauge.Proofs.RunOutput

/-!
# Options that act as sets

Extensions and globs of excluded directories are only ever asked whether one of them matches a
name. So a run does not depend on their order, on repetitions, or on how an extension is spelled,
and what it logs has no part in what it does.
-/

namespace SourceGauge

/-! ## Discovery -/

namespace Discovery

variable {o other : Options}

/-- Options with the same extensions and the same globs, as sets. -/
structure Options.Agree (o other : Options) : Prop where
  extensions : ∀ ext, ext ∈ o.extensions ↔ ext ∈ other.extensions
  excludes : ∀ glob, glob ∈ o.excludes ↔ glob ∈ other.excludes
  gitignore : o.gitignore = other.gitignore

theorem Options.Agree.nameMatches (h : o.Agree other) (name : Name) :
    Extension.nameMatches name o.extensions = Extension.nameMatches name other.extensions := by
  rw [Bool.eq_iff_iff, nameMatches_iff, nameMatches_iff]
  simp only [h.extensions]

theorem Options.Agree.isExcluded (h : o.Agree other) (name : Name) :
    isExcluded (validExcludes o.excludes) name =
      isExcluded (validExcludes other.excludes) name := by
  rw [Bool.eq_iff_iff, isExcluded_iff, isExcluded_iff]
  simp only [Excluded, h.excludes]

theorem Options.Agree.innerLayers (h : o.Agree other) (t : FileTree) (trail l : Location)
    (layers : List Ignore.Layer) :
    innerLayers t o trail l layers = innerLayers t other trail l layers := by
  simp only [Discovery.innerLayers, h.gitignore]

theorem Options.Agree.enter (h : o.Agree other) (t : FileTree) (s : Stage) (name : Name)
    (l : Location) : s.enter t o name l = s.enter t other name l := by
  simp only [Stage.enter, h.innerLayers]

theorem Options.Agree.rootStage (h : o.Agree other) (t : FileTree) (root : Path) (l : Location) :
    rootStage t o root l = rootStage t other root l := by
  simp only [Discovery.rootStage, h.innerLayers, h.gitignore]

theorem Options.Agree.visitEntry (h : o.Agree other) (t : FileTree)
    {deeper deeper' : Stage → List Finding} (hdeeper : ∀ s, deeper s = deeper' s) (s : Stage)
    (name : Name) :
    s.visitEntry t o (validExcludes o.excludes) deeper name =
      s.visitEntry t other (validExcludes other.excludes) deeper' name := by
  simp only [Stage.visitEntry, h.nameMatches, h.isExcluded, h.enter, hdeeper]

theorem Options.Agree.visit (h : o.Agree other) (t : FileTree) (fuel : Nat) (s : Stage) :
    visit t o (validExcludes o.excludes) fuel s =
      visit t other (validExcludes other.excludes) fuel s := by
  induction fuel generalizing s with
  | zero => rfl
  | succ fuel ih =>
      rw [Discovery.visit, Discovery.visit]
      exact congrArg (List.flatMap · (t.names s.location)) (funext (h.visitEntry t ih s))

/-- What is found is the same to the order; only the notices about globs may differ. -/
theorem Options.Agree.discover (h : o.Agree other) (t : FileTree) (root : Path) :
    (discover t o root).map Prod.fst = (discover t other root).map Prod.fst := by
  have hfindings : ∀ l, findings t o root l = findings t other root l := by
    intro l
    simp only [findings, h.rootStage, h.visit]
  cases hroot : locateRoot t root with
  | error e => simp only [Discovery.discover, hroot]
  | ok l =>
      simp only [Discovery.discover, hroot, hfindings]
      rfl

end Discovery

/-! ## Plans -/

/-- Requests that differ only in the order, repetition and spelling of extensions, in the order and
repetition of globs, and in whether details are logged. -/
structure CommandLine.Request.Agree (r s : Request) : Prop where
  extensions : ∀ ext, ext ∈ r.extensions.map Extension.normalize ↔
    ext ∈ s.extensions.map Extension.normalize
  excludes : ∀ glob, glob ∈ r.excludes ↔ glob ∈ s.excludes
  root : r.root = s.root
  gitignore : r.gitignore = s.gitignore
  onReadError : r.onReadError = s.onReadError
  json : r.json = s.json
  files : r.files = s.files
  outputFile : r.outputFile = s.outputFile

namespace Run

open CommandLine (Request)

variable {r s : Request}

/-- Only a request without extensions leaves them to the settings. -/
theorem isEmpty_extensions (h : r.Agree s) : r.extensions.isEmpty = s.extensions.isEmpty := by
  have hnil : ∀ q : Request, q.extensions.isEmpty = true ↔
      ∀ ext, ext ∉ q.extensions.map Extension.normalize := by
    intro q
    rw [List.isEmpty_iff, ← List.eq_nil_iff_forall_not_mem, List.map_eq_nil_iff]
  rw [Bool.eq_iff_iff, hnil, hnil]
  simp only [h.extensions]

/-- Plans that look through the same files and treat read errors alike. -/
structure Plan.Agree (p q : Plan) : Prop where
  root : p.root = q.root
  options : p.options.Agree q.options
  policy : p.policy = q.policy

theorem Plan.ofConfig_agree (h : r.Agree s) (c : Settings.Config) :
    (ofConfig r c).Agree (ofConfig s c) := by
  refine ⟨?_, ⟨?_, ?_, ?_⟩, ?_⟩
  · simp only [ofConfig, h.root]
  · intro ext
    simp only [ofConfig, List.mem_eraseDups, isEmpty_extensions h]
    split
    · rfl
    · exact h.extensions ext
  · intro glob
    simp only [ofConfig, List.mem_eraseDups, List.mem_append, h.excludes]
  · simp only [ofConfig, h.gitignore]
  · simp only [ofConfig, h.onReadError]

theorem Plan.make_agree (h : r.Agree s) (t : FileTree) : (make t r).Agree (make t s) := by
  unfold make
  rw [h.root]
  exact ofConfig_agree h _

/-! ## Runs -/

/-- Outcomes that differ at most in what is logged. -/
structure Outcome.SameButLog (o other : Outcome) : Prop where
  status : o.status = other.status
  output : o.output = other.output
  tree : o.tree = other.tree

theorem finish_sameButLog (h : r.Agree s) {p q : Plan} (hplan : p.Agree q) (t : FileTree)
    (log log' : List (List Char)) (files : List Path) :
    (finish t r p log files).SameButLog (finish t s q log' files) := by
  have hcontent : content r = content s := by
    funext run
    simp only [content, h.json, h.files]
  -- details are logged without a bar, but the result does not depend on the bar
  cases hrun : (files.map (analyzeFile t)).foldlM (AnalysisRun.add q.policy) .empty with
  | error e =>
      simp only [finish, analyzePaths_run, hplan.policy, hrun]
      exact ⟨rfl, rfl, rfl⟩
  | ok run =>
      cases hemit : emit t (content s run) s.outputFile with
      | error e =>
          simp only [finish, analyzePaths_run, hplan.policy, hrun, hcontent, h.outputFile, hemit]
          exact ⟨rfl, rfl, rfl⟩
      | ok result =>
          simp only [finish, analyzePaths_run, hplan.policy, hrun, hcontent, h.outputFile, hemit]
          exact ⟨rfl, rfl, rfl⟩

theorem ofRequest_sameButLog (h : r.Agree s) (t : FileTree) :
    (ofRequest t r).SameButLog (ofRequest t s) := by
  have hplan := Plan.make_agree h t
  cases hcheck : (s.outputFile.map (checkOutput t)).getD (.ok ()) with
  | error e =>
      simp only [ofRequest, h.outputFile, hcheck]
      exact ⟨rfl, rfl, rfl⟩
  | ok checked =>
      have hfound := hplan.options.discover t (Plan.make t s).root
      simp only [ofRequest, h.outputFile, hcheck, hplan.root]
      cases hr : Discovery.discover t (Plan.make t r).options (Plan.make t s).root with
      | error e =>
          cases hs : Discovery.discover t (Plan.make t s).options (Plan.make t s).root with
          | error e' => exact ⟨rfl, rfl, rfl⟩
          | ok found' =>
              rw [hr, hs] at hfound
              cases hfound
      | ok found =>
          cases hs : Discovery.discover t (Plan.make t s).options (Plan.make t s).root with
          | error e' =>
              rw [hr, hs] at hfound
              cases hfound
          | ok found' =>
              rw [hr, hs] at hfound
              have hfiles : found.1 = found'.1 := Except.ok.inj hfound
              simp only [hfiles]
              exact finish_sameButLog h hplan t _ _ _

/-- Extensions and excluded directories act as sets, and logging details changes nothing else. -/
theorem repeatable_options_act_as_sets (t : FileTree) (arguments arguments' : List (List Char))
    (r s : Request) (hr : CommandLine.parse arguments = .ok r)
    (hs : CommandLine.parse arguments' = .ok s) (h : r.Agree s) :
    (ofArguments t arguments).status = (ofArguments t arguments').status ∧
    (ofArguments t arguments).output = (ofArguments t arguments').output ∧
    (ofArguments t arguments).tree = (ofArguments t arguments').tree := by
  rw [ofArguments_of_parse t hr, ofArguments_of_parse t hs]
  have hsame := ofRequest_sameButLog h t
  exact ⟨hsame.status, hsame.output, hsame.tree⟩

/-- A source whose name has two of the extensions, and two directories to be left out. -/
def mixedTree : FileTree where
  entries :=
    [(["src".toList], .directory),
      (["src".toList, "a.d.js".toList], .file (Text.encode "f()".toList)),
      (["src".toList, "dist".toList], .directory),
      (["src".toList, "dist".toList, "b.js".toList], .file []),
      (["src".toList, "build".toList], .directory),
      (["src".toList, "build".toList, "c.js".toList], .file [])]
  current := []

def tersely : List (List Char) :=
  ["--ext=js", "--ext", " .d.js", "--exclude=dist", "--exclude=b*", "src"].map String.toList

def verbosely : List (List Char) :=
  ["-v", "--exclude=b*", "src", "--ext=.d.js", "--ext=d.js ", "--ext=.js", "--exclude=dist",
    "--exclude=b*"].map String.toList

def terseRequest : Request :=
  { Request.empty with
    root := some ⟨"src".toList⟩
    extensions := ["js".toList, " .d.js".toList]
    excludes := ["dist".toList, "b*".toList] }

def verboseRequest : Request :=
  { Request.empty with
    root := some ⟨"src".toList⟩
    extensions := [".d.js".toList, "d.js ".toList, ".js".toList]
    excludes := ["b*".toList, "dist".toList, "b*".toList]
    verbose := true }

theorem terseRequest_agree : terseRequest.Agree verboseRequest := by
  have hblank : ∀ c ∈ [' '], Text.isBlank c = true := List.forall_mem_singleton.2 (by decide)
  have hdotJs : Extension.normalize ".js".toList = Extension.normalize "js".toList := by
    refine Extension.normalize_dot fun c hc => ?_
    cases hc
    decide
  have hdotD : Extension.normalize ".d.js".toList = Extension.normalize "d.js".toList := by
    refine Extension.normalize_dot fun c hc => ?_
    cases hc
    decide
  have hleft : Extension.normalize " .d.js".toList = Extension.normalize ".d.js".toList :=
    Extension.normalize_blanks ".d.js".toList hblank (List.forall_mem_nil _)
  have hright : Extension.normalize "d.js ".toList = Extension.normalize "d.js".toList :=
    Extension.normalize_blanks "d.js".toList (List.forall_mem_nil _) hblank
  refine ⟨fun ext => ?_, fun glob => ?_, rfl, rfl, rfl, rfl, rfl, rfl⟩
  · simp only [terseRequest, verboseRequest, List.map_cons, List.map_nil, hleft, hright, hdotD,
      hdotJs]
    grind
  · simp only [terseRequest, verboseRequest]
    grind

theorem repeatable_options_act_as_sets_mixed :
    CommandLine.parse tersely = .ok terseRequest ∧
    CommandLine.parse verbosely = .ok verboseRequest ∧
    (ofArguments mixedTree tersely).status = .ok 0 ∧
    (ofArguments mixedTree tersely).output = (ofArguments mixedTree verbosely).output ∧
    (ofArguments mixedTree tersely).log ≠ (ofArguments mixedTree verbosely).log := by
  have hterse : CommandLine.parse tersely = .ok terseRequest := by decide +kernel
  have hverbose : CommandLine.parse verbosely = .ok verboseRequest := by decide +kernel
  have hsame := repeatable_options_act_as_sets mixedTree tersely verbosely terseRequest
    verboseRequest hterse hverbose terseRequest_agree
  exact ⟨hterse, hverbose, by decide +kernel, hsame.2.1, by decide +kernel⟩

end Run

end SourceGauge
