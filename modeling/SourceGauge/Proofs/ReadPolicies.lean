import Mathlib.Data.List.Forall2
import SourceGauge.Analysis
import SourceGauge.Proofs.Resolution

/-!
# The two read policies

An analysis that skips unreadable files sorts its paths into records and errors, both in the order
of the paths. One that aborts on them gives the same run if there is no error, and the first error
otherwise. Neither the order in which workers take up the files nor an attached bar has a part in
the result, and the bar counts every path.
-/

namespace SourceGauge

/-- The path leads to a file with text in it. -/
def Readable (t : FileTree) (p : Path) : Prop := ∃ content, t.read p = .ok content

instance (t : FileTree) : DecidablePred (Readable t) := fun p =>
  match h : t.read p with
  | .ok content => isTrue ⟨content, h⟩
  | .error _ => isFalse fun ⟨_, hok⟩ => by rw [h] at hok; cases hok

/-- The error of reading what the path leads to, under the name of that path. -/
def FaultOf (t : FileTree) (p : Path) (e : AnalysisError) : Prop :=
  ∃ cause, t.read p = .error cause ∧ e = .read p cause

theorem analyzeFile_eq_ok_readable {t : FileTree} {p : Path} {f : FileMetrics}
    (h : analyzeFile t p = .ok f) : Readable t p := by
  unfold analyzeFile at h
  cases hr : t.read p with
  | ok content => exact ⟨content, hr⟩
  | error cause => simp [hr] at h

theorem analyzeFile_eq_error_iff {t : FileTree} {p : Path} {e : AnalysisError} :
    analyzeFile t p = .error e ↔ FaultOf t p e := by
  unfold analyzeFile FaultOf
  cases hr : t.read p with
  | ok content => simp
  | error cause => simp [eq_comm]

theorem FaultOf.not_readable {t : FileTree} {p : Path} {e : AnalysisError} (h : FaultOf t p e) :
    ¬ Readable t p := by
  rintro ⟨content, hr⟩
  obtain ⟨cause, hc, -⟩ := h
  rw [hr] at hc
  cases hc

/-! ## Sorted paths -/

/-- Each path gives its record or its error, in the order of the paths. -/
inductive Sorted (t : FileTree) : List Path → List FileMetrics → List AnalysisError → Prop where
  | nil : Sorted t [] [] []
  | record {p paths f files errors} (here : analyzeFile t p = .ok f)
      (rest : Sorted t paths files errors) : Sorted t (p :: paths) (f :: files) errors
  | fault {p paths e files errors} (here : FaultOf t p e)
      (rest : Sorted t paths files errors) : Sorted t (p :: paths) files (e :: errors)

theorem exists_sorted (t : FileTree) (paths : List Path) :
    ∃ files errors, Sorted t paths files errors := by
  induction paths with
  | nil => exact ⟨[], [], .nil⟩
  | cons p paths ih =>
      obtain ⟨files, errors, h⟩ := ih
      cases hp : analyzeFile t p with
      | ok f => exact ⟨f :: files, errors, .record hp h⟩
      | error e => exact ⟨files, e :: errors, .fault (analyzeFile_eq_error_iff.1 hp) h⟩

namespace Sorted

variable {t : FileTree} {paths : List Path} {files : List FileMetrics}
  {errors : List AnalysisError}

theorem records (h : Sorted t paths files errors) :
    List.Forall₂ (fun p f => analyzeFile t p = .ok f) (paths.filter (Readable t)) files := by
  induction h with
  | nil => exact .nil
  | record here rest ih =>
      rw [List.filter_cons_of_pos (by simpa using analyzeFile_eq_ok_readable here)]
      exact .cons here ih
  | fault here rest ih =>
      rw [List.filter_cons_of_neg (by simpa using here.not_readable)]
      exact ih

theorem faults (h : Sorted t paths files errors) :
    List.Forall₂ (FaultOf t) (paths.filter (¬ Readable t ·)) errors := by
  induction h with
  | nil => exact .nil
  | record here rest ih =>
      rw [List.filter_cons_of_neg (by simpa using analyzeFile_eq_ok_readable here)]
      exact ih
  | fault here rest ih =>
      rw [List.filter_cons_of_pos (by simpa using here.not_readable)]
      exact .cons here ih

theorem length_eq (h : Sorted t paths files errors) :
    files.length + errors.length = paths.length := by
  induction h with
  | nil => rfl
  | record here rest ih =>
      simp only [List.length_cons]
      omega
  | fault here rest ih =>
      simp only [List.length_cons]
      omega

theorem readable (h : Sorted t paths files errors) :
    Sorted t (paths.filter (Readable t)) files [] := by
  induction h with
  | nil => exact .nil
  | record here rest ih =>
      rw [List.filter_cons_of_pos (by simpa using analyzeFile_eq_ok_readable here)]
      exact .record here ih
  | fault here rest ih =>
      rw [List.filter_cons_of_neg (by simpa using here.not_readable)]
      exact ih

/-! ## Runs over sorted paths -/

theorem foldlM_skip (h : Sorted t paths files errors) (r : AnalysisRun) :
    (paths.map (analyzeFile t)).foldlM (AnalysisRun.add .skip) r =
      .ok ⟨r.files ++ files, r.skipped ++ errors⟩ := by
  induction h generalizing r with
  | nil => simp [pure, Except.pure]
  | record here rest ih =>
      rw [List.map_cons, List.foldlM_cons, here]
      change List.foldlM _ _ _ = _
      rw [ih]
      simp
  | fault here rest ih =>
      rw [List.map_cons, List.foldlM_cons, analyzeFile_eq_error_iff.2 here]
      change List.foldlM _ _ _ = _
      rw [ih]
      simp

/-- The first error ends the run; what was taken in before it does not matter. -/
theorem foldlM_abort (h : Sorted t paths files errors) (r : AnalysisRun) :
    (paths.map (analyzeFile t)).foldlM (AnalysisRun.add .abort) r =
      errors.head?.elim (.ok ⟨r.files ++ files, r.skipped⟩) .error := by
  induction h generalizing r with
  | nil => simp [pure, Except.pure]
  | record here rest ih =>
      rw [List.map_cons, List.foldlM_cons, here]
      change List.foldlM _ _ _ = _
      rw [ih]
      simp
  | fault here rest ih =>
      rw [List.map_cons, List.foldlM_cons, analyzeFile_eq_error_iff.2 here]
      rfl

end Sorted

/-! ## Workers -/

namespace Workers

variable {t : FileTree} {paths : List Path} {tasks : List (Path × Nat)}

theorem results_foldl (w : Workers) :
    (tasks.foldl (measure t) w).results =
      (tasks.map fun task => (task.2, analyzeFile t task.1)).reverse ++ w.results := by
  induction tasks generalizing w with
  | nil => rfl
  | cons task tasks ih =>
      rw [List.foldl_cons, ih, List.map_cons, List.reverse_cons, List.append_assoc]
      rfl

theorem position_foldl (w : Workers) :
    (tasks.foldl (measure t) w).bar.map Progress.position =
      w.bar.map fun bar => bar.position + tasks.length := by
  induction tasks generalizing w with
  | nil => rfl
  | cons task tasks ih =>
      rw [List.foldl_cons, ih, measure, Option.map_map]
      congr 1
      funext bar
      show bar.position + 1 + tasks.length = bar.position + (tasks.length + 1)
      omega

/-- Results that belong to the paths come back in the order of the paths, in whatever order they
were brought in: each place is looked up, and no place repeats. -/
theorem collected_of_perm {w : Workers}
    (h : w.results.Perm (paths.zipIdx.map fun task => (task.2, analyzeFile t task.1))) :
    w.collected = paths.map (analyzeFile t) := by
  have hplaces : List.range w.results.length = paths.zipIdx.map Prod.snd := by
    rw [h.length_eq, List.length_map, List.length_zipIdx, List.zipIdx_map_snd,
      List.range_eq_range']
  have hunique : (w.results.map Prod.fst).Nodup := by
    rw [(h.map Prod.fst).nodup_iff, List.map_map]
    show (paths.zipIdx.map Prod.snd).Nodup
    rw [← hplaces]
    exact List.nodup_range
  have hlookup : ∀ task ∈ paths.zipIdx,
      w.results.lookup task.2 = some (analyzeFile t task.1) := by
    intro task htask
    rw [lookup_eq_some_iff_mem hunique, h.mem_iff]
    exact List.mem_map_of_mem htask
  calc w.collected
      = paths.zipIdx.filterMap fun task => w.results.lookup task.2 := by
        rw [collected, hplaces, List.filterMap_map]
        rfl
    _ = paths.zipIdx.filterMap fun task => some (analyzeFile t task.1) :=
        List.filterMap_congr hlookup
    _ = (paths.zipIdx.map Prod.fst).map (analyzeFile t) := by
        rw [List.map_map, ← List.filterMap_eq_map]
        rfl
    _ = paths.map (analyzeFile t) := by rw [List.zipIdx_map_fst]

end Workers

theorem analyzeTasks_run {t : FileTree} {paths : List Path} {tasks : List (Path × Nat)}
    (h : tasks.Perm paths.zipIdx) (policy : ReadPolicy) (bar : Option Progress) :
    (analyzeTasks t policy bar tasks).1 =
      (paths.map (analyzeFile t)).foldlM (AnalysisRun.add policy) .empty := by
  have hcollected : (tasks.foldl (Workers.measure t) ⟨bar, []⟩).collected =
      paths.map (analyzeFile t) := by
    apply Workers.collected_of_perm
    rw [Workers.results_foldl, List.append_nil]
    exact (List.reverse_perm _).trans (h.map _)
  rw [analyzeTasks, hcollected]

theorem analyzePaths_run (t : FileTree) (policy : ReadPolicy) (bar : Option Progress)
    (paths : List Path) :
    (analyzePaths t policy bar paths).1 =
      (paths.map (analyzeFile t)).foldlM (AnalysisRun.add policy) .empty :=
  analyzeTasks_run (.refl _) policy bar

/-- Skipping unreadable files loses nothing: every path has its record or its error, in order.
Aborting agrees with it. In whatever order the files are taken up, the result is the same, and an
attached bar has counted every path. -/
theorem read_policies_agree (t : FileTree) (paths : List Path) :
    ∃ run, (∀ bar, (analyzePaths t .skip bar paths).1 = .ok run) ∧
      List.Forall₂ (fun p f => analyzeFile t p = .ok f) (paths.filter (Readable t)) run.files ∧
      List.Forall₂ (FaultOf t) (paths.filter (¬ Readable t ·)) run.skipped ∧
      run.files.length + run.skipped.length = paths.length ∧
      (∃ alone, (∀ bar, (analyzePaths t .skip bar (paths.filter (Readable t))).1 = .ok alone) ∧
        alone.skipped = [] ∧ alone.files = run.files ∧ alone.totals = run.totals) ∧
      (∀ bar r, (analyzePaths t .abort bar paths).1 = .ok r ↔ run.skipped = [] ∧ r = run) ∧
      (∀ bar e, (analyzePaths t .abort bar paths).1 = .error e ↔ run.skipped.head? = some e) ∧
      ∀ policy bar tasks, tasks.Perm paths.zipIdx →
        (analyzeTasks t policy bar tasks).1 = (analyzePaths t policy bar paths).1 ∧
        (analyzeTasks t policy bar tasks).2.map Progress.position =
          bar.map fun before => before.position + paths.length := by
  obtain ⟨files, errors, h⟩ := exists_sorted t paths
  have habort : ∀ bar, (analyzePaths t .abort bar paths).1 =
      errors.head?.elim (.ok ⟨files, []⟩) .error := fun bar =>
    (analyzePaths_run t .abort bar paths).trans (h.foldlM_abort .empty)
  refine ⟨⟨files, errors⟩, fun bar => ?_, h.records, h.faults, h.length_eq,
    ⟨⟨files, []⟩, fun bar => ?_, rfl, rfl, rfl⟩, ?_, ?_, ?_⟩
  · exact (analyzePaths_run t .skip bar paths).trans (h.foldlM_skip .empty)
  · exact (analyzePaths_run t .skip bar _).trans (h.readable.foldlM_skip .empty)
  · intro bar r
    rw [habort]
    cases errors with
    | nil => simp [eq_comm]
    | cons first errors => simp
  · intro bar e
    rw [habort]
    cases errors with
    | nil => simp
    | cons first errors => simp
  · intro policy bar tasks htasks
    refine ⟨(analyzeTasks_run htasks policy bar).trans (analyzePaths_run t policy bar paths).symm,
      ?_⟩
    have hlength : tasks.length = paths.length := by
      rw [htasks.length_eq, List.length_zipIdx]
    rw [← hlength]
    exact Workers.position_foldl _

/-- A tree with one file that holds text and one that does not. -/
def halfReadable : FileTree where
  entries :=
    [(["a.js".toList], .file (Text.encode "f()".toList)), (["b.js".toList], .file [0xFF])]
  current := []

/-- Three paths that fail, each in its own way, around one that is read twice. -/
def halfReadablePaths : List Path :=
  [.ofString "c.js", .ofString "a.js", .ofString "b.js", .ofString "a.js", .ofString "."]

/-- The last path is taken up first, and its error is still the last one. -/
theorem read_policies_agree_repeated :
    ∃ run, (∀ bar, (analyzePaths halfReadable .skip bar halfReadablePaths).1 = .ok run) ∧
      run.files.length = 2 ∧
      run.skipped = [.read (.ofString "c.js") .notFound, .read (.ofString "b.js") .notText,
        .read (.ofString ".") .isDirectory] ∧
      (analyzeTasks halfReadable .abort (some (.start 5)) halfReadablePaths.zipIdx.reverse).1 =
        .error (.read (.ofString "c.js") .notFound) ∧
      (analyzeTasks halfReadable .abort (some (.start 5))
        halfReadablePaths.zipIdx.reverse).2.map Progress.position = some 5 := by
  obtain ⟨run, hskip, -, -, hlength, -, -, herror, htasks⟩ :=
    read_policies_agree halfReadable halfReadablePaths
  have hskipped : (analyzePaths halfReadable .skip none halfReadablePaths).1.toOption.map
      AnalysisRun.skipped =
        some [.read (.ofString "c.js") .notFound, .read (.ofString "b.js") .notText,
          .read (.ofString ".") .isDirectory] := by decide +kernel
  rw [hskip] at hskipped
  have hskipped := Option.some.inj hskipped
  obtain ⟨hresult, hbar⟩ := htasks .abort (some (.start 5)) _ (List.reverse_perm _)
  refine ⟨run, hskip, ?_, hskipped, hresult.trans ((herror _ _).2 ?_), hbar⟩
  · rw [hskipped] at hlength
    simpa [halfReadablePaths] using hlength
  · rw [hskipped]
    rfl

end SourceGauge
