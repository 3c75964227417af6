import Mathlib.Algebra.Order.Ring.Nat
import Mathlib.Data.List.Infix
import SourceGauge.Metrics

/-!
# Aggregation

Totals are sums over records, counter by counter. So it does not matter in which order records
are added and partial totals merged, and what holds of every record in the right form holds of
every account that records were ever put into.
-/

namespace SourceGauge

namespace Totals

/-! ## Totals as sums -/

/-- The sums over a list of records, each counter on its own. -/
def sums (files : List FileMetrics) : Totals where
  files := files.length
  lines := (files.map FileMetrics.lines).sum
  emptyLines := (files.map FileMetrics.emptyLines).sum
  commentLines := (files.map FileMetrics.commentLines).sum
  physicalLines := (files.map FileMetrics.physicalLines).sum
  logicalLines := (files.map FileMetrics.logicalLines).sum
  complexity := (files.map FileMetrics.complexity).sum

theorem foldl_addFile (t : Totals) (files : List FileMetrics) :
    files.foldl addFile t = t.merge (sums files) := by
  induction files generalizing t with
  | nil => rfl
  | cons f files ih =>
      rw [List.foldl_cons, ih]
      simp [addFile, merge, sums, Nat.add_assoc, Nat.add_comm 1]

theorem ofFiles_eq_sums (files : List FileMetrics) : ofFiles files = sums files := by
  rw [ofFiles, foldl_addFile, zero_merge]

theorem sums_append (first second : List FileMetrics) :
    sums (first ++ second) = (sums first).merge (sums second) := by
  simp [sums, merge]

theorem sums_perm {files other : List FileMetrics} (h : files.Perm other) :
    sums files = sums other := by
  have hsum : ∀ counter : FileMetrics → Nat,
      (files.map counter).sum = (other.map counter).sum := fun counter => (h.map counter).sum_nat
  simp only [sums, h.length_eq, hsum]

/-! ## Ways to build totals -/

/-- A tree of operations on totals. -/
inductive Build where
  | start
  | addFile (b : Build) (file : FileMetrics)
  | fromFiles (files : List FileMetrics)
  | collect (files : List FileMetrics)
  | merge (b other : Build)

namespace Build

/-- What the operations give. -/
def totals : Build → Totals
  | start => zero
  | addFile b file => b.totals.addFile file
  | fromFiles files | collect files => ofFiles files
  | merge b other => b.totals.merge other.totals

/-- The records that are used, as often as they are used. -/
def records : Build → List FileMetrics
  | start => []
  | addFile b file => b.records ++ [file]
  | fromFiles files | collect files => files
  | merge b other => b.records ++ other.records

/-- The totals after every single addition of a record and every merge. -/
def partials : Build → List Totals
  | start => [zero]
  | addFile b file => b.totals.addFile file :: b.partials
  | fromFiles files | collect files => files.inits.map ofFiles
  | merge b other => b.totals.merge other.totals :: (b.partials ++ other.partials)

theorem totals_eq_sums (b : Build) : b.totals = sums b.records := by
  induction b with
  | start => rfl
  | addFile b file ih =>
      have hsingle : zero.addFile file = sums [file] := ofFiles_eq_sums [file]
      rw [totals, records, sums_append, ← ih, ← hsingle, ← addFile_eq_merge]
  | fromFiles files | collect files => exact ofFiles_eq_sums files
  | merge b other ihb ihother => rw [totals, records, sums_append, ihb, ihother]

end Build

/-! ## Machine words -/

/-- Every counter fits a machine word. -/
def Fits (t : Totals) : Prop :=
  ∀ n ∈ [t.files, t.lines, t.emptyLines, t.commentLines, t.physicalLines, t.logicalLines,
    t.complexity], n < UInt64.size

instance : DecidablePred Fits := fun t =>
  inferInstanceAs (Decidable (∀ n ∈ [t.files, t.lines, t.emptyLines, t.commentLines,
    t.physicalLines, t.logicalLines, t.complexity], n < UInt64.size))

/-- Counters only grow: what is merged fits if the result does. -/
theorem Fits.of_merge {t u : Totals} (h : (t.merge u).Fits) : t.Fits ∧ u.Fits := by
  simp only [Fits, merge, List.forall_mem_cons] at h ⊢
  simp only [List.not_mem_nil, IsEmpty.forall_iff, implies_true, and_true] at h ⊢
  omega

theorem Fits.of_addFile {t : Totals} {f : FileMetrics} (h : (t.addFile f).Fits) : t.Fits := by
  rw [addFile_eq_merge] at h
  exact h.of_merge.1

theorem Fits.inits {files : List FileMetrics} (h : (ofFiles files).Fits) :
    ∀ t ∈ files.inits.map ofFiles, t.Fits := by
  rw [List.forall_mem_map]
  intro part hpart
  obtain ⟨rest, rfl⟩ := (List.mem_inits _ _).1 hpart
  rw [ofFiles_eq_sums, sums_append, ← ofFiles_eq_sums] at h
  exact h.of_merge.1

theorem ofFiles_mem_inits (files : List FileMetrics) : ofFiles files ∈ files.inits.map ofFiles :=
  List.mem_map_of_mem ((List.mem_inits _ _).2 List.prefix_rfl)

namespace Build

theorem fits_of_mem_partials {b : Build} (h : b.totals.Fits) :
    ∀ t ∈ b.partials, t.Fits := by
  induction b with
  | start => exact List.forall_mem_singleton.2 h
  | addFile b file ih =>
      rw [partials, List.forall_mem_cons]
      exact ⟨h, ih h.of_addFile⟩
  | fromFiles files | collect files => exact h.inits
  | merge b other ihb ihother =>
      obtain ⟨hb, hother⟩ := Fits.of_merge h
      rw [partials, List.forall_mem_cons, List.forall_mem_append]
      exact ⟨h, ihb hb, ihother hother⟩

theorem totals_mem_partials (b : Build) : b.totals ∈ b.partials := by
  cases b with
  | start => exact List.mem_singleton_self _
  | addFile b file => exact List.mem_cons_self ..
  | fromFiles files | collect files => exact ofFiles_mem_inits files
  | merge b other => exact List.mem_cons_self ..

end Build

/-- Whatever operations the totals of some records are built with, the result is the sum over the
records, counter by counter. Whether a counter overflows on the way depends on the result alone. -/
theorem aggregation_ignores_order (b : Build) (files : List FileMetrics)
    (h : b.records.Perm files) :
    b.totals = ofFiles files ∧ ofFiles files = sums files ∧
      ((∀ t ∈ b.partials, t.Fits) ↔ (ofFiles files).Fits) := by
  have htotals : b.totals = ofFiles files := by
    rw [b.totals_eq_sums, ofFiles_eq_sums, sums_perm h]
  refine ⟨htotals, ofFiles_eq_sums files, ?_⟩
  rw [← htotals]
  exact ⟨fun hall => hall _ b.totals_mem_partials, Build.fits_of_mem_partials⟩

/-- Three files, one of them empty. -/
def threeFiles : List FileMetrics :=
  [.ofSource (.ofString "a.js") "if (a) b();\n// c".toList, .ofSource (.ofString "b.js") [],
    .ofSource (.ofString "c.js") "\n/* x\n*/\na && b".toList]

/-- The same three files out of order, by every operation. -/
def mixedBuild : Build :=
  .merge (.collect (threeFiles.drop 2))
    (.merge (.addFile .start (.ofSource (.ofString "b.js") [])) (.fromFiles (threeFiles.take 1)))

theorem aggregation_ignores_order_mixed :
    mixedBuild.records.Perm threeFiles ∧ mixedBuild.totals = ofFiles threeFiles ∧
      mixedBuild.totals = ⟨3, 7, 2, 3, 7, 3, 5⟩ ∧ ∀ t ∈ mixedBuild.partials, t.Fits := by
  have hperm : mixedBuild.records.Perm threeFiles := by decide +kernel
  obtain ⟨htotals, -, hfits⟩ := aggregation_ignores_order mixedBuild threeFiles hperm
  exact ⟨hperm, htotals, by decide +kernel, hfits.2 (by decide +kernel)⟩

end Totals

/-! ## What is measured of a source -/

namespace FileMetrics

/-- The record of some source. -/
def Measured (f : FileMetrics) : Prop := ∃ path content, f = ofSource path content

theorem emptyLines_add_commentLines_le (path : Path) (content : List Char) :
    (ofSource path content).emptyLines + (ofSource path content).commentLines ≤
      (ofSource path content).lines := by
  have hdisjoint : ∀ kind ∈ Line.classifyAll content, kind.isComment = true →
      decide (¬ decide (kind = .blank) = true) = true := by
    intro kind _ hcomment
    cases kind <;> simp [Line.Kind.isComment] at hcomment ⊢
  have hcomments := List.countP_mono_left hdisjoint
  have hlength : (Line.classifyAll content).length = _ :=
    List.length_eq_countP_add_countP (fun kind => decide (kind = .blank))
  simp only [ofSource]
  omega

theorem one_le_lines (path : Path) (content : List Char) : 1 ≤ (ofSource path content).lines := by
  have hlines := Text.length_lines content
  simp only [ofSource, Line.classifyAll, Line.length_classifyFrom]
  omega

theorem one_le_complexity (path : Path) (content : List Char) :
    1 ≤ (ofSource path content).complexity := Nat.le_add_right ..

end FileMetrics

/-! ## Totals of measured files -/

namespace Totals

/-- What holds of the totals of measured files. -/
structure Sound (t : Totals) : Prop where
  physicalLines : t.physicalLines = t.lines
  /-- No line is both empty and a comment line. -/
  lines : t.emptyLines + t.commentLines ≤ t.lines
  /-- Every file has a line. -/
  files_le_lines : t.files ≤ t.lines
  /-- Every file has a path through it. -/
  files_le_complexity : t.files ≤ t.complexity
  empty : t.lines = 0 ↔ t.files = 0

theorem sound_zero : zero.Sound := by
  constructor <;> simp [zero]

theorem Sound.merge {t u : Totals} (ht : t.Sound) (hu : u.Sound) : (t.merge u).Sound := by
  obtain ⟨htphysical, htlines, htfiles, htcomplexity, htempty⟩ := ht
  obtain ⟨huphysical, hulines, hufiles, hucomplexity, huempty⟩ := hu
  constructor <;> simp only [Totals.merge] <;> omega

theorem sound_single {f : FileMetrics} (h : f.Measured) : (zero.addFile f).Sound := by
  obtain ⟨path, content, rfl⟩ := h
  have hkinds := FileMetrics.emptyLines_add_commentLines_le path content
  have hlines := FileMetrics.one_le_lines path content
  have hcomplexity := FileMetrics.one_le_complexity path content
  constructor
  · rfl
  · simpa [addFile, zero] using hkinds
  · simpa [addFile, zero] using hlines
  · simpa [addFile, zero] using hcomplexity
  · simp only [addFile, zero]
    omega

theorem Sound.addFile {t : Totals} {f : FileMetrics} (ht : t.Sound) (hf : f.Measured) :
    (t.addFile f).Sound := by
  rw [addFile_eq_merge]
  exact ht.merge (sound_single hf)

theorem sound_ofFiles {files : List FileMetrics} (h : ∀ f ∈ files, f.Measured) :
    (ofFiles files).Sound := by
  induction files using List.reverseRecOn with
  | nil => exact sound_zero
  | append_singleton files f ih =>
      rw [ofFiles, List.foldl_append]
      exact (ih fun g hg => h g (List.mem_append_left _ hg)).addFile (h f (by simp))

end Totals

/-! ## Reachable accounts -/

namespace Accounts

/-- The step takes records of sources only, and sets no totals by hand. -/
def Step.Measured : Step → Prop
  | addFile _ file => file.Measured
  | merge _ _ => True
  | fromFiles _ files | collect _ files => ∀ f ∈ files, f.Measured
  | set _ _ => False

theorem sound_result {a : Accounts} {step : Step} (h : ∀ name, (a.get name).Sound)
    (hstep : step.Measured) : (step.result a).Sound := by
  cases step with
  | addFile name file => exact (h name).addFile hstep
  | merge name source => exact (h name).merge (h source)
  | fromFiles name files | collect name files => exact Totals.sound_ofFiles hstep
  | set name totals => exact absurd hstep id

theorem sound_perform {a : Accounts} {step : Step} (h : ∀ name, (a.get name).Sound)
    (hstep : step.Measured) (name : String) : ((a.perform step).get name).Sound := by
  by_cases hname : name = step.account
  · subst hname
    rw [perform, get_set_self]
    exact sound_result h hstep
  · rw [perform, get_set_of_ne _ _ hname]
    exact h name

theorem sound_foldl_perform {a : Accounts} {steps : List Step} (h : ∀ name, (a.get name).Sound)
    (hsteps : ∀ step ∈ steps, step.Measured) (name : String) :
    ((steps.foldl perform a).get name).Sound := by
  induction steps generalizing a with
  | nil => exact h name
  | cons step steps ih =>
      obtain ⟨hstep, hrest⟩ := List.forall_mem_cons.1 hsteps
      exact ih (sound_perform h hstep) hrest

/-- The accounts behind some steps from all zeros. -/
def after (steps : List Step) : Accounts := steps.foldl perform empty

/-- Totals that were put together from measured files in any way keep to what holds of one file,
and their level of commenting is set to zero exactly where no file is counted. -/
theorem reachable_totals_are_sound (steps : List Step) (h : ∀ step ∈ steps, step.Measured)
    (name : String) (t : Totals) (ht : (after steps).get name = t) :
    t.physicalLines = t.lines ∧
    t.emptyLines + t.commentLines ≤ t.lines ∧
    t.files ≤ t.lines ∧
    t.files ≤ t.complexity ∧
    (t.lines = 0 ↔ t.files = 0) ∧
    t.commenting =
      if t.files = 0 then Binary64.zero false
      else (Binary64.ofNat t.commentLines).div (Binary64.ofNat t.lines) := by
  have hsound : t.Sound := by
    rw [← ht]
    exact sound_foldl_perform (a := empty) (fun _ => Totals.sound_zero) h name
  refine ⟨hsound.physicalLines, hsound.lines, hsound.files_le_lines, hsound.files_le_complexity,
    hsound.empty, ?_⟩
  simp only [Totals.commenting, Binary64.ratio, hsound.empty]

/-- An account is merged into itself and then into another. -/
def doublingSteps : List Step :=
  [.addFile "a" (.ofSource (.ofString "a.js") "// a\nf()".toList), .merge "a" "a",
    .collect "b" [.ofSource (.ofString "b.js") [], .ofSource (.ofString "c.js") "\n".toList],
    .merge "b" "a", .fromFiles "a" []]

theorem reachable_totals_are_sound_doubled :
    (∀ step ∈ doublingSteps, step.Measured) ∧
    (after doublingSteps).get "b" = ⟨4, 7, 3, 2, 7, 2, 4⟩ ∧
    ((after doublingSteps).get "b").files ≤ ((after doublingSteps).get "b").complexity ∧
    ((after doublingSteps).get "a").commenting = Binary64.zero false := by
  have hsteps : ∀ step ∈ doublingSteps, step.Measured := by
    simp [doublingSteps, Step.Measured, FileMetrics.Measured]
  obtain ⟨-, -, -, hcomplexity, -, -⟩ :=
    reachable_totals_are_sound doublingSteps hsteps "b" _ rfl
  obtain ⟨-, -, -, -, -, hcommenting⟩ :=
    reachable_totals_are_sound doublingSteps hsteps "a" _ rfl
  have hnone : ((after doublingSteps).get "a").files = 0 := by decide +kernel
  refine ⟨hsteps, by decide +kernel, hcomplexity, ?_⟩
  rw [hcommenting, if_pos hnone]

end Accounts

end SourceGauge
