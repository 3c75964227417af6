import Mathlib.Data.List.Forall2
import SourceGauge.Proofs.CounterBounds

/-!
# Padded lines

Only the trimmed lines of a source are measured. So margins may be added to its lines, and its
line feeds may become carriage returns with line feeds, without any change to the metrics.
-/

namespace SourceGauge

namespace Text

/-- The text with a carriage return before each line feed. -/
def crlf (s : List Char) : List Char := s.flatMap fun c => if c = '\n' then ['\r', '\n'] else [c]

/-- The lines grow by carriage returns at their right ends only. -/
theorem lines_crlf (s : List Char) :
    List.Forall₂ (fun line grown => ∃ right, grown = line ++ right ∧ ∀ c ∈ right, c = '\r')
      (lines s) (lines (crlf s)) := by
  induction s with
  | nil => exact .cons ⟨[], rfl, by simp⟩ .nil
  | cons c cs ih =>
      by_cases hc : c = '\n'
      · subst hc
        have hcrlf : crlf ('\n' :: cs) = ['\r'] ++ '\n' :: crlf cs := rfl
        rw [hcrlf, lines, lines, splitOn_append_cons, splitOn_cons_self]
        exact .cons ⟨['\r'], rfl, by simp⟩ ih
      · have hcrlf : crlf (c :: cs) = c :: crlf cs := by simp [crlf, hc]
        rw [hcrlf, lines, lines, splitOn_cons_of_ne hc, splitOn_cons_of_ne hc]
        unfold lines at ih
        cases hs : splitOn '\n' cs with
        | nil => exact absurd hs (splitOn_ne_nil '\n' cs)
        | cons line rest =>
            rw [hs] at ih
            obtain ⟨grown, others, ⟨right, rfl, hr⟩, hrest, heq⟩ := List.forall₂_cons_left_iff.1 ih
            rw [heq]
            exact .cons ⟨right, rfl, hr⟩ hrest

end Text

namespace Line

/-- What may be added to a line at either end: blanks that do not end it, and byte-order marks. -/
def Pads (c : Char) : Prop := Text.isBlank c = true ∧ c ≠ '\n' ∨ c = Text.byteOrderMark

instance : DecidablePred Pads := fun c =>
  inferInstanceAs (Decidable (Text.isBlank c = true ∧ c ≠ '\n' ∨ c = Text.byteOrderMark))

theorem Pads.isMargin {c : Char} (h : Pads c) : isMargin c = true := by
  rcases h with ⟨hblank, -⟩ | rfl
  · simp [Line.isMargin, hblank]
  · decide

theorem Pads.ne_lineFeed {c : Char} (h : Pads c) : c ≠ '\n' := by
  rcases h with ⟨-, hne⟩ | rfl
  · exact hne
  · decide

/-- The source with the given texts around each of its lines. -/
def padded (left right : Nat → List Char) (source : List Char) : List Char :=
  Text.unlines ((Text.lines source).mapIdx fun i line => left i ++ line ++ right i)

theorem trim_margins {left right : List Char} (line : List Char)
    (hl : ∀ c ∈ left, isMargin c = true) (hr : ∀ c ∈ right, isMargin c = true) :
    trim (left ++ line ++ right) = trim line :=
  Text.trimBy_margins line hl hr

theorem lines_padded {left right : Nat → List Char} (hl : ∀ i, ∀ c ∈ left i, Pads c)
    (hr : ∀ i, ∀ c ∈ right i, Pads c) (source : List Char) :
    Text.lines (padded left right source) =
      (Text.lines source).mapIdx fun i line => left i ++ line ++ right i := by
  apply Text.lines_unlines
  · have hne := Text.splitOn_ne_nil '\n' source
    simpa [Text.lines] using hne
  · intro line hline
    obtain ⟨i, hi, rfl⟩ := List.mem_mapIdx.1 hline
    have hmiddle := Text.not_mem_of_mem_splitOn (List.getElem_mem hi)
    intro hmem
    rcases List.mem_append.1 hmem with hmem | hmem
    · rcases List.mem_append.1 hmem with hmem | hmem
      · exact (hl i _ hmem).ne_lineFeed rfl
      · exact hmiddle hmem
    · exact (hr i _ hmem).ne_lineFeed rfl

theorem classifyFrom_map_trim (inside : Bool) (ls : List (List Char)) :
    classifyFrom inside (ls.map trim) = classifyFrom inside ls := by
  induction ls generalizing inside with
  | nil => rfl
  | cons line rest ih =>
      have hline : classify (trim line) inside = classify line inside := by
        have hidem : trim (trim line) = trim line :=
          Text.trimBy_of_bare (Text.bare_trimBy isMargin line)
        simp only [classify, hidem]
      rw [List.map_cons, classifyFrom, classifyFrom, hline, ih]

theorem sum_decisionCount_map_trim (ls : List (List Char)) :
    ((ls.map trim).map Scan.decisionCount).sum = (ls.map Scan.decisionCount).sum := by
  have hline : Scan.decisionCount ∘ trim = Scan.decisionCount :=
    funext Scan.decisionCount_trim
  rw [List.map_map, hline]

end Line

namespace FileMetrics

/-- A source is measured by its trimmed lines alone. -/
theorem ofSource_congr_trim (path : Path) {a b : List Char}
    (h : (Text.lines a).map Line.trim = (Text.lines b).map Line.trim) :
    ofSource path a = ofSource path b := by
  have hkinds : Line.classifyAll a = Line.classifyAll b := by
    unfold Line.classifyAll
    rw [← Line.classifyFrom_map_trim, h, Line.classifyFrom_map_trim]
  have hcomplexity : Scan.cyclomatic a = Scan.cyclomatic b := by
    unfold Scan.cyclomatic
    rw [Scan.decisionCount_eq_sum_lines a, ← Line.sum_decisionCount_map_trim, h,
      Line.sum_decisionCount_map_trim, ← Scan.decisionCount_eq_sum_lines b]
  simp only [ofSource, hkinds, hcomplexity]

/-- Padding around the lines of a source changes no metric, and neither does the style of its
line ends. -/
theorem padding_changes_no_metric (path : Path) (content : List Char) :
    (∀ left right : Nat → List Char, (∀ i, ∀ c ∈ left i, Line.Pads c) →
      (∀ i, ∀ c ∈ right i, Line.Pads c) →
      ofSource path (Line.padded left right content) = ofSource path content) ∧
    ofSource path (Text.crlf content) = ofSource path content := by
  constructor
  · intro left right hl hr
    apply ofSource_congr_trim
    rw [Line.lines_padded hl hr]
    apply List.ext_getElem
    · simp
    · intro i hi hi'
      simpa using Line.trim_margins _ (fun c hc => (hl i c hc).isMargin)
        (fun c hc => (hr i c hc).isMargin)
  · apply ofSource_congr_trim
    symm
    rw [← List.forall₂_eq_eq_eq, List.forall₂_map_left_iff, List.forall₂_map_right_iff]
    apply (Text.lines_crlf content).imp
    rintro line _ ⟨right, rfl, hr⟩
    have hmargin : ∀ c ∈ right, Line.isMargin c = true := by
      intro c hc
      rw [hr c hc]
      decide
    have htrim := @Line.trim_margins [] right line (by simp) hmargin
    exact htrim.symm

/-- Each line one tab further to the right, with a byte-order mark and a carriage return behind. -/
theorem padding_changes_no_metric_slanted :
    (∀ i, ∀ c ∈ List.replicate i '\t', Line.Pads c) ∧
    (∀ c ∈ [Text.byteOrderMark, '\r'], Line.Pads c) ∧
    Line.padded (List.replicate · '\t') (fun _ => [Text.byteOrderMark, '\r'])
      "/* a\n*/\nif (b) // c".toList =
        "/* a\uFEFF\r\n\t*/\uFEFF\r\n\t\tif (b) // c\uFEFF\r".toList ∧
    ofSource ⟨"a.js".toList⟩ "/* a\uFEFF\r\n\t*/\uFEFF\r\n\t\tif (b) // c\uFEFF\r".toList =
      ofSource ⟨"a.js".toList⟩ "/* a\n*/\nif (b) // c".toList := by
  have hl : ∀ i, ∀ c ∈ List.replicate i '\t', Line.Pads c := by
    intro i c hc
    rw [List.eq_of_mem_replicate hc]
    decide
  have hr : ∀ c ∈ [Text.byteOrderMark, '\r'], Line.Pads c := by
    intro c hc
    rcases List.mem_pair.1 hc with rfl | rfl
    · decide
    · decide
  have hpadded : Line.padded (List.replicate · '\t') (fun _ => [Text.byteOrderMark, '\r'])
      "/* a\n*/\nif (b) // c".toList =
        "/* a\uFEFF\r\n\t*/\uFEFF\r\n\t\tif (b) // c\uFEFF\r".toList := by decide
  refine ⟨hl, hr, hpadded, ?_⟩
  rw [← hpadded]
  exact (padding_changes_no_metric _ _).1 _ _ hl fun _ => hr

end FileMetrics

end SourceGauge
