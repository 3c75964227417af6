import SourceGauge.Metrics
import SourceGauge.Proofs.DecisionSeams
import SourceGauge.Proofs.LineKinds

/-!
# Joined sources

What is measured of two sources joined by a line feed. If the first source leaves no comment
open, everything is measured on the parts. Otherwise the second source is in the comment up to
its first line with a mark, and from there on it is as if it stood alone.
-/

namespace SourceGauge

namespace Line

theorem lines_join (a b : List Char) :
    Text.lines (a ++ '\n' :: b) = Text.lines a ++ Text.lines b :=
  Text.splitOn_append_cons '\n' a b

theorem classifyAll_join (a b : List Char) :
    classifyAll (a ++ '\n' :: b) =
      classifyAll a ++ classifyFrom (insideAfter false (Text.lines a)) (Text.lines b) := by
  unfold classifyAll
  rw [lines_join, classifyFrom_append]

/-! ## Runs that start open and closed -/

/-- The kind of a line inside a comment. -/
def commented (line : List Char) : Kind := if trim line = [] then .blank else .blockComment

/-- The index of the first line that opens or closes a comment; past the end if there is none. -/
def firstMark (ls : List (List Char)) : Nat :=
  ls.findIdx fun line => decide (Opens line ∨ Closes line)

theorem firstMark_cons_of_mark {line : List Char} {rest : List (List Char)}
    (h : Opens line ∨ Closes line) : firstMark (line :: rest) = 0 := by
  rw [firstMark, List.findIdx_cons, decide_eq_true h]
  rfl

theorem firstMark_cons_of_no_mark {line : List Char} {rest : List (List Char)}
    (h : ¬ (Opens line ∨ Closes line)) : firstMark (line :: rest) = firstMark rest + 1 := by
  rw [firstMark, List.findIdx_cons, decide_eq_false h]
  rfl

theorem classify_inside (line : List Char) : (classify line true).1 = commented line := by
  unfold commented
  by_cases hblank : trim line = []
  · rw [classify_of_blank hblank, if_pos hblank]
  · rw [classify_of_commented hblank (Or.inl rfl), if_neg hblank]

/-- Behind a line with a mark it does not matter whether a comment was open before it. -/
theorem classify_flag_of_mark {line : List Char} (h : Opens line ∨ Closes line) (inside : Bool) :
    (classify line inside).2 = (classify line false).2 := by
  rw [Bool.eq_iff_iff, classify_flag_iff, classify_flag_iff]
  rcases h with hopens | hcloses
  · simp [hopens]
  · simp [hcloses]

theorem classify_flag_of_no_mark {line : List Char} (h : ¬ (Opens line ∨ Closes line))
    (inside : Bool) : (classify line inside).2 = inside := by
  rw [not_or] at h
  rw [Bool.eq_iff_iff, classify_flag_iff]
  simp [h.1, h.2]

/-- A run that starts in a comment meets the run that starts outside at the first mark. -/
theorem classifyFrom_true (ls : List (List Char)) :
    classifyFrom true ls =
      (ls.take (firstMark ls + 1)).map commented ++
        (classifyFrom false ls).drop (firstMark ls + 1) := by
  induction ls with
  | nil => rfl
  | cons line rest ih =>
      rw [classifyFrom, classifyFrom, classify_inside]
      by_cases hmark : Opens line ∨ Closes line
      · rw [firstMark_cons_of_mark hmark, classify_flag_of_mark hmark]
        rfl
      · rw [firstMark_cons_of_no_mark hmark, classify_flag_of_no_mark hmark,
          classify_flag_of_no_mark hmark, ih]
        rfl

end Line

/-! ## Metrics -/

theorem Scan.logicalSum_append (first second : List (List Char)) :
    Scan.logicalSum (first ++ second) = Scan.logicalSum first + Scan.logicalSum second := by
  induction first with
  | nil => simp [Scan.logicalSum]
  | cons code codes ih => simp [Scan.logicalSum, ih, Nat.add_assoc]

namespace FileMetrics

/-- Decision points do not reach over a line feed, whatever the comments are. -/
theorem complexity_join (path : Path) (a b : List Char) :
    (ofSource path (a ++ '\n' :: b)).complexity + 1 =
      (ofSource path a).complexity + (ofSource path b).complexity := by
  change 1 + Scan.decisionCount (a ++ '\n' :: b) + 1 =
    1 + Scan.decisionCount a + (1 + Scan.decisionCount b)
  rw [Scan.decisionCount_append_separator Scan.separates_lineFeed]
  omega

/-- The metrics of two sources joined by a line feed. -/
theorem metrics_of_joined_sources (path : Path) (a b : List Char) :
    (Line.insideAfter false (Text.lines a) = false →
      Line.classifyAll (a ++ '\n' :: b) = Line.classifyAll a ++ Line.classifyAll b ∧
      (ofSource path (a ++ '\n' :: b)).lines =
        (ofSource path a).lines + (ofSource path b).lines ∧
      (ofSource path (a ++ '\n' :: b)).emptyLines =
        (ofSource path a).emptyLines + (ofSource path b).emptyLines ∧
      (ofSource path (a ++ '\n' :: b)).commentLines =
        (ofSource path a).commentLines + (ofSource path b).commentLines ∧
      (ofSource path (a ++ '\n' :: b)).physicalLines =
        (ofSource path a).physicalLines + (ofSource path b).physicalLines ∧
      (ofSource path (a ++ '\n' :: b)).logicalLines =
        (ofSource path a).logicalLines + (ofSource path b).logicalLines) ∧
    (Line.insideAfter false (Text.lines a) = true →
      Line.classifyAll (a ++ '\n' :: b) =
        Line.classifyAll a ++
          ((Text.lines b).take (Line.firstMark (Text.lines b) + 1)).map Line.commented ++
          (Line.classifyAll b).drop (Line.firstMark (Text.lines b) + 1)) ∧
    (ofSource path (a ++ '\n' :: b)).complexity + 1 =
      (ofSource path a).complexity + (ofSource path b).complexity := by
  refine ⟨?_, ?_, complexity_join path a b⟩
  · intro hclosed
    have hkinds : Line.classifyAll (a ++ '\n' :: b) = Line.classifyAll a ++ Line.classifyAll b := by
      rw [Line.classifyAll_join, hclosed]
      rfl
    refine ⟨hkinds, ?_, ?_, ?_, ?_, ?_⟩
    · simp only [ofSource, hkinds, List.length_append]
    · simp only [ofSource, hkinds, List.countP_append]
    · simp only [ofSource, hkinds, List.countP_append]
    · simp only [ofSource, hkinds, List.length_append]
    · simp only [ofSource, hkinds, List.filterMap_append, Scan.logicalSum_append]
  · intro hopen
    rw [Line.classifyAll_join, hopen, Line.classifyFrom_true, List.append_assoc]
    rfl

/-- Joining behind a closed comment, and inside an open one whose end is on the second line of
the second source. -/
theorem metrics_of_joined_sources_both_ways :
    (Line.insideAfter false (Text.lines "/* a */".toList) = false ∧
      Line.classifyAll "/* a */\nif (b) // c".toList =
        Line.classifyAll "/* a */".toList ++ Line.classifyAll "if (b) // c".toList) ∧
    (Line.insideAfter false (Text.lines "/* a".toList) = true ∧
      Line.classifyAll "/* a\nb()\n*/ c()\nd()".toList =
        [.blockComment, .blockComment, .blockComment, .code "d()".toList]) := by
  refine ⟨⟨by decide, ?_⟩, by decide, ?_⟩
  · exact ((metrics_of_joined_sources ⟨"a.js".toList⟩ "/* a */".toList "if (b) // c".toList).1
      (by decide)).1
  · rw [show "/* a\nb()\n*/ c()\nd()".toList = "/* a".toList ++ '\n' :: "b()\n*/ c()\nd()".toList
      from rfl, (metrics_of_joined_sources ⟨"a.js".toList⟩ "/* a".toList
        "b()\n*/ c()\nd()".toList).2.1 (by decide)]
    decide

end FileMetrics

end SourceGauge
