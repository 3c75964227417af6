import SourceGauge.Metrics
import SourceGauge.Proofs.DecisionSeams
import SourceGauge.Proofs.LineKinds

/-!
# Stripped sources

The code portions of a source, put one on a line, are a source of their own. It is a normal form:
every line of it is code and is its own portion, it has the logical lines of the source, and its
complexity is not greater.
-/

namespace SourceGauge

namespace Line

/-! ## Portions -/

/-- What makes a text a line of code that is its own portion. -/
structure Portion (p : List Char) : Prop where
  filled : p ≠ []
  bare : Text.Bare isMargin p
  unmarked : ¬ inlineMark <:+: p
  unopened : ¬ blockOpen <+: p
  unstarred : ¬ [continuationMark] <+: p

theorem Portion.trim_eq {p : List Char} (h : Portion p) : trim p = p := Text.trimBy_of_bare h.bare

/-- Outside comments a portion is classified as itself. -/
theorem Portion.classify_eq {p : List Char} (h : Portion p) :
    classify p false = (.code p, false) := by
  have hplain : ¬ (false = true ∨ Opens p) := by
    intro h'
    rcases h' with hfalse | hopens
    · cases hfalse
    · rw [Opens, h.trim_eq] at hopens
      exact h.unopened hopens
  have hhead : p.head? ≠ some continuationMark := mt (star_prefix_iff p).2 h.unstarred
  have hbefore := (Text.before?_eq_none_iff inlineMark p).2 h.unmarked
  rw [classify_of_plain (by rw [h.trim_eq]; exact h.filled) hplain, h.trim_eq]
  simp [classifyPlain, hhead, hbefore]

/-- A portion of a line: it has the form of one, and it stands in the line behind a margin and
before the end or a character that is no part of a decision point. -/
structure PortionOf (line p : List Char) : Prop extends Portion p where
  cut : ∃ left right, line = left ++ (p ++ right) ∧ (∀ c ∈ left, isMargin c = true) ∧
    ∀ c, right.head? = some c → Scan.Separates c

theorem separates_head_of_margin {right : List Char} (h : ∀ c ∈ right, isMargin c = true) (c : Char)
    (hc : right.head? = some c) : Scan.Separates c :=
  Scan.separates_of_isMargin (h c (List.mem_of_mem_head? hc))

theorem portionOf_of_code {line : List Char} (hfilled : trim line ≠ []) (hplain : ¬ Opens line)
    (hstar : ¬ [continuationMark] <+: trim line) (hmark : ¬ inlineMark <:+: trim line) :
    PortionOf line (trim line) := by
  obtain ⟨left, right, hline, hleft, hright⟩ := Text.trimBy_decomposition isMargin line
  refine ⟨⟨hfilled, Text.bare_trimBy isMargin line, hmark, hplain, hstar⟩, left, right, ?_, hleft,
    separates_head_of_margin hright⟩
  rw [← List.append_assoc]
  exact hline

/-- The text before an inline comment starts where the trimmed line does, so trimming it again
takes away a right margin only. -/
theorem portionOf_of_inline {line start : List Char} (hplain : ¬ Opens line)
    (hstar : ¬ [continuationMark] <+: trim line)
    (hfirst : Text.FirstAfter inlineMark start (trim line)) (hfilled : trim start ≠ []) :
    PortionOf line (trim start) := by
  obtain ⟨left, right, hline, hleft, hright⟩ := Text.trimBy_decomposition isMargin line
  obtain ⟨tail, htail⟩ := hfirst.1
  have hhead : ∀ c, start.head? = some c → isMargin c = false := by
    intro c hc
    refine (Text.bare_trimBy isMargin line).1 c ?_
    change (trim line).head? = some c
    rw [← htail, List.append_assoc, List.head?_append, hc]
    rfl
  obtain ⟨gap, hstart, hgap⟩ := Text.trimBy_right_only hhead
  change start = trim start ++ gap at hstart
  have hstartPre : trim start <+: start := ⟨gap, hstart.symm⟩
  have hpre : trim start <+: trim line :=
    hstartPre.trans ((List.prefix_append start inlineMark).trans hfirst.1)
  refine ⟨⟨hfilled, Text.bare_trimBy isMargin start, ?_, ?_, ?_⟩, left,
    gap ++ (inlineMark ++ (tail ++ right)), ?_, hleft, ?_⟩
  · intro hmark
    exact hfirst.absent_before (by decide) (hmark.trans hstartPre.isInfix)
  · intro hopens
    exact hplain (hopens.trans hpre)
  · intro hstarred
    exact hstar (hstarred.trans hpre)
  · calc line = left ++ trim line ++ right := hline
      _ = left ++ (trim start ++ gap ++ inlineMark ++ tail) ++ right := by rw [← hstart, htail]
      _ = left ++ (trim start ++ (gap ++ (inlineMark ++ (tail ++ right)))) := by simp
  · intro c hc
    cases gap with
    | nil =>
        have hslash : '/' = c := by simpa [inlineMark] using hc
        subst hslash
        decide
    | cons d ds =>
        have hd : d = c := by simpa using hc
        subst hd
        exact Scan.separates_of_isMargin (hgap d (List.mem_cons_self ..))

theorem portionOf_of_hasKind {inside : Prop} {line p : List Char} {kind : Kind}
    (h : HasKind inside line kind) (hcode : kind.code? = some p) : PortionOf line p := by
  cases h with
  | blank _ => cases hcode
  | blockComment _ _ => cases hcode
  | continuation _ _ _ => cases hcode
  | inlineComment hfilled hplain hstar start hfirst =>
      have hcode : (if trim start = [] then none else some (trim start)) = some p := hcode
      split at hcode
      · cases hcode
      · rename_i hstart
        cases hcode
        exact portionOf_of_inline (fun hopens => hplain (Or.inr hopens)) hstar hfirst hstart
  | code hfilled hplain hstar hmark =>
      cases hcode
      exact portionOf_of_code hfilled (fun hopens => hplain (Or.inr hopens)) hstar hmark

theorem portionOf_of_classify {line p : List Char} {inside : Bool}
    (h : (classify line inside).1.code? = some p) : PortionOf line p :=
  portionOf_of_hasKind (hasKind_classify line inside) h

theorem PortionOf.isInfix {line p : List Char} (h : PortionOf line p) : p <:+: line := by
  obtain ⟨left, right, rfl, -, -⟩ := h.cut
  exact List.infix_append' left p right

/-- No decision point of a portion is lost or made by cutting it out of its line. -/
theorem PortionOf.decisionCount_le {line p : List Char} (h : PortionOf line p) :
    Scan.decisionCount p ≤ Scan.decisionCount line := by
  obtain ⟨left, right, rfl, hleft, hright⟩ := h.cut
  rw [Scan.decisionCount_separators_append fun c hc => Scan.separates_of_isMargin (hleft c hc)]
  cases right with
  | nil => rw [List.append_nil]
  | cons c cs =>
      rw [Scan.decisionCount_append_separator (hright c rfl)]
      exact Nat.le_add_right _ _

/-! ## Runs of portions -/

theorem exists_portionOf_of_mem {ls : List (List Char)} {inside : Bool} {p : List Char}
    (h : p ∈ (classifyFrom inside ls).filterMap Kind.code?) : ∃ line ∈ ls, PortionOf line p := by
  obtain ⟨kind, hkind, hcode⟩ := List.mem_filterMap.1 h
  obtain ⟨k, hk⟩ := List.getElem?_of_mem hkind
  rw [getElem?_classifyFrom, Option.map_eq_some_iff] at hk
  obtain ⟨line, hline, rfl⟩ := hk
  exact ⟨line, List.mem_of_getElem? hline, portionOf_of_classify hcode⟩

theorem classifyFrom_portions {ps : List (List Char)} (h : ∀ p ∈ ps, Portion p) :
    classifyFrom false ps = ps.map .code := by
  induction ps with
  | nil => rfl
  | cons p ps ih =>
      have hp := (h p (List.mem_cons_self ..)).classify_eq
      have hps := ih fun q hq => h q (List.mem_cons_of_mem p hq)
      rw [classifyFrom, hp, List.map_cons, hps]

/-- Line by line, the portions have no more decision points than the source. -/
theorem sum_decisionCount_portions_le (inside : Bool) (ls : List (List Char)) :
    (((classifyFrom inside ls).filterMap Kind.code?).map Scan.decisionCount).sum ≤
      (ls.map Scan.decisionCount).sum := by
  induction ls generalizing inside with
  | nil => exact Nat.le_refl _
  | cons line rest ih =>
      have hrest := ih (classify line inside).2
      rw [classifyFrom, List.filterMap_cons, List.map_cons, List.sum_cons]
      cases hcode : (classify line inside).1.code? with
      | none =>
          dsimp only
          omega
      | some p =>
          have hp := (portionOf_of_classify hcode).decisionCount_le
          rw [List.map_cons, List.sum_cons]
          omega

/-! ## Counts -/

theorem Count.foldl_addLine (n : Count) (kinds : List Kind) :
    kinds.foldl Count.addLine n =
      ⟨n.lines + kinds.length, n.blank + kinds.countP (· = .blank),
        n.comments + kinds.countP Kind.isComment,
        n.code + (kinds.filterMap Kind.code?).length⟩ := by
  induction kinds generalizing n with
  | nil => rfl
  | cons kind kinds ih =>
      rw [List.foldl_cons, ih, Count.addLine]
      simp only [List.length_cons, List.countP_cons, List.filterMap_cons, decide_eq_true_eq]
      -- three of the four sums only need reordering; the last one depends on the portion
      cases hcode : kind.code? with
      | none =>
          simp only [Option.isSome_none, Bool.false_eq_true, if_false]
          congr 1 <;> omega
      | some p =>
          simp only [Option.isSome_some, if_true, List.length_cons]
          congr 1 <;> omega

theorem Count.ofSource_code (source : List Char) :
    (Count.ofSource source).code = (codePortions source).length := by
  rw [Count.ofSource, Count.foldl_addLine]
  exact Nat.zero_add _

/-! ## The stripped source -/

theorem portion_of_mem_codePortions {source p : List Char} (h : p ∈ codePortions source) :
    Portion p ∧ '\n' ∉ p := by
  obtain ⟨line, hline, hp⟩ := exists_portionOf_of_mem h
  refine ⟨hp.toPortion, ?_⟩
  intro hmem
  exact Text.not_mem_of_mem_splitOn hline (hp.isInfix.mem hmem)

theorem classifyAll_strip {source : List Char} (h : codePortions source ≠ []) :
    classifyAll (strip source) = (codePortions source).map .code := by
  have hlines := Text.lines_unlines h fun p hp => (portion_of_mem_codePortions hp).2
  rw [classifyAll, strip, hlines]
  exact classifyFrom_portions fun p hp => (portion_of_mem_codePortions hp).1

theorem filterMap_code?_map_code (ps : List (List Char)) :
    (ps.map Kind.code).filterMap Kind.code? = ps := by
  induction ps with
  | nil => rfl
  | cons p ps ih =>
      rw [List.map_cons, List.filterMap_cons, ih]
      rfl

theorem codePortions_strip {source : List Char} (h : codePortions source ≠ []) :
    codePortions (strip source) = codePortions source := by
  rw [codePortions, classifyAll_strip h, filterMap_code?_map_code]

theorem decisionCount_strip_le (source : List Char) :
    Scan.decisionCount (strip source) ≤ Scan.decisionCount source := by
  rw [strip, Scan.decisionCount_unlines, Scan.decisionCount_eq_sum_lines source]
  exact sum_decisionCount_portions_le false (Text.lines source)

end Line

namespace FileMetrics

/-- A source with a line of code, stripped of everything else, is in normal form. -/
theorem strip_is_normal_form (path : Path) (source : List Char)
    (h : 0 < (Line.Count.ofSource source).code) :
    Line.classifyAll (Line.strip source) = (Line.codePortions source).map .code ∧
    (ofSource path (Line.strip source)).emptyLines = 0 ∧
    (ofSource path (Line.strip source)).commentLines = 0 ∧
    (ofSource path (Line.strip source)).lines = (Line.Count.ofSource source).code ∧
    (ofSource path (Line.strip source)).logicalLines = (ofSource path source).logicalLines ∧
    (ofSource path (Line.strip source)).complexity ≤ (ofSource path source).complexity ∧
    Line.strip (Line.strip source) = Line.strip source := by
  rw [Line.Count.ofSource_code] at h
  have hne := List.ne_nil_of_length_pos h
  have hkinds := Line.classifyAll_strip hne
  have hportions := Line.codePortions_strip hne
  refine ⟨hkinds, ?_, ?_, ?_, ?_, ?_, ?_⟩
  · simp only [ofSource, hkinds, List.countP_map]
    simp [List.countP_eq_zero]
  · simp only [ofSource, hkinds, List.countP_map]
    simp [List.countP_eq_zero, Line.Kind.isComment]
  · simp only [ofSource, hkinds, List.length_map, Line.Count.ofSource_code]
  · exact congrArg Scan.logicalSum hportions
  · exact Nat.add_le_add_left (Line.decisionCount_strip_le source) 1
  · exact congrArg Text.unlines hportions

/-- A source with every kind of line. -/
theorem strip_is_normal_form_mixed :
    0 < (Line.Count.ofSource "/* a\n */\n\n * b\n if (c) // d && e\nf()".toList).code ∧
    Line.strip "/* a\n */\n\n * b\n if (c) // d && e\nf()".toList = "if (c)\nf()".toList ∧
    Line.classifyAll "if (c)\nf()".toList = [.code "if (c)".toList, .code "f()".toList] := by
  have hstrip : Line.strip "/* a\n */\n\n * b\n if (c) // d && e\nf()".toList =
      "if (c)\nf()".toList := by decide
  refine ⟨by decide, hstrip, ?_⟩
  rw [← hstrip, (strip_is_normal_form ⟨"a.js".toList⟩
    "/* a\n */\n\n * b\n if (c) // d && e\nf()".toList (by decide)).1]
  decide

end FileMetrics

end SourceGauge
