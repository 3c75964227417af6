import SourceGauge.Metrics
import SourceGauge.Proofs.LineKinds

/-!
# Edits of comment text

Two sources whose lines differ only in the text of comments are classified alike, line by line:
each edit leaves the kind of its line, the code on it and the flag behind it as they were, so the
two runs stay in step. Of what is measured only the complexity looks at comment text.
-/

namespace SourceGauge

namespace Line

/-- Ways to change the text of a line, given whether a comment is open before it, that touch
comment text only. -/
inductive CommentEdit : Bool → List Char → List Char → Prop where
  | unchanged (inside : Bool) (line : List Char) : CommentEdit inside line line
  /-- Inside a comment, any text that closes it or not as before. -/
  | inside {line other : List Char} (filled : trim line ≠ []) (filled' : trim other ≠ [])
      (closes : Closes line ↔ Closes other) : CommentEdit true line other
  /-- Behind the mark that opens a comment. -/
  | opening {line other : List Char} (opens : Opens line) (opens' : Opens other)
      (closes : Closes line ↔ Closes other) : CommentEdit false line other
  /-- Behind a leading star. -/
  | starred {line other : List Char} (starred : [continuationMark] <+: trim line)
      (starred' : [continuationMark] <+: trim other) : CommentEdit false line other
  /-- Behind an inline mark, unless the line opens a comment. -/
  | behindMark (start x y : List Char) (unopened : ¬ Opens start) :
      CommentEdit false (start ++ inlineMark ++ x) (start ++ inlineMark ++ y)

/-! ## Lines with an inline mark -/

theorem not_isMargin_of_mem_blockOpen : ∀ c ∈ blockOpen, isMargin c = false := by
  intro c hc
  rcases List.mem_pair.1 hc with rfl | rfl
  · decide
  · decide

/-- Trimming stops at an inline mark from both sides. -/
theorem trim_marked (start x : List Char) :
    ∃ rest, trim (start ++ inlineMark ++ x) = start.dropWhile isMargin ++ inlineMark ++ rest := by
  let rest := x.rdropWhile isMargin
  have hbare : Text.Bare isMargin (start.dropWhile isMargin ++ inlineMark ++ rest) := by
    constructor
    · intro c hc
      cases hs : start.dropWhile isMargin with
      | nil =>
          have hslash : '/' = c := by simpa [hs, inlineMark] using hc
          subst hslash
          decide
      | cons d ds =>
          have hnot := List.head?_dropWhile_not isMargin start
          rw [hs] at hc hnot
          have hd : d = c := by simpa using hc
          subst hd
          simpa using hnot
    · intro c hc
      by_cases hr : rest = []
      · have hslash : '/' = c := by simpa [hr, inlineMark] using hc
        subst hslash
        decide
      · rw [List.getLast?_append_of_ne_nil _ hr, List.getLast?_eq_some_getLast hr] at hc
        cases hc
        simpa using List.rdropWhile_last_not isMargin x hr
  refine ⟨rest, ?_⟩
  have hline : start ++ inlineMark ++ x =
      start.takeWhile isMargin ++ (start.dropWhile isMargin ++ inlineMark ++ rest) ++
        x.rtakeWhile isMargin := by
    have hfront : start.takeWhile isMargin ++ start.dropWhile isMargin = start :=
      List.takeWhile_append_dropWhile
    have hback : rest ++ x.rtakeWhile isMargin = x := List.rdropWhile_append_rtakeWhile
    conv_lhs => rw [← hfront, ← hback]
    simp only [List.append_assoc]
  rw [hline]
  exact Text.trimBy_eq_of_bare hbare (fun c hc => List.mem_takeWhile_imp hc)
    (fun c hc => List.mem_rtakeWhile_imp hc)

theorem opens_of_prefix {start : List Char} (h : blockOpen <+: start.dropWhile isMargin) :
    Opens start := by
  apply Text.prefix_of_prefix_append_margin not_isMargin_of_mem_blockOpen
    (fun c hc => List.mem_rtakeWhile_imp hc)
  rwa [trim, Text.trimBy_eq_rdropWhile, List.rdropWhile_append_rtakeWhile]

/-- An inline mark does not complete the mark that opens a comment. -/
theorem not_prefix_marked {start rest : List Char} (h : ¬ blockOpen <+: start) :
    ¬ blockOpen <+: start ++ inlineMark ++ rest := by
  rcases start with _ | ⟨c, _ | ⟨d, ds⟩⟩
  · simp [blockOpen, inlineMark, List.cons_prefix_cons]
  · simp [blockOpen, inlineMark, List.cons_prefix_cons]
  · simpa [blockOpen, List.cons_prefix_cons] using h

theorem classifyPlain_append_of_mark (start rest : List Char) :
    classifyPlain (start ++ inlineMark ++ rest) = classifyPlain (start ++ inlineMark) := by
  have hhead : (start ++ inlineMark ++ rest).head? = (start ++ inlineMark).head? := by
    cases start with
    | nil => rfl
    | cons c cs => rfl
  have hmark : inlineMark <:+: start ++ inlineMark := (List.suffix_append start inlineMark).isInfix
  have hbefore := Text.before?_append_of_infix hmark rest
  unfold classifyPlain
  rw [hhead, hbefore]
  cases hb : Text.before? inlineMark (start ++ inlineMark) with
  | none => exact absurd hmark ((Text.before?_eq_none_iff _ _).1 hb)
  | some code => rfl

theorem classify_marked {start : List Char} (h : ¬ Opens start) (x : List Char) :
    classify (start ++ inlineMark ++ x) false =
      (classifyPlain (start.dropWhile isMargin ++ inlineMark), false) := by
  obtain ⟨rest, htrim⟩ := trim_marked start x
  have hfilled : trim (start ++ inlineMark ++ x) ≠ [] := by
    rw [htrim]
    simp [inlineMark]
  have hplain : ¬ (false = true ∨ Opens (start ++ inlineMark ++ x)) := by
    rintro (hfalse | hopens)
    · cases hfalse
    · rw [Opens, htrim] at hopens
      exact not_prefix_marked (mt opens_of_prefix h) hopens
  rw [classify_of_plain hfilled hplain, htrim, classifyPlain_append_of_mark]

/-! ## Two runs in step -/

theorem occursIn_blockClose_congr {line other : List Char} (h : Closes line ↔ Closes other) :
    Text.occursIn blockClose (trim line) = Text.occursIn blockClose (trim other) := by
  rw [Bool.eq_iff_iff, occursIn_blockClose_iff, occursIn_blockClose_iff]
  exact h

theorem classify_starred {line : List Char} (h : [continuationMark] <+: trim line) :
    classify line false = (.continuation, false) := by
  have hfilled : trim line ≠ [] := by
    intro hnil
    simp [hnil] at h
  have hplain : ¬ (false = true ∨ Opens line) := by
    rintro (hfalse | hopens)
    · cases hfalse
    · obtain ⟨rest, hrest⟩ := h
      rw [Opens, ← hrest] at hopens
      exact absurd (List.cons_prefix_cons.1 hopens).1 (by decide)
  rw [classify_of_plain hfilled hplain, classifyPlain, if_pos ((star_prefix_iff _).1 h)]

/-- An edited line has the kind and the code of the line before, and leaves the same flag. -/
theorem CommentEdit.classify_eq {inside : Bool} {line other : List Char}
    (h : CommentEdit inside line other) : classify line inside = classify other inside := by
  cases h with
  | unchanged => rfl
  | inside hfilled hfilled' hcloses =>
      rw [classify_of_commented hfilled (.inl rfl), classify_of_commented hfilled' (.inl rfl),
        occursIn_blockClose_congr hcloses]
  | opening hopens hopens' hcloses =>
      rw [classify_of_commented (fun hnil => not_opens_of_trim_eq_nil hnil hopens) (.inr hopens),
        classify_of_commented (fun hnil => not_opens_of_trim_eq_nil hnil hopens') (.inr hopens'),
        occursIn_blockClose_congr hcloses]
  | starred hstar hstar' => rw [classify_starred hstar, classify_starred hstar']
  | behindMark start x y hunopened => rw [classify_marked hunopened, classify_marked hunopened]

/-- The lines differ by edits of comment text only, judged by the flags of the first run. -/
def CommentEdits (inside : Bool) (ls others : List (List Char)) : Prop :=
  ls.length = others.length ∧
    ∀ i line other, ls[i]? = some line → others[i]? = some other →
      CommentEdit (insideAfter inside (ls.take i)) line other

theorem commentEdits_cons_iff (inside : Bool) (line other : List Char)
    (rest others : List (List Char)) :
    CommentEdits inside (line :: rest) (other :: others) ↔
      CommentEdit inside line other ∧ CommentEdits (classify line inside).2 rest others := by
  constructor
  · rintro ⟨hlen, hedit⟩
    refine ⟨hedit 0 line other rfl rfl, Nat.succ.inj hlen, ?_⟩
    intro i next next' hnext hnext'
    exact hedit (i + 1) next next' hnext hnext'
  · rintro ⟨hline, hlen, hedit⟩
    refine ⟨congrArg Nat.succ hlen, ?_⟩
    intro i next next' hnext hnext'
    cases i with
    | zero =>
        cases hnext
        cases hnext'
        exact hline
    | succ i => exact hedit i next next' hnext hnext'

/-- The second run gives the kinds of the first. -/
theorem CommentEdits.classifyFrom_eq {inside : Bool} {ls others : List (List Char)}
    (h : CommentEdits inside ls others) : classifyFrom inside ls = classifyFrom inside others := by
  induction ls generalizing inside others with
  | nil => rw [List.length_eq_zero_iff.1 h.1.symm]
  | cons line rest ih =>
      cases others with
      | nil => cases h.1
      | cons other others =>
          obtain ⟨hline, hrest⟩ := (commentEdits_cons_iff ..).1 h
          rw [classifyFrom, classifyFrom, ih hrest, hline.classify_eq]

end Line

namespace FileMetrics

/-- Edits of comment text change neither the kinds of the lines nor any metric that is taken from
them. -/
theorem comment_text_is_not_measured (path : Path) (a b : List Char)
    (h : Line.CommentEdits false (Text.lines a) (Text.lines b)) :
    Line.classifyAll a = Line.classifyAll b ∧
    (ofSource path a).lines = (ofSource path b).lines ∧
    (ofSource path a).emptyLines = (ofSource path b).emptyLines ∧
    (ofSource path a).commentLines = (ofSource path b).commentLines ∧
    (ofSource path a).commenting = (ofSource path b).commenting ∧
    (ofSource path a).physicalLines = (ofSource path b).physicalLines ∧
    (ofSource path a).logicalLines = (ofSource path b).logicalLines := by
  have hkinds : Line.classifyAll a = Line.classifyAll b := h.classifyFrom_eq
  simp only [ofSource, hkinds, and_self]

/-- One edit of each sort. The decision points that the edits bring in are seen by the complexity
alone. -/
theorem comment_text_is_not_measured_each_edit :
    Line.CommentEdits false (Text.lines "/* a\n b\n*/\n * c\nd() // e".toList)
      (Text.lines "/* if\n && //\nif */\n *case\nd() // f || g */".toList) ∧
    (ofSource ⟨"a.js".toList⟩ "/* a\n b\n*/\n * c\nd() // e".toList).logicalLines =
      (ofSource ⟨"a.js".toList⟩
        "/* if\n && //\nif */\n *case\nd() // f || g */".toList).logicalLines ∧
    (ofSource ⟨"a.js".toList⟩ "/* a\n b\n*/\n * c\nd() // e".toList).complexity = 1 ∧
    (ofSource ⟨"a.js".toList⟩
      "/* if\n && //\nif */\n *case\nd() // f || g */".toList).complexity = 6 := by
  have hedits : Line.CommentEdits false (Text.lines "/* a\n b\n*/\n * c\nd() // e".toList)
      (Text.lines "/* if\n && //\nif */\n *case\nd() // f || g */".toList) := by
    refine (Line.commentEdits_cons_iff ..).2 ⟨.opening (by decide) (by decide) (by decide), ?_⟩
    refine (Line.commentEdits_cons_iff ..).2 ⟨.inside (by decide) (by decide) (by decide), ?_⟩
    refine (Line.commentEdits_cons_iff ..).2 ⟨.inside (by decide) (by decide) (by decide), ?_⟩
    refine (Line.commentEdits_cons_iff ..).2 ⟨.starred (by decide) (by decide), ?_⟩
    refine (Line.commentEdits_cons_iff ..).2
      ⟨.behindMark "d() ".toList " e".toList " f || g */".toList (by decide), ?_⟩
    exact ⟨rfl, by simp⟩
  have hsame := comment_text_is_not_measured ⟨"a.js".toList⟩ _ _ hedits
  exact ⟨hedits, hsame.2.2.2.2.2.2, by decide, by decide⟩

end FileMetrics

end SourceGauge
