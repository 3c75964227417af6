import SourceGauge.Line
import SourceGauge.Proofs.Text

/-!
# The kinds of lines without a running flag

The classifier hands a flag from line to line. Here the flag before a line is read off the
lines themselves: the last line that opens a block comment, or the flag at the start, with no
closing marker since. The kind of a line then follows from that condition and the line.
-/

namespace SourceGauge.Line

/-! ## Marks and margins -/

/-- The trimmed line starts with the opening mark. -/
def Opens (line : List Char) : Prop := blockOpen <+: trim line

/-- The closing mark stands somewhere on the line. -/
def Closes (line : List Char) : Prop := blockClose <:+: line

theorem blockOpen_isPrefixOf_iff (line : List Char) :
    blockOpen.isPrefixOf (trim line) = true ↔ Opens line :=
  List.isPrefixOf_iff_prefix

theorem not_isMargin_of_mem_blockClose : ∀ c ∈ blockClose, isMargin c = false := by
  intro c hc
  simp only [blockClose, List.mem_cons, List.not_mem_nil, or_false] at hc
  rcases hc with rfl | rfl
  · decide
  · decide

/-- The closing mark is searched on the trimmed line, which makes no difference. -/
theorem occursIn_blockClose_iff (line : List Char) :
    Text.occursIn blockClose (trim line) = true ↔ Closes line := by
  rw [Text.occursIn_iff]
  exact Text.infix_trimBy_iff line (by decide) not_isMargin_of_mem_blockClose

theorem not_opens_of_trim_eq_nil {line : List Char} (h : trim line = []) : ¬ Opens line := by
  unfold Opens
  rw [h]
  decide

theorem not_closes_of_trim_eq_nil {line : List Char} (h : trim line = []) : ¬ Closes line := by
  rw [← occursIn_blockClose_iff, h]
  decide

instance : DecidablePred Opens := fun line =>
  decidable_of_iff _ (blockOpen_isPrefixOf_iff line)

instance : DecidablePred Closes := fun line =>
  decidable_of_iff _ (occursIn_blockClose_iff line)

/-! ## One line -/

theorem classify_of_blank {line : List Char} (h : trim line = []) (inside : Bool) :
    classify line inside = (.blank, inside) := by
  simp [classify, h]

theorem classify_of_commented {line : List Char} {inside : Bool} (hne : trim line ≠ [])
    (h : inside = true ∨ Opens line) :
    classify line inside = (.blockComment, !Text.occursIn blockClose (trim line)) := by
  have hcond : (inside || blockOpen.isPrefixOf (trim line)) = true := by
    rw [Bool.or_eq_true, blockOpen_isPrefixOf_iff]
    exact h
  simp [classify, hne, hcond]

theorem classify_of_plain {line : List Char} {inside : Bool} (hne : trim line ≠ [])
    (h : ¬ (inside = true ∨ Opens line)) :
    classify line inside = (classifyPlain (trim line), false) := by
  have hcond : ¬ (inside || blockOpen.isPrefixOf (trim line)) = true := by
    rw [Bool.or_eq_true, blockOpen_isPrefixOf_iff]
    exact h
  simp [classify, hne, hcond]

/-- A comment is open behind a line that opens one or stands in one, unless the line closes it. -/
theorem classify_flag_iff (line : List Char) (inside : Bool) :
    (classify line inside).2 = true ↔ (Opens line ∨ inside = true) ∧ ¬ Closes line := by
  by_cases hblank : trim line = []
  · have hopens := not_opens_of_trim_eq_nil hblank
    have hcloses := not_closes_of_trim_eq_nil hblank
    simp [classify_of_blank hblank, hopens, hcloses]
  · by_cases hcomment : inside = true ∨ Opens line
    · rw [classify_of_commented hblank hcomment, ← occursIn_blockClose_iff]
      simp [hcomment.symm]
    · rw [classify_of_plain hblank hcomment]
      simp [mt Or.symm hcomment]

/-- What a line is, given whether a comment is open before it. The cases exclude each other
and one of them always holds. -/
inductive HasKind (inside : Prop) (line : List Char) : Kind → Prop where
  | blank (empty : trim line = []) : HasKind inside line .blank
  | blockComment (filled : trim line ≠ []) (commented : inside ∨ Opens line) :
      HasKind inside line .blockComment
  | continuation (filled : trim line ≠ []) (plain : ¬ (inside ∨ Opens line))
      (starred : [continuationMark] <+: trim line) : HasKind inside line .continuation
  | inlineComment (filled : trim line ≠ []) (plain : ¬ (inside ∨ Opens line))
      (unstarred : ¬ [continuationMark] <+: trim line) (start : List Char)
      (first : Text.FirstAfter inlineMark start (trim line)) :
      HasKind inside line (.inlineComment (if trim start = [] then none else some (trim start)))
  | code (filled : trim line ≠ []) (plain : ¬ (inside ∨ Opens line))
      (unstarred : ¬ [continuationMark] <+: trim line)
      (unmarked : ¬ inlineMark <:+: trim line) : HasKind inside line (.code (trim line))

theorem star_prefix_iff (s : List Char) :
    [continuationMark] <+: s ↔ s.head? = some continuationMark := by
  cases s with
  | nil => simp
  | cons c cs => simp [List.cons_prefix_cons, eq_comm]

/-- The classifier gives a line the kind that it has. -/
theorem hasKind_classify (line : List Char) (inside : Bool) :
    HasKind (inside = true) line (classify line inside).1 := by
  by_cases hblank : trim line = []
  · rw [classify_of_blank hblank]
    exact .blank hblank
  · by_cases hcomment : inside = true ∨ Opens line
    · rw [classify_of_commented hblank hcomment]
      exact .blockComment hblank hcomment
    · rw [classify_of_plain hblank hcomment]
      by_cases hstar : [continuationMark] <+: trim line
      · have hhead := (star_prefix_iff _).1 hstar
        simp only [classifyPlain, hhead, if_true]
        exact .continuation hblank hcomment hstar
      · have hhead := mt (star_prefix_iff _).2 hstar
        simp only [classifyPlain, hhead, if_false]
        cases hbefore : Text.before? inlineMark (trim line) with
        | none =>
            have hmark := (Text.before?_eq_none_iff _ _).1 hbefore
            exact .code hblank hcomment hstar hmark
        | some start =>
            have hfirst := (Text.before?_eq_some_iff _ _ _).1 hbefore
            simp only [List.isEmpty_iff]
            exact .inlineComment hblank hcomment hstar start hfirst

/-- Each case determines what the classifier does. -/
theorem classify_of_hasKind {line : List Char} {inside : Bool} {kind : Kind}
    (h : HasKind (inside = true) line kind) : (classify line inside).1 = kind := by
  cases h with
  | blank hblank => rw [classify_of_blank hblank]
  | blockComment hfilled hcomment => rw [classify_of_commented hfilled hcomment]
  | continuation hfilled hplain hstar =>
      have hhead := (star_prefix_iff _).1 hstar
      rw [classify_of_plain hfilled hplain, classifyPlain, if_pos hhead]
  | inlineComment hfilled hplain hstar start hfirst =>
      have hhead := mt (star_prefix_iff _).2 hstar
      have hbefore := (Text.before?_eq_some_iff _ _ _).2 hfirst
      rw [classify_of_plain hfilled hplain, classifyPlain, if_neg hhead, hbefore]
      simp only [List.isEmpty_iff]
  | code hfilled hplain hstar hmark =>
      have hhead := mt (star_prefix_iff _).2 hstar
      have hbefore := (Text.before?_eq_none_iff _ _).2 hmark
      rw [classify_of_plain hfilled hplain, classifyPlain, if_neg hhead, hbefore]

theorem hasKind_iff (line : List Char) (inside : Bool) (kind : Kind) :
    HasKind (inside = true) line kind ↔ (classify line inside).1 = kind := by
  constructor
  · exact classify_of_hasKind
  · intro h
    subst h
    exact hasKind_classify line inside

/-! ## The flag before a line -/

/-- None of the lines from `j` up to, but without, `k` holds the closing mark. -/
def NoneCloses (ls : List (List Char)) (j k : Nat) : Prop :=
  ∀ i, j ≤ i → i < k → ∀ line, ls[i]? = some line → ¬ Closes line

/-- Some line before `k` opens a comment that no line up to `k` closes. -/
def OpenedBefore (ls : List (List Char)) (k : Nat) : Prop :=
  ∃ j < k, (∃ line, ls[j]? = some line ∧ Opens line) ∧ NoneCloses ls j k

/-- A comment is open before line `k`: it was opened by an earlier line, or it is the one that
was open at the start. -/
def OpenBefore (inside : Bool) (ls : List (List Char)) (k : Nat) : Prop :=
  OpenedBefore ls k ∨ inside = true ∧ NoneCloses ls 0 k

theorem noneCloses_of_le {ls : List (List Char)} {j k : Nat} (h : k ≤ j) : NoneCloses ls j k := by
  intro i hj hk
  omega

theorem noneCloses_succ {ls : List (List Char)} {j k : Nat} {line : List Char} (hjk : j ≤ k)
    (hline : ls[k]? = some line) :
    NoneCloses ls j (k + 1) ↔ NoneCloses ls j k ∧ ¬ Closes line := by
  constructor
  · intro h
    refine ⟨fun i hj hk => h i hj (by omega), h k hjk (by omega) line hline⟩
  · intro hboth i hj hk other hother
    obtain ⟨h, hcloses⟩ := hboth
    rcases Nat.lt_succ_iff_lt_or_eq.1 hk with hlt | rfl
    · exact h i hj hlt other hother
    · rw [hline] at hother
      cases hother
      exact hcloses

theorem openedBefore_succ {ls : List (List Char)} {k : Nat} {line : List Char}
    (hline : ls[k]? = some line) :
    OpenedBefore ls (k + 1) ↔ (Opens line ∨ OpenedBefore ls k) ∧ ¬ Closes line := by
  constructor
  · intro h
    obtain ⟨j, hj, ⟨opener, hopener, hopens⟩, hnone⟩ := h
    obtain ⟨hnone, hcloses⟩ := (noneCloses_succ (Nat.le_of_lt_succ hj) hline).1 hnone
    refine ⟨?_, hcloses⟩
    rcases Nat.lt_succ_iff_lt_or_eq.1 hj with hlt | rfl
    · exact Or.inr ⟨j, hlt, ⟨opener, hopener, hopens⟩, hnone⟩
    · rw [hline] at hopener
      cases hopener
      exact Or.inl hopens
  · intro h
    obtain ⟨hopens | ⟨j, hj, hopener, hnone⟩, hcloses⟩ := h
    · have hnone := (noneCloses_succ le_rfl hline).2 ⟨noneCloses_of_le le_rfl, hcloses⟩
      exact ⟨k, Nat.lt_succ_self k, ⟨line, hline, hopens⟩, hnone⟩
    · exact ⟨j, by omega, hopener, (noneCloses_succ hj.le hline).2 ⟨hnone, hcloses⟩⟩

/-- The condition moves over a line as the flag does. -/
theorem openBefore_succ {inside : Bool} {ls : List (List Char)} {k : Nat} {line : List Char}
    (hline : ls[k]? = some line) :
    OpenBefore inside ls (k + 1) ↔ (Opens line ∨ OpenBefore inside ls k) ∧ ¬ Closes line := by
  unfold OpenBefore
  rw [openedBefore_succ hline, noneCloses_succ (Nat.zero_le k) hline]
  tauto

theorem openBefore_succ_of_none {inside : Bool} {ls : List (List Char)} {k : Nat}
    (hnone : ls[k]? = none) : OpenBefore inside ls (k + 1) ↔ OpenBefore inside ls k := by
  have hsame : ∀ j, NoneCloses ls j (k + 1) ↔ NoneCloses ls j k := by
    intro j
    refine ⟨fun h i hj hk => h i hj (by omega), fun h i hj hk line hline => ?_⟩
    rcases Nat.lt_succ_iff_lt_or_eq.1 hk with hlt | rfl
    · exact h i hj hlt line hline
    · rw [hnone] at hline
      cases hline
  unfold OpenBefore OpenedBefore
  simp only [hsame]
  refine or_congr_left ⟨?_, ?_⟩
  · intro hopened
    obtain ⟨j, hj, ⟨line, hline, hopens⟩, h⟩ := hopened
    rcases Nat.lt_succ_iff_lt_or_eq.1 hj with hlt | rfl
    · exact ⟨j, hlt, ⟨line, hline, hopens⟩, h⟩
    · rw [hnone] at hline
      cases hline
  · intro hopened
    obtain ⟨j, hj, hopener, h⟩ := hopened
    exact ⟨j, by omega, hopener, h⟩

theorem insideAfter_append (inside : Bool) (first second : List (List Char)) :
    insideAfter inside (first ++ second) = insideAfter (insideAfter inside first) second := by
  simp [insideAfter]

theorem insideAfter_take_succ {ls : List (List Char)} {k : Nat} {line : List Char}
    (inside : Bool) (hline : ls[k]? = some line) :
    insideAfter inside (ls.take (k + 1)) = (classify line (insideAfter inside (ls.take k))).2 := by
  rw [List.take_add_one, hline, Option.toList_some, insideAfter_append]
  rfl

/-- The flag is set before exactly those lines before which a comment is open. -/
theorem insideAfter_take_iff (inside : Bool) (ls : List (List Char)) (k : Nat) :
    insideAfter inside (ls.take k) = true ↔ OpenBefore inside ls k := by
  induction k with
  | zero =>
      have hnone : NoneCloses ls 0 0 := noneCloses_of_le le_rfl
      simp [OpenBefore, OpenedBefore, hnone]
  | succ k ih =>
      cases hline : ls[k]? with
      | none =>
          rw [List.take_add_one, hline, Option.toList_none, List.append_nil,
            openBefore_succ_of_none hline]
          exact ih
      | some line =>
          rw [insideAfter_take_succ inside hline, classify_flag_iff, openBefore_succ hline, ih]

/-! ## Runs of lines -/

theorem getElem?_classifyFrom (inside : Bool) (ls : List (List Char)) (k : Nat) :
    (classifyFrom inside ls)[k]? =
      ls[k]?.map fun line => (classify line (insideAfter inside (ls.take k))).1 := by
  induction ls generalizing inside k with
  | nil => rfl
  | cons line rest ih =>
      cases k with
      | zero => rfl
      | succ k => simpa [classifyFrom] using ih (classify line inside).2 k

theorem classifyFrom_eq_some_iff (inside : Bool) (ls : List (List Char)) (k : Nat) (kind : Kind) :
    (classifyFrom inside ls)[k]? = some kind ↔
      ∃ line, ls[k]? = some line ∧ HasKind (OpenBefore inside ls k) line kind := by
  rw [getElem?_classifyFrom, Option.map_eq_some_iff]
  refine exists_congr fun line => and_congr_right fun _ => ?_
  rw [← hasKind_iff, propext (insideAfter_take_iff inside ls k)]

theorem openBefore_false_iff (ls : List (List Char)) (k : Nat) :
    OpenBefore false ls k ↔ OpenedBefore ls k := by
  simp [OpenBefore]

/-- The flag before a line and the kind of the line, for every run of lines and every flag at
its start. In a whole source only the earlier lines can open a comment. -/
theorem kinds_from_lines_alone (inside : Bool) (ls : List (List Char)) (source : List Char)
    (k : Nat) (kind : Kind) :
    (insideAfter inside (ls.take k) = true ↔ OpenBefore inside ls k) ∧
    ((classifyFrom inside ls)[k]? = some kind ↔
      ∃ line, ls[k]? = some line ∧ HasKind (OpenBefore inside ls k) line kind) ∧
    ((classifyAll source)[k]? = some kind ↔
      ∃ line, (Text.lines source)[k]? = some line ∧
        HasKind (OpenedBefore (Text.lines source) k) line kind) := by
  refine ⟨insideAfter_take_iff inside ls k, classifyFrom_eq_some_iff inside ls k kind, ?_⟩
  rw [classifyAll, classifyFrom_eq_some_iff, propext (openBefore_false_iff _ k)]

end SourceGauge.Line
