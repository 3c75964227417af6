import SourceGauge.Proofs.Stripping

/-!
# The two counters of a file

Logical expressions are counted in the code portions, decision points in the raw text. A logical
expression that is no call is a decision point of its portion, and a portion has no decision
point that its line lacks. A call ends with a closing parenthesis of its own, and since this is a
separator, the two scans are at the same place again behind it.
-/

namespace SourceGauge

namespace Scan

/-! ## Steps of a scan -/

/-- How many matches a scan finds that starts behind the character `previous`. -/
def countFrom (matcher : Matcher α) (previous : Option Char) (text : List Char) : Nat :=
  (spansFrom matcher 0 0 previous text).length

theorem length_spansFrom (matcher : Matcher α) (position : Nat) (previous : Option Char)
    (text : List Char) :
    (spansFrom matcher position 0 previous text).length = countFrom matcher previous text := by
  have hshift := spansFrom_add matcher 0 position 0 previous text
  rw [Nat.zero_add] at hshift
  rw [hshift, List.length_map]
  rfl

@[simp] theorem countFrom_nil (matcher : Matcher α) (previous : Option Char) :
    countFrom matcher previous [] = 0 := rfl

theorem countFrom_of_none {matcher : Matcher α} {previous : Option Char} {c : Char}
    {cs : List Char} (h : matcher previous (c :: cs) = none) :
    countFrom matcher previous (c :: cs) = countFrom matcher (some c) cs := by
  rw [countFrom, spansFrom]
  simp only [h]
  exact length_spansFrom matcher 1 (some c) cs

/-- The rest of a match is passed over. -/
theorem spansFrom_skip (matcher : Matcher α) (position : Nat) (previous : Option Char)
    (skipped rest : List Char) :
    spansFrom matcher position skipped.length previous (skipped ++ rest) =
      spansFrom matcher (position + skipped.length) 0 (skipped.getLast?.or previous) rest := by
  induction skipped generalizing position previous with
  | nil => rfl
  | cons c cs ih =>
      rw [List.length_cons, List.cons_append, spansFrom, ih, getLast?_cons_or]
      congr 1
      omega

/-- A match is listed, and the scan goes on behind it. -/
theorem spansFrom_of_some {matcher : Matcher α} {previous : Option Char} {kind : α} {c : Char}
    {cs rest : List Char} (position : Nat)
    (h : matcher previous (c :: cs ++ rest) = some (kind, (c :: cs).length)) :
    spansFrom matcher position 0 previous (c :: cs ++ rest) =
      ⟨kind, position, (c :: cs).length⟩ ::
        spansFrom matcher (position + (c :: cs).length) 0 (c :: cs).getLast? rest := by
  have hlast := getLast?_cons_or c cs none
  have hposition : position + 1 + cs.length = position + (cs.length + 1) := by omega
  rw [Option.or_none] at hlast
  rw [List.cons_append] at h ⊢
  rw [spansFrom]
  simp only [h, List.length_cons, Nat.add_sub_cancel]
  rw [spansFrom_skip, hlast, hposition]

theorem countFrom_of_some {matcher : Matcher α} {previous : Option Char} {kind : α} {c : Char}
    {cs rest : List Char} (h : matcher previous (c :: cs ++ rest) = some (kind, (c :: cs).length)) :
    countFrom matcher previous (c :: cs ++ rest) =
      countFrom matcher (c :: cs).getLast? rest + 1 := by
  rw [countFrom, spansFrom_of_some 0 h, List.length_cons, length_spansFrom]

/-- If one matcher finds what another finds, under other names, the counts are equal. -/
theorem length_spansFrom_of_map {matcher : Matcher α} {other : Matcher β} (g : α → β)
    (position skip : Nat) (previous : Option Char) (text : List Char)
    (h : ∀ previous t, t <:+ text →
      other previous t = (matcher previous t).map fun d => (g d.1, d.2)) :
    (spansFrom other position skip previous text).length =
      (spansFrom matcher position skip previous text).length := by
  induction text generalizing position skip previous with
  | nil => rfl
  | cons c cs ih =>
      have hcs : ∀ previous t, t <:+ cs →
          other previous t = (matcher previous t).map fun d => (g d.1, d.2) := fun previous t ht =>
        h previous t (ht.trans (List.suffix_cons c cs))
      cases skip with
      | succ skip => exact ih _ _ _ hcs
      | zero =>
          have hhere := h previous (c :: cs) List.suffix_rfl
          cases hm : matcher previous (c :: cs) with
          | none =>
              rw [hm] at hhere
              simpa only [spansFrom, hhere, hm, Option.map_none] using ih _ _ _ hcs
          | some hit =>
              rw [hm] at hhere
              simp only [spansFrom, hhere, hm, Option.map_some, List.length_cons, ih _ _ _ hcs]

/-! ## Calls -/

/-- A call ends with a closing parenthesis, and it is the first in the call. -/
theorem exists_close_of_afterCall? {text after : List Char} (h : afterCall? text = some after) :
    ∃ c front, text = c :: front ++ ')' :: after := by
  obtain ⟨c, word, blanks, inner, -, -, -, -, rfl⟩ := parts_of_afterCall? h
  exact ⟨c, word ++ (blanks ++ '(' :: inner), by simp⟩

theorem afterCall?_eq_none_of_not_mem {text : List Char} (h : ')' ∉ text) :
    afterCall? text = none := by
  cases hcall : afterCall? text with
  | none => rfl
  | some after =>
      obtain ⟨c, front, rfl⟩ := exists_close_of_afterCall? hcall
      exact absurd (by simp) h

theorem separates_close : Separates ')' := by decide

/-- What a scan for logical expressions can find at a position. -/
theorem logical_cases (previous : Option Char) (text : List Char) :
    (∃ c front after, text = c :: front ++ ')' :: after ∧
      logical previous text = some (.call, (c :: front ++ [')']).length)) ∨
    logical previous text = (decision previous text).map fun d => (.decision d.1, d.2) := by
  cases hcall : afterCall? text with
  | none => exact Or.inr (logical_of_no_call hcall previous)
  | some after =>
      have hmatch := logical_of_call hcall previous
      obtain ⟨c, front, rfl⟩ := exists_close_of_afterCall? hcall
      have hlength : (c :: front ++ ')' :: after).length - after.length =
          (c :: front ++ [')']).length := by
        simp only [List.length_append, List.length_cons, List.length_nil]
        omega
      exact Or.inl ⟨c, front, after, rfl, hlength ▸ hmatch⟩

/-- Behind a separator the scan for decision points is where it would be without what stands
before it. -/
theorem countFrom_decision_append_separator {c : Char} (h : Separates c) (previous : Option Char)
    (first second : List Char) :
    countFrom decision previous (first ++ c :: second) =
      countFrom decision previous first + countFrom decision (some c) second := by
  have hcut := spansFrom_append first 0 0 previous
    (fun previous t _ _ => decision_append_separator h previous t second)
    (fun _ _ _ _ hm => (decision_bounds hm).2) (Nat.zero_le _)
  rw [countFrom, hcut, List.length_append, length_spansFrom, length_spansFrom,
    countFrom_of_none (decision_cons_separator h _ second)]

/-! ## The counters of a text -/

/-- From any place on, there are no more logical expressions than decision points and closing
parentheses. -/
theorem countFrom_logical_le (previous : Option Char) (text : List Char) :
    countFrom logical previous text ≤ countFrom decision previous text + text.count ')' := by
  -- a match may cover several characters, so the induction is on the length of the text
  induction hn : text.length using Nat.strong_induction_on generalizing previous text with
  | h n ih =>
      subst hn
      cases text with
      | nil => simp
      | cons c cs =>
          rcases logical_cases previous (c :: cs) with ⟨d, front, after, htext, hcall⟩ | hdecision
          · have hshape : d :: front ++ ')' :: after = d :: (front ++ [')']) ++ after := by simp
            have hlast : (d :: (front ++ [')'])).getLast? = some ')' := by
              rw [← List.cons_append, List.getLast?_concat]
            have hshorter : after.length < (c :: cs).length := by
              rw [htext, List.length_append, List.length_cons, List.length_cons]
              omega
            have hafter := ih after.length hshorter (some ')') after rfl
            rw [htext] at hcall ⊢
            rw [countFrom_decision_append_separator separates_close, List.count_append,
              List.count_cons_self]
            rw [hshape] at hcall ⊢
            rw [countFrom_of_some hcall, hlast]
            omega
          · cases hm : decision previous (c :: cs) with
            | none =>
                rw [hm] at hdecision
                have hrest := ih cs.length (by simp) (some c) cs rfl
                have hcount := (List.sublist_cons_self c cs).count_le ')'
                rw [countFrom_of_none hdecision, countFrom_of_none hm]
                omega
            | some hit =>
                obtain ⟨kind, length⟩ := hit
                obtain ⟨hpos, hfits⟩ := decision_bounds hm
                rw [hm] at hdecision
                obtain ⟨hit, rest, htext, rfl⟩ : ∃ hit rest, c :: cs = hit ++ rest ∧
                    hit.length = length :=
                  ⟨(c :: cs).take length, (c :: cs).drop length,
                    (List.take_append_drop ..).symm, List.length_take_of_le hfits⟩
                cases hit with
                | nil => simp at hpos
                | cons d ds =>
                    have hshorter : rest.length < (c :: cs).length := by
                      rw [htext, List.length_append, List.length_cons]
                      omega
                    have hrest := ih rest.length hshorter (d :: ds).getLast? rest rfl
                    rw [htext] at hm hdecision ⊢
                    have hcount := (List.sublist_append_right (d :: ds) rest).count_le ')'
                    rw [countFrom_of_some hm, countFrom_of_some hdecision]
                    omega

theorem logicalCount_le (code : List Char) :
    logicalCount code ≤ decisionCount code + code.count ')' :=
  countFrom_logical_le none code

/-- Without a closing parenthesis there is no call, and the counters agree. -/
theorem logicalCount_eq_of_no_close {code : List Char} (h : ')' ∉ code) :
    logicalCount code = decisionCount code := by
  refine length_spansFrom_of_map Logical.decision 0 0 none code fun previous t ht => ?_
  have hcall := afterCall?_eq_none_of_not_mem fun hmem => h (ht.mem hmem)
  simp only [logical, hcall]

theorem logicalSum_le (codes : List (List Char)) :
    logicalSum codes ≤ (codes.map decisionCount).sum + codes.flatten.count ')' := by
  induction codes with
  | nil => rfl
  | cons code codes ih =>
      have hcode := logicalCount_le code
      rw [logicalSum, List.map_cons, List.sum_cons, List.flatten_cons, List.count_append]
      omega

theorem logicalSum_eq_of_no_close {codes : List (List Char)} (h : ∀ code ∈ codes, ')' ∉ code) :
    logicalSum codes = (codes.map decisionCount).sum := by
  induction codes with
  | nil => rfl
  | cons code codes ih =>
      have hcode := logicalCount_eq_of_no_close (h code (List.mem_cons_self ..))
      rw [logicalSum, List.map_cons, List.sum_cons, hcode,
        ih fun other hother => h other (List.mem_cons_of_mem code hother)]

/-- Margins hold no decision point. -/
theorem decisionCount_trim (line : List Char) :
    decisionCount (Line.trim line) = decisionCount line := by
  obtain ⟨left, right, hline, hleft, hright⟩ := Text.trimBy_decomposition Line.isMargin line
  change line = left ++ Line.trim line ++ right at hline
  have hfront : decisionCount line = decisionCount (Line.trim line ++ right) := by
    conv_lhs => rw [hline, List.append_assoc]
    exact decisionCount_separators_append (fun c hc => separates_of_isMargin (hleft c hc)) _
  cases right with
  | nil => rw [hfront, List.append_nil]
  | cons c cs =>
      have hmargin : decisionCount cs = 0 := by
        have hcs := decisionCount_separators_append (t := [])
          fun d hd => separates_of_isMargin (hright d (List.mem_cons_of_mem c hd))
        rw [List.append_nil] at hcs
        exact hcs
      rw [hfront, decisionCount_append_separator
        (separates_of_isMargin (hright c (List.mem_cons_self ..))), hmargin, Nat.add_zero]

end Scan

/-! ## The counters of a source -/

namespace Line

/-- A line that is no comment has the decision points of its portion. -/
theorem decisionCount_of_no_comment {line : List Char} {inside : Bool}
    (h : (classify line inside).1.isComment = false) :
    Scan.decisionCount line =
      ((classify line inside).1.code?.toList.map Scan.decisionCount).sum := by
  have hkind := hasKind_classify line inside
  generalize (classify line inside).1 = kind at h hkind
  cases hkind with
  | blank hempty =>
      rw [← Scan.decisionCount_trim, hempty]
      rfl
  | blockComment _ _ => cases h
  | continuation _ _ _ => cases h
  | inlineComment _ _ _ _ _ => cases h
  | code _ _ _ _ =>
      rw [← Scan.decisionCount_trim]
      simp [Kind.code?]

theorem sum_decisionCount_of_no_comment {ls : List (List Char)} {inside : Bool}
    (h : ∀ kind ∈ classifyFrom inside ls, kind.isComment = false) :
    (((classifyFrom inside ls).filterMap Kind.code?).map Scan.decisionCount).sum =
      (ls.map Scan.decisionCount).sum := by
  induction ls generalizing inside with
  | nil => rfl
  | cons line rest ih =>
      rw [classifyFrom] at h ⊢
      have hline := decisionCount_of_no_comment (h _ (List.mem_cons_self ..))
      have hrest := ih fun kind hkind => h kind (List.mem_cons_of_mem _ hkind)
      rw [List.map_cons, List.sum_cons, hline, ← hrest]
      cases hcode : (classify line inside).1.code? with
      | none => simp [hcode]
      | some p => simp [hcode]

theorem not_mem_portion {source : List Char} {c : Char} (h : c ∉ source) :
    ∀ p ∈ codePortions source, c ∉ p := by
  intro p hp hmem
  obtain ⟨line, hline, hportion⟩ := exists_portionOf_of_mem hp
  exact h (Text.mem_of_mem_lines hline (hportion.isInfix.mem hmem))

end Line

namespace FileMetrics

/-- A file has no more logical lines than decision points, which are one less than its
complexity, and closing parentheses in its code. Without parentheses and comments the two
counters agree. -/
theorem logicalLines_bounded_by_complexity (path : Path) (content : List Char) :
    (ofSource path content).logicalLines ≤
      (ofSource path content).complexity - 1 +
        (Line.codePortions content).flatten.count ')' ∧
    (')' ∉ content → (∀ kind ∈ Line.classifyAll content, kind.isComment = false) →
      (ofSource path content).logicalLines = (ofSource path content).complexity - 1) := by
  have hdecisions : (ofSource path content).complexity - 1 = Scan.decisionCount content :=
    Nat.add_sub_cancel_left ..
  have hlogical : (ofSource path content).logicalLines =
      Scan.logicalSum (Line.codePortions content) := rfl
  rw [hdecisions, hlogical, Scan.decisionCount_eq_sum_lines content]
  constructor
  · have hsum := Scan.logicalSum_le (Line.codePortions content)
    have hportions := Line.sum_decisionCount_portions_le false (Text.lines content)
    change ((Line.codePortions content).map Scan.decisionCount).sum ≤ _ at hportions
    omega
  · intro hclose hcomment
    rw [Scan.logicalSum_eq_of_no_close (Line.not_mem_portion hclose)]
    exact Line.sum_decisionCount_of_no_comment hcomment

/-- The counters of a source without parentheses and comments. -/
theorem logicalLines_bounded_by_complexity_plain :
    ')' ∉ "if a && b\n\n  while c".toList ∧
    (∀ kind ∈ Line.classifyAll "if a && b\n\n  while c".toList, kind.isComment = false) ∧
    (ofSource ⟨"a.js".toList⟩ "if a && b\n\n  while c".toList).logicalLines =
      (ofSource ⟨"a.js".toList⟩ "if a && b\n\n  while c".toList).complexity - 1 := by
  have hclose : ')' ∉ "if a && b\n\n  while c".toList := by decide
  have hcomment : ∀ kind ∈ Line.classifyAll "if a && b\n\n  while c".toList,
      kind.isComment = false := by decide
  exact ⟨hclose, hcomment, (logicalLines_bounded_by_complexity _ _).2 hclose hcomment⟩

end FileMetrics

end SourceGauge
