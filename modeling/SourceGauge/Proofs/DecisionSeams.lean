import Mathlib.Algebra.Order.Ring.Nat
import SourceGauge.Line
import SourceGauge.Proofs.LogicalSpans
import SourceGauge.Proofs.Text

/-!
# Seams between decision points

A character that is part of no decision point cuts a text in two: what stands on either side is
scanned on its own. So decision points are counted line by line, and margins hold none.
-/

namespace SourceGauge.Scan

/-! ## Scans of joined texts -/

theorem getLast?_cons_or (c : Char) (cs : List Char) (previous : Option Char) :
    (c :: cs).getLast?.or previous = cs.getLast?.or (some c) := by
  rw [List.getLast?_cons]
  cases cs.getLast? <;> rfl

def Span.shift (s : Span α) (d : Nat) : Span α := ⟨s.kind, s.start + d, s.length⟩

theorem spansFrom_add (matcher : Matcher α) (position d skip : Nat) (previous : Option Char)
    (text : List Char) :
    spansFrom matcher (position + d) skip previous text =
      (spansFrom matcher position skip previous text).map (Span.shift · d) := by
  induction text generalizing position skip previous with
  | nil => rfl
  | cons c cs ih =>
      have hnext : position + d + 1 = position + 1 + d := by omega
      cases skip with
      | succ skip => rw [spansFrom, spansFrom, hnext, ih]
      | zero =>
          cases hm : matcher previous (c :: cs) with
          | none => simp only [spansFrom, hm, hnext, ih]
          | some hit => simp only [spansFrom, hm, hnext, ih, List.map_cons, Span.shift]

/-- A scan that never looks over the seam is the scan of the first text, followed by that of the
second. -/
theorem spansFrom_append {matcher : Matcher α} {second : List Char} (first : List Char)
    (position skip : Nat) (previous : Option Char)
    (hlocal : ∀ previous t, t ≠ [] → t <:+ first →
      matcher previous (t ++ second) = matcher previous t)
    (hfits : ∀ previous t kind n, matcher previous t = some (kind, n) → n ≤ t.length)
    (hskip : skip ≤ first.length) :
    spansFrom matcher position skip previous (first ++ second) =
      spansFrom matcher position skip previous first ++
        spansFrom matcher (position + first.length) 0 (first.getLast?.or previous) second := by
  induction first generalizing position skip previous with
  | nil =>
      have hzero : skip = 0 := Nat.le_zero.1 hskip
      subst hzero
      rfl
  | cons c cs ih =>
      have hlocal' : ∀ previous t, t ≠ [] → t <:+ cs →
          matcher previous (t ++ second) = matcher previous t := fun previous t hne ht =>
        hlocal previous t hne (ht.trans (List.suffix_cons c cs))
      have hposition : position + (c :: cs).length = position + 1 + cs.length := by
        rw [List.length_cons]
        omega
      rw [getLast?_cons_or, hposition, List.cons_append]
      cases skip with
      | succ skip =>
          rw [spansFrom, spansFrom, ih _ _ _ hlocal' (Nat.le_of_succ_le_succ hskip)]
      | zero =>
          have hhere := hlocal previous (c :: cs) (by simp) List.suffix_rfl
          rw [List.cons_append] at hhere
          cases hm : matcher previous (c :: cs) with
          | none =>
              simp only [spansFrom, hhere, hm]
              exact ih _ _ _ hlocal' (Nat.zero_le _)
          | some hit =>
              have hlength := hfits _ _ _ _ hm
              rw [List.length_cons] at hlength
              simp only [spansFrom, hhere, hm, List.cons_append]
              rw [ih _ _ _ hlocal' (by omega)]

/-! ## Separators -/

/-- A character that is part of no decision point. -/
def Separates (c : Char) : Prop := isWord c = false ∧ c ≠ '&' ∧ c ≠ '|'

instance : DecidablePred Separates := fun c =>
  inferInstanceAs (Decidable (isWord c = false ∧ c ≠ '&' ∧ c ≠ '|'))

theorem pair_prefix_append_iff {a c : Char} (h : c ≠ a) (t second : List Char) :
    [a, a] <+: t ++ c :: second ↔ [a, a] <+: t := by
  rcases t with _ | ⟨d, _ | ⟨e, t⟩⟩
  · simp [List.cons_prefix_cons, Ne.symm h]
  · simp [List.cons_prefix_cons, Ne.symm h]
  · simp [List.cons_prefix_cons]

theorem takeWhile_append_cons_of_neg {p : Char → Bool} {c : Char} (h : p c = false)
    (t second : List Char) : (t ++ c :: second).takeWhile p = t.takeWhile p := by
  induction t with
  | nil => simp [h]
  | cons d t ih => simp [List.takeWhile_cons, ih]

theorem keywordLength?_append_separator {c : Char} (h : Separates c) (previous : Option Char)
    (t second : List Char) :
    keywordLength? previous (t ++ c :: second) = keywordLength? previous t := by
  unfold keywordLength?
  rw [takeWhile_append_cons_of_neg h.1]

/-- If the next character is no operator, only a keyword can reach over a seam. -/
theorem decision_append_of_keywordLength? {c : Char} (hand : c ≠ '&') (hor : c ≠ '|')
    {previous : Option Char} {t second : List Char}
    (h : keywordLength? previous (t ++ c :: second) = keywordLength? previous t) :
    decision previous (t ++ c :: second) = decision previous t := by
  by_cases ht : ['&', '&'] <+: t
  · obtain ⟨t, rfl⟩ := ht
    rfl
  · by_cases ht' : ['|', '|'] <+: t
    · obtain ⟨t, rfl⟩ := ht'
      rfl
    · rw [decision_of_no_operator previous ht ht', ← h]
      exact decision_of_no_operator previous (mt (pair_prefix_append_iff hand t second).1 ht)
        (mt (pair_prefix_append_iff hor t second).1 ht')

/-- The matcher does not look over a separator. -/
theorem decision_append_separator {c : Char} (h : Separates c) (previous : Option Char)
    (t second : List Char) : decision previous (t ++ c :: second) = decision previous t :=
  decision_append_of_keywordLength? h.2.1 h.2.2
    (keywordLength?_append_separator h previous t second)

/-- No keyword starts outside a word. -/
theorem keywordLength?_of_head {text : List Char} (h : text.head?.any isWord = false)
    (previous : Option Char) : keywordLength? previous text = none := by
  have hnil : ([] : List Char) ∉ keywords := by decide
  have hword : text.takeWhile isWord = [] := by
    cases text with
    | nil => rfl
    | cons c cs =>
        have hc : isWord c = false := h
        simp [hc]
  simp [keywordLength?, hword, hnil]

/-- The character before a position matters only inside a word. -/
theorem decision_between {previous : Option Char} {text : List Char}
    (h : previous.any isWord = false ∨ text.head?.any isWord = false) :
    decision previous text = decision none text := by
  have hkeyword : keywordLength? previous text = keywordLength? none text := by
    rcases h with hprevious | hhead
    · simp [keywordLength?, hprevious]
    · rw [keywordLength?_of_head hhead, keywordLength?_of_head hhead]
  unfold decision
  rw [hkeyword]

theorem decision_nil (previous : Option Char) : decision previous [] = none := by
  have hkeyword : keywordLength? previous [] = none := keywordLength?_of_head rfl previous
  simp [decision, hkeyword]

theorem decision_cons_separator {c : Char} (h : Separates c) (previous : Option Char)
    (t : List Char) : decision previous (c :: t) = none :=
  (decision_append_separator h previous [] t).trans (decision_nil previous)

/-- A separator before a position is as good as the start of the text. -/
theorem decision_after_separator {c : Char} (h : Separates c) (t : List Char) :
    decision (some c) t = decision none t := decision_between (Or.inl h.1)

theorem spansFrom_decision_after_separator {c : Char} (h : Separates c) (position : Nat)
    (t : List Char) :
    spansFrom decision position 0 (some c) t = spansFrom decision position 0 none t := by
  cases t with
  | nil => rfl
  | cons d t => simp only [spansFrom, decision_after_separator h]

/-- The decision points on the two sides of a separator are those of the whole. -/
theorem spans_append_separator {c : Char} (h : Separates c) (first second : List Char) :
    spans decision (first ++ c :: second) =
      spans decision first ++ (spans decision second).map (Span.shift · (first.length + 1)) := by
  have hcut := spansFrom_append first 0 0 none
    (fun previous t _ _ => decision_append_separator h previous t second)
    (fun _ _ _ _ hm => (decision_bounds hm).2) (Nat.zero_le _)
  unfold spans
  rw [hcut, spansFrom, ← spansFrom_add]
  simp only [decision_cons_separator h, spansFrom_decision_after_separator h, Nat.zero_add]

@[simp] theorem decisionCount_nil : decisionCount [] = 0 := rfl

theorem decisionCount_append_separator {c : Char} (h : Separates c) (first second : List Char) :
    decisionCount (first ++ c :: second) = decisionCount first + decisionCount second := by
  unfold decisionCount
  rw [spans_append_separator h, List.length_append, List.length_map]

theorem decisionCount_cons_separator {c : Char} (h : Separates c) (t : List Char) :
    decisionCount (c :: t) = decisionCount t := by
  have hcut := decisionCount_append_separator h [] t
  simpa using hcut

theorem decisionCount_separators_append {margin : List Char} (h : ∀ c ∈ margin, Separates c)
    (t : List Char) : decisionCount (margin ++ t) = decisionCount t := by
  induction margin with
  | nil => rfl
  | cons c cs ih =>
      rw [List.cons_append, decisionCount_cons_separator (h c (List.mem_cons_self ..))]
      exact ih fun d hd => h d (List.mem_cons_of_mem c hd)

/-! ## Lines and margins -/

theorem separates_lineFeed : Separates '\n' := by decide

theorem decisionCount_unlines (ls : List (List Char)) :
    decisionCount (Text.unlines ls) = (ls.map decisionCount).sum := by
  induction ls with
  | nil => rfl
  | cons line rest ih =>
      cases rest with
      | nil => simp
      | cons next rest =>
          rw [Text.unlines_cons_cons, decisionCount_append_separator separates_lineFeed, ih]
          rfl

/-- Decision points can be counted line by line. -/
theorem decisionCount_eq_sum_lines (s : List Char) :
    decisionCount s = ((Text.lines s).map decisionCount).sum := by
  rw [← decisionCount_unlines, Text.unlines_lines]

theorem separates_of_isMargin {c : Char} (h : Line.isMargin c = true) : Separates c := by
  unfold Line.isMargin at h
  rw [Bool.or_eq_true, beq_iff_eq] at h
  rcases h with hblank | rfl
  · refine ⟨not_isWord_of_isBlank hblank, ?_, ?_⟩
    · intro hc
      subst hc
      exact absurd hblank (by decide)
    · intro hc
      subst hc
      exact absurd hblank (by decide)
  · decide

end SourceGauge.Scan
