import SourceGauge.Proofs.DecisionSeams

/-!
# Seams between logical expressions

Blanks and argument lists may run over a line feed, so joined lines can hold a call that none of
them holds. If every parenthesis closes on its line and no line starts with one, no match looks
over a seam, and logical expressions are counted line by line.
-/

namespace SourceGauge.Scan

/-! ## Calls in joined texts -/

/-- What follows a call does not matter for it. -/
theorem afterCall?_append {text after : List Char} (h : afterCall? text = some after)
    (second : List Char) : afterCall? (text ++ second) = some (after ++ second) := by
  obtain ⟨c, word, blanks, inner, hc, hword, hblanks, hinner, rfl⟩ := parts_of_afterCall? h
  rw [List.append_assoc]
  exact afterCall?_of_parts (after ++ second) hc hword hblanks hinner

theorem dropWhile_append_cons_of_neg {p : Char → Bool} {c : Char} (h : p c = false)
    (t second : List Char) : (t ++ c :: second).dropWhile p = t.dropWhile p ++ c :: second := by
  rw [List.dropWhile_append]
  split
  · rename_i hempty
    rw [List.isEmpty_iff.1 hempty, List.dropWhile_cons_of_neg (by simp [h]), List.nil_append]
  · rfl

/-- Every opening parenthesis has a closing one behind it. -/
def Enclosed (text : List Char) : Prop :=
  ∀ before after, text = before ++ '(' :: after → ')' ∈ after

/-- The first character that is no blank opens an argument list. -/
def StartsList (text : List Char) : Prop :=
  text.find? (fun c => !Text.isBlank c) = some '('

theorem Enclosed.of_suffix {text t : List Char} (h : Enclosed text) (ht : t <:+ text) :
    Enclosed t := by
  obtain ⟨front, rfl⟩ := ht
  intro before after heq
  exact h (front ++ before) after (by rw [heq, List.append_assoc])

theorem enclosed_cons_iff (c : Char) (cs : List Char) :
    Enclosed (c :: cs) ↔ (c = '(' → ')' ∈ cs) ∧ Enclosed cs := by
  constructor
  · intro h
    refine ⟨fun hc => h [] cs (by rw [hc, List.nil_append]), h.of_suffix (List.suffix_cons c cs)⟩
  · rintro ⟨hc, hcs⟩ before after heq
    cases before with
    | nil =>
        obtain ⟨rfl, rfl⟩ := List.cons.inj heq
        exact hc rfl
    | cons d before => exact hcs before after (List.cons.inj heq).2

def decideEnclosed : (text : List Char) → Decidable (Enclosed text)
  | [] => isTrue fun before after heq => by simp at heq
  | c :: cs =>
      have := decideEnclosed cs
      decidable_of_iff' _ (enclosed_cons_iff c cs)

instance : DecidablePred Enclosed := decideEnclosed

instance : DecidablePred StartsList := fun text =>
  inferInstanceAs (Decidable (text.find? (fun c => !Text.isBlank c) = some '('))

theorem startsList_cons_blank {c : Char} (h : Text.isBlank c = true) (text : List Char) :
    StartsList (c :: text) ↔ StartsList text := by
  unfold StartsList
  rw [List.find?_cons_of_neg (by simp [h])]

theorem dropWhile_ne_of_not_startsList {text : List Char} (h : ¬ StartsList text)
    (inner : List Char) : text.dropWhile Text.isBlank ≠ '(' :: inner := by
  induction text with
  | nil => simp
  | cons c cs ih =>
      by_cases hc : Text.isBlank c = true
      · rw [List.dropWhile_cons_of_pos hc]
        exact ih (mt (startsList_cons_blank hc cs).2 h)
      · rw [List.dropWhile_cons_of_neg hc]
        rintro ⟨⟩
        exact h (by rw [StartsList, List.find?_cons_of_pos (by simpa using hc)])

theorem exists_dropWhile_close {inner : List Char} (h : ')' ∈ inner) :
    ∃ after, inner.dropWhile (· != ')') = ')' :: after := by
  have hhead := head?_any_dropWhile (· != ')') inner
  cases hinner : inner.dropWhile (· != ')') with
  | nil =>
      rw [List.dropWhile_eq_nil_iff] at hinner
      exact absurd (hinner ')' h) (by decide)
  | cons c after =>
      rw [hinner] at hhead
      have hc : c = ')' := by simpa using hhead
      exact ⟨after, by rw [hc]⟩

/-- A call that starts before the seam ends before it. -/
theorem exists_call_of_append_lineFeed {text second after : List Char} (hclosed : Enclosed text)
    (hsecond : ¬ StartsList second) (hne : text ≠ [])
    (h : afterCall? (text ++ '\n' :: second) = some after) :
    ∃ rest, afterCall? text = some rest := by
  obtain ⟨c, cs, rfl⟩ := List.exists_cons_of_ne_nil hne
  obtain ⟨hc, inner, hlist, -⟩ := (afterCall?_cons_eq_some_iff c (cs ++ '\n' :: second) after).1 h
  rw [dropWhile_append_cons_of_neg (by decide), List.dropWhile_append] at hlist
  cases hrest : (cs.dropWhile isWord).dropWhile Text.isBlank with
  | nil =>
      -- only blanks are left of the line, so the next one would have to open the list
      have hblank : Text.isBlank '\n' = true := by decide
      rw [hrest, List.isEmpty_nil, if_pos rfl] at hlist
      exact absurd hlist (dropWhile_ne_of_not_startsList
        (mt (startsList_cons_blank hblank second).1 hsecond) inner)
  | cons d ds =>
      rw [hrest, List.isEmpty_cons, if_neg (by decide), List.cons_append] at hlist
      obtain ⟨rfl, -⟩ := List.cons.inj hlist
      have hsuffix : '(' :: ds <:+ c :: cs := by
        rw [← hrest]
        exact ((List.dropWhile_suffix _).trans (List.dropWhile_suffix _)).trans
          (List.suffix_cons c cs)
      obtain ⟨rest, hclose⟩ := exists_dropWhile_close (hclosed.of_suffix hsuffix [] ds rfl)
      exact ⟨rest, (afterCall?_cons_eq_some_iff c cs rest).2 ⟨hc, ds, hrest, hclose⟩⟩

/-! ## Scans of joined lines -/

/-- The matcher does not look over the end of an enclosed line. -/
theorem logical_append_lineFeed {text second : List Char} (hclosed : Enclosed text)
    (hsecond : ¬ StartsList second) (hne : text ≠ []) (previous : Option Char) :
    logical previous (text ++ '\n' :: second) = logical previous text := by
  cases hcall : afterCall? text with
  | some after =>
      rw [logical_of_call hcall, logical_of_call (afterCall?_append hcall ('\n' :: second)),
        List.length_append, List.length_append, Nat.add_sub_add_right]
  | none =>
      cases hjoined : afterCall? (text ++ '\n' :: second) with
      | none =>
          rw [logical_of_no_call hcall, logical_of_no_call hjoined,
            decision_append_separator separates_lineFeed]
      | some after =>
          obtain ⟨rest, hrest⟩ := exists_call_of_append_lineFeed hclosed hsecond hne hjoined
          rw [hcall] at hrest
          cases hrest

theorem logical_after_separator {c : Char} (h : Separates c) (text : List Char) :
    logical (some c) text = logical none text := by
  unfold logical
  rw [decision_after_separator h]

theorem logical_lineFeed (previous : Option Char) (second : List Char) :
    logical previous ('\n' :: second) = none := by
  have hcall : afterCall? ('\n' :: second) = none := rfl
  rw [logical_of_no_call hcall, decision_cons_separator separates_lineFeed, Option.map_none]

theorem spans_logical_append_lineFeed {first second : List Char} (hclosed : Enclosed first)
    (hsecond : ¬ StartsList second) :
    spans logical (first ++ '\n' :: second) =
      spans logical first ++ (spans logical second).map (Span.shift · (first.length + 1)) := by
  have hcut := spansFrom_append first 0 0 none
    (fun previous t hne ht => logical_append_lineFeed (hclosed.of_suffix ht) hsecond hne previous)
    (fun _ _ _ _ hm => (logical_bounds hm).2) (Nat.zero_le _)
  unfold spans
  rw [hcut, spansFrom, ← spansFrom_add]
  simp only [logical_lineFeed, Nat.zero_add]
  cases second with
  | nil => rfl
  | cons c cs => simp only [spansFrom, logical_after_separator separates_lineFeed]

theorem logicalCount_append_lineFeed {first second : List Char} (hclosed : Enclosed first)
    (hsecond : ¬ StartsList second) :
    logicalCount (first ++ '\n' :: second) = logicalCount first + logicalCount second := by
  unfold logicalCount
  rw [spans_logical_append_lineFeed hclosed hsecond, List.length_append, List.length_map]

/-! ## Lists of lines -/

/-- Joined lines start a list only if the first line that is not blank does. -/
theorem not_startsList_unlines {ls : List (List Char)} (h : ∀ line ∈ ls, ¬ StartsList line) :
    ¬ StartsList (Text.unlines ls) := by
  induction ls with
  | nil => simp [StartsList, Text.unlines]
  | cons line rest ih =>
      have hline := h line (List.mem_cons_self ..)
      cases rest with
      | nil => rwa [Text.unlines_singleton]
      | cons next rest =>
          have hrest := ih fun other hother => h other (List.mem_cons_of_mem line hother)
          unfold StartsList at hline hrest ⊢
          rw [Text.unlines_cons_cons, List.find?_append,
            List.find?_cons_of_neg (by decide)]
          cases hfind : line.find? (fun c => !Text.isBlank c) with
          | none => simpa using hrest
          | some c =>
              rw [hfind] at hline
              simpa using hline

/-- If every parenthesis that a line opens is followed by a closing one on the line, and no line
starts with an opening one, the logical expressions of the joined lines are those of the lines. -/
theorem logicalCount_of_joined_lines (ls : List (List Char))
    (hclosed : ∀ line ∈ ls, Enclosed line) (hstart : ∀ line ∈ ls, ¬ StartsList line) :
    logicalCount (Text.unlines ls) = logicalSum ls := by
  induction ls with
  | nil => rfl
  | cons line rest ih =>
      have hrest : ∀ other ∈ rest, ¬ StartsList other := fun other hother =>
        hstart other (List.mem_cons_of_mem line hother)
      have hsum := ih (fun other hother => hclosed other (List.mem_cons_of_mem line hother)) hrest
      cases rest with
      | nil => rw [Text.unlines_singleton, logicalSum, logicalSum, Nat.add_zero]
      | cons next rest =>
          rw [Text.unlines_cons_cons, logicalSum, ← hsum]
          exact logicalCount_append_lineFeed (hclosed line (List.mem_cons_self ..))
            (not_startsList_unlines hrest)

/-- Names, keywords, blanks and half an operator at the seams. -/
theorem logicalCount_of_joined_lines_ragged :
    (∀ line ∈ ["if".toList, "f (a) &".toList, "& g ".toList, [], " while(b)".toList],
      Enclosed line ∧ ¬ StartsList line) ∧
    logicalCount "if\nf (a) &\n& g \n\n while(b)".toList = 3 := by
  have hlines : ∀ line ∈ ["if".toList, "f (a) &".toList, "& g ".toList, [], " while(b)".toList],
      Enclosed line ∧ ¬ StartsList line := by decide
  refine ⟨hlines, ?_⟩
  exact (logicalCount_of_joined_lines _ (fun line h => (hlines line h).1)
    (fun line h => (hlines line h).2)).trans (by decide)

/-- Without either condition a call may straddle a seam. -/
example : logicalCount "f(a && b || c\n)".toList = 1 ∧ logicalCount "f\n(a)".toList = 1 ∧
    logicalSum ["f(a && b || c".toList, ")".toList] = 2 ∧
    logicalSum ["f".toList, "(a)".toList] = 0 := by
  decide

end SourceGauge.Scan
