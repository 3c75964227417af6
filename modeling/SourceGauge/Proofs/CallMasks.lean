import SourceGauge.Proofs.DecisionRuns
import SourceGauge.Proofs.LogicalSeams

/-!
# Logical expressions with their calls masked

Every logical expression is a call or a decision point, but a call may start inside a word and
take in decision points of the text. With one blank in place of each call, what is left has the
decision points that the scan found between the calls.
-/

namespace SourceGauge.Scan

/-! ## Masks -/

/-- The text, which starts at `position`, with one blank in place of each of the spans. -/
def blankOut (position : Nat) : List (Span α) → List Char → List Char
  | [], text => text
  | s :: later, text =>
      text.take (s.start - position) ++
        ' ' :: blankOut (s.start + s.length) later (text.drop (s.start + s.length - position))

/-- The matches that are calls. -/
def callsOf (found : List (Span Logical)) : List (Span Logical) :=
  found.filter fun s => s.kind = .call

/-- The code with one blank in place of each call. -/
def maskCalls (code : List Char) : List Char := blankOut 0 (callsOf (spans logical code)) code

theorem blankOut_cons (position : Nat) (kind : α) (gap hit after : List Char)
    (later : List (Span α)) :
    blankOut position (⟨kind, position + gap.length, hit.length⟩ :: later) (gap ++ (hit ++ after)) =
      gap ++ ' ' :: blankOut (position + gap.length + hit.length) later after := by
  have hfront : position + gap.length - position = gap.length := by omega
  have hback : position + gap.length + hit.length - position = (gap ++ hit).length := by
    rw [List.length_append]
    omega
  rw [blankOut, hfront, List.take_left, hback, ← List.append_assoc, List.drop_left]

theorem separates_blank : Separates ' ' := by decide

/-! ## Before a call -/

theorem isIdentifierStart_of_keyword {word : List Char} (h : word ∈ keywords) :
    word.head?.any isIdentifierStart = true := by
  have hall : keywords.all (fun w => w.head?.any isIdentifierStart) = true := by decide
  exact List.all_eq_true.1 hall word h

theorem keywordLength?_of_not_start {c : Char} (h : isIdentifierStart c = false)
    (previous : Option Char) (cs : List Char) : keywordLength? previous (c :: cs) = none := by
  have hnot : (c :: cs).takeWhile isWord ∉ keywords := by
    intro hmem
    have hhead := isIdentifierStart_of_keyword hmem
    rw [List.takeWhile_cons] at hhead
    split at hhead
    · simp [h] at hhead
    · simp at hhead
  simp [keywordLength?, hnot]

/-- A call that starts with a letter of a word starts with every earlier letter as well. -/
theorem afterCall?_word_append {c : Char} {run rest after : List Char}
    (hc : isIdentifierStart c = true) (hrun : ∀ d ∈ run, isWord d = true)
    (h : afterCall? rest = some after) : afterCall? (c :: (run ++ rest)) = some after := by
  cases rest with
  | nil => cases h
  | cons e es =>
      obtain ⟨he, inner, hopen, hclose⟩ := (afterCall?_cons_eq_some_iff e es after).1 h
      rw [afterCall?_cons_eq_some_iff, List.dropWhile_append_of_pos hrun,
        List.dropWhile_cons_of_pos (isWord_of_isIdentifierStart he)]
      exact ⟨hc, inner, hopen, hclose⟩

theorem keywordLength?_before_call {gap rest after : List Char} (hne : gap ≠ [])
    (hcall : afterCall? rest = some after) (hnone : afterCall? (gap ++ rest) = none)
    (previous : Option Char) :
    keywordLength? previous (gap ++ rest) = keywordLength? previous gap := by
  by_cases hword : ∀ c ∈ gap, isWord c = true
  · -- the gap runs into the name of the call, so it starts with a digit
    obtain ⟨c, run, rfl⟩ := List.exists_cons_of_ne_nil hne
    have hstart : isIdentifierStart c = false := by
      rw [Bool.eq_false_iff]
      intro hc
      have hsome :=
        afterCall?_word_append hc (fun d hd => hword d (List.mem_cons_of_mem c hd)) hcall
      rw [List.cons_append, hsome] at hnone
      cases hnone
    rw [List.cons_append, keywordLength?_of_not_start hstart, keywordLength?_of_not_start hstart]
  · have hlength : (gap.takeWhile isWord).length ≠ gap.length := by
      intro heq
      have hgap := (List.takeWhile_prefix isWord).eq_of_length heq
      refine hword fun c hc => ?_
      rw [← hgap] at hc
      exact List.mem_takeWhile_imp hc
    unfold keywordLength?
    rw [List.takeWhile_append, if_neg hlength]

/-- What the scan finds before the first call does not depend on the call. -/
theorem decision_before_call {gap rest after : List Char} (hne : gap ≠ [])
    (hcall : afterCall? rest = some after) (hnone : afterCall? (gap ++ rest) = none)
    (previous : Option Char) : decision previous (gap ++ rest) = decision previous gap := by
  have hkeyword := keywordLength?_before_call hne hcall hnone previous
  cases rest with
  | nil => cases hcall
  | cons e es =>
      have he := isWord_of_isIdentifierStart ((afterCall?_cons_eq_some_iff e es after).1 hcall).1
      refine decision_append_of_keywordLength? ?_ ?_ hkeyword
      · rintro rfl
        exact absurd he (by decide)
      · rintro rfl
        exact absurd he (by decide)

/-- A text has no call, or a first one. -/
theorem first_call_cases (text : List Char) :
    (∀ t, t <:+ text → afterCall? t = none) ∨
    ∃ gap hit after, text = gap ++ (hit ++ after) ∧ afterCall? (hit ++ after) = some after ∧
      ∀ t, t ≠ [] → t <:+ gap → afterCall? (t ++ (hit ++ after)) = none := by
  induction text with
  | nil =>
      refine Or.inl fun t ht => ?_
      rw [List.suffix_nil.1 ht]
      rfl
  | cons c cs ih =>
      cases hcall : afterCall? (c :: cs) with
      | some after =>
          obtain ⟨d, front, heq⟩ := exists_close_of_afterCall? hcall
          have hsplit : c :: cs = (d :: front ++ [')']) ++ after := by
            rw [heq]
            simp
          refine Or.inr ⟨[], d :: front ++ [')'], after, hsplit, hsplit ▸ hcall, ?_⟩
          intro t hne ht
          exact absurd (List.suffix_nil.1 ht) hne
      | none =>
          rcases ih with hnone | ⟨gap, hit, after, rfl, hfirst, hgap⟩
          · refine Or.inl fun t ht => ?_
            rcases List.suffix_cons_iff.1 ht with rfl | ht
            · exact hcall
            · exact hnone t ht
          · refine Or.inr ⟨c :: gap, hit, after, rfl, hfirst, fun t hne ht => ?_⟩
            rcases List.suffix_cons_iff.1 ht with rfl | ht
            · exact hcall
            · exact hgap t hne ht

/-! ## Scans between calls -/

theorem exists_match_of_mem_spansFrom {matcher : Matcher α} {position skip : Nat}
    {previous : Option Char} {text : List Char} {s : Span α}
    (h : s ∈ spansFrom matcher position skip previous text) :
    ∃ previous t, t <:+ text ∧ matcher previous t = some (s.kind, s.length) := by
  induction text generalizing position skip previous with
  | nil => cases h
  | cons c cs ih =>
      have hlater : ∀ {position skip previous},
          s ∈ spansFrom matcher position skip previous cs →
            ∃ previous t, t <:+ c :: cs ∧ matcher previous t = some (s.kind, s.length) := by
        intro position skip previous hs
        obtain ⟨previous, t, ht, hm⟩ := ih hs
        exact ⟨previous, t, ht.trans (List.suffix_cons c cs), hm⟩
      cases skip with
      | succ skip => exact hlater h
      | zero =>
          cases hm : matcher previous (c :: cs) with
          | none =>
              simp only [spansFrom, hm] at h
              exact hlater h
          | some hit =>
              simp only [spansFrom, hm, List.mem_cons] at h
              rcases h with rfl | h
              · exact ⟨previous, c :: cs, List.suffix_rfl, hm⟩
              · exact hlater h

/-- Without a call the scan lists decision points. -/
theorem spansFrom_logical_of_no_call {text : List Char}
    (h : ∀ t, t <:+ text → afterCall? t = none) (position : Nat) {previous : Option Char}
    (hprevious : previous.any isWord = false) :
    callsOf (spansFrom logical position 0 previous text) = [] ∧
    (spansFrom logical position 0 previous text).length = decisionCount text := by
  have hdecision : ∀ previous t, t <:+ text →
      logical previous t = (decision previous t).map fun d => (.decision d.1, d.2) :=
    fun previous t ht => logical_of_no_call (h t ht) previous
  constructor
  · refine List.filter_eq_nil_iff.2 fun s hs => ?_
    obtain ⟨before, t, ht, hm⟩ := exists_match_of_mem_spansFrom hs
    rw [hdecision before t ht] at hm
    obtain ⟨d, -, heq⟩ := Option.map_eq_some_iff.1 hm
    obtain ⟨hkind, -⟩ := Prod.mk.inj heq
    simp [← hkind]
  · rw [length_spansFrom_of_map Logical.decision position 0 previous text hdecision,
      length_spansFrom, countFrom_between (Or.inl hprevious)]

theorem afterCall?_eq_none_of_gap {gap rest : List Char}
    (hgap : ∀ t, t ≠ [] → t <:+ gap → afterCall? (t ++ rest) = none) :
    ∀ t, t <:+ gap → afterCall? t = none := by
  intro t ht
  cases hcall : afterCall? t with
  | none => rfl
  | some after =>
      have hne : t ≠ [] := by
        rintro rfl
        cases hcall
      have hjoined := afterCall?_append hcall rest
      rw [hgap t hne ht] at hjoined
      cases hjoined

/-- The scan up to its first call, and on behind it. -/
theorem spansFrom_logical_first_call {gap hit after : List Char}
    (hcall : afterCall? (hit ++ after) = some after)
    (hgap : ∀ t, t ≠ [] → t <:+ gap → afterCall? (t ++ (hit ++ after)) = none) (position : Nat)
    (previous : Option Char) :
    spansFrom logical position 0 previous (gap ++ (hit ++ after)) =
      spansFrom logical position 0 previous gap ++
        ⟨.call, position + gap.length, hit.length⟩ ::
          spansFrom logical (position + gap.length + hit.length) 0 (some ')') after := by
  have hlocal : ∀ previous t, t ≠ [] → t <:+ gap →
      logical previous (t ++ (hit ++ after)) = logical previous t := by
    intro previous t hne ht
    rw [logical_of_no_call (hgap t hne ht),
      logical_of_no_call (afterCall?_eq_none_of_gap hgap t ht),
      decision_before_call hne hcall (hgap t hne ht)]
  obtain ⟨c, front, heq⟩ := exists_close_of_afterCall? hcall
  have hhit : hit = c :: (front ++ [')']) := by
    rw [← List.append_left_inj after, heq]
    simp
  have hmatch : ∀ previous, logical previous (hit ++ after) = some (.call, hit.length) := by
    intro previous
    rw [logical_of_call hcall, List.length_append, Nat.add_sub_cancel]
  have hlast : hit.getLast? = some ')' := by
    rw [hhit, ← List.cons_append, List.getLast?_concat]
  rw [spansFrom_append gap position 0 previous hlocal
    (fun _ _ _ _ hm => (logical_bounds hm).2) (Nat.zero_le _), ← hlast]
  subst hhit
  rw [spansFrom_of_some _ (hmatch _)]

theorem callsOf_first_call {gap hit after : List Char}
    (hcall : afterCall? (hit ++ after) = some after)
    (hgap : ∀ t, t ≠ [] → t <:+ gap → afterCall? (t ++ (hit ++ after)) = none) (position : Nat)
    {previous : Option Char} (hprevious : previous.any isWord = false) :
    callsOf (spansFrom logical position 0 previous (gap ++ (hit ++ after))) =
      ⟨.call, position + gap.length, hit.length⟩ ::
        callsOf (spansFrom logical (position + gap.length + hit.length) 0 (some ')') after) := by
  have hnone := (spansFrom_logical_of_no_call (afterCall?_eq_none_of_gap hgap) position hprevious).1
  rw [spansFrom_logical_first_call hcall hgap]
  unfold callsOf at hnone ⊢
  rw [List.filter_append, hnone, List.filter_cons_of_pos (by simp), List.nil_append]

/-! ## The decomposition -/

theorem one_le_count_close {hit after : List Char} (h : afterCall? (hit ++ after) = some after) :
    1 ≤ hit.count ')' := by
  obtain ⟨c, front, heq⟩ := exists_close_of_afterCall? h
  have hcount := congrArg (List.count ')') heq
  rw [List.count_append, List.count_append, List.count_cons_self] at hcount
  omega

/-- From any place between words on, the matches are the calls and the decision points of the
masked text, and every call has a closing parenthesis of its own. -/
theorem spansFrom_logical_masked (position : Nat) {previous : Option Char}
    (hprevious : previous.any isWord = false) (text : List Char) :
    (spansFrom logical position 0 previous text).length =
      (callsOf (spansFrom logical position 0 previous text)).length +
        decisionCount
          (blankOut position (callsOf (spansFrom logical position 0 previous text)) text) ∧
    (callsOf (spansFrom logical position 0 previous text)).length ≤ text.count ')' := by
  -- a call is passed over as a whole, so the induction is on the length of the text
  induction hn : text.length using Nat.strong_induction_on generalizing position previous text with
  | h n ih =>
      subst hn
      rcases first_call_cases text with hnone | ⟨gap, hit, after, rfl, hcall, hgap⟩
      · obtain ⟨hcalls, hlength⟩ := spansFrom_logical_of_no_call hnone position hprevious
        rw [hcalls, hlength, blankOut, List.length_nil, Nat.zero_add]
        exact ⟨rfl, Nat.zero_le _⟩
      · have hlength := (spansFrom_logical_of_no_call (afterCall?_eq_none_of_gap hgap) position
          hprevious).2
        have hclose := one_le_count_close hcall
        have hshorter : after.length < (gap ++ (hit ++ after)).length := by
          have hhit := hclose.trans List.count_le_length
          rw [List.length_append, List.length_append]
          omega
        have hnext : (some ')').any isWord = false := by decide
        have hafter := ih after.length hshorter (position + gap.length + hit.length) hnext after rfl
        rw [callsOf_first_call hcall hgap position hprevious,
          spansFrom_logical_first_call hcall hgap, blankOut_cons,
          decisionCount_append_separator separates_blank, List.length_append, List.length_cons,
          List.length_cons, hlength, List.count_append, List.count_append]
        omega

/-- The logical expressions of a code text are its calls and the decision points of what is left
when one blank stands in place of each call. A text has no more calls than closing parentheses;
without one it has its decision points only. -/
theorem logicalCount_splits_at_calls (code : List Char) :
    LeftmostSpans logicalAlternatives code (spans logical code) ∧
    logicalCount code =
      (callsOf (spans logical code)).length + decisionCount (maskCalls code) ∧
    (callsOf (spans logical code)).length ≤ code.count ')' ∧
    (')' ∉ code → logicalCount code = decisionCount code) := by
  have hstart : Option.any isWord none = false := rfl
  obtain ⟨hcount, hcalls⟩ := spansFrom_logical_masked 0 hstart code
  refine ⟨(leftmostSpans_logical_iff code _).2 rfl, hcount, hcalls, fun hclose => ?_⟩
  exact logicalCount_eq_of_no_close hclose

/-- A call inside a word, with an operator that it takes in and one that it cuts, and a text
without calls. -/
theorem logicalCount_splits_at_calls_inside_word :
    (maskCalls "9foo(a && b)&if (c)& while x".toList = "9 & & while x".toList ∧
      logicalCount "9foo(a && b)&if (c)& while x".toList =
        2 + decisionCount "9 & & while x".toList) ∧
    (')' ∉ "9if || if (a".toList ∧
      logicalCount "9if || if (a".toList = decisionCount "9if || if (a".toList) := by
  have hmask : maskCalls "9foo(a && b)&if (c)& while x".toList = "9 & & while x".toList := by decide
  have hclose : ')' ∉ "9if || if (a".toList := by decide
  refine ⟨⟨hmask, ?_⟩, hclose, (logicalCount_splits_at_calls _).2.2.2 hclose⟩
  rw [(logicalCount_splits_at_calls _).2.1, hmask]
  rfl

end SourceGauge.Scan
