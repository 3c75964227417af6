import SourceGauge.Proofs.CounterBounds

/-!
# Complexity from maximal runs

The complexity estimate without positions. A maximal run of word characters counts once if it is
a keyword, and a maximal run of ampersands or of bars counts once for every two characters. The
scan meets these runs one after another, and behind each of them it is where a fresh scan of the
rest would start.
-/

namespace SourceGauge.Scan

/-! ## Maximal runs -/

/-- The maximal runs of characters of a class, from left to right: the text is cut at every
character outside the class. -/
def runs (p : Char → Bool) (text : List Char) : List (List Char) :=
  (text.splitOnP fun c => !p c).filter fun run => !run.isEmpty

section Runs

variable {p : Char → Bool} {run gap rest : List Char}

@[simp] theorem runs_nil : runs p [] = [] := by
  simp [runs]

theorem runs_append_cons {c : Char} (h : p c = false) (first second : List Char) :
    runs p (first ++ c :: second) = runs p first ++ runs p second := by
  unfold runs
  rw [List.splitOnP_append_cons first second (by simp [h]), List.filter_append]

theorem runs_of_forall (hne : run ≠ []) (hrun : ∀ c ∈ run, p c = true) : runs p run = [run] := by
  unfold runs
  rw [List.splitOnP_eq_singleton fun c hc => by simp [hrun c hc]]
  simp [hne]

theorem runs_gap_append (hgap : ∀ c ∈ gap, p c = false) : runs p (gap ++ rest) = runs p rest := by
  induction gap with
  | nil => rfl
  | cons c gap ih =>
      have hcut := runs_append_cons (hgap c (List.mem_cons_self ..)) [] (gap ++ rest)
      rw [List.nil_append, runs_nil, List.nil_append] at hcut
      rw [List.cons_append, hcut]
      exact ih fun d hd => hgap d (List.mem_cons_of_mem c hd)

theorem runs_run_append (hne : run ≠ []) (hrun : ∀ c ∈ run, p c = true)
    (hrest : rest.head?.any p = false) : runs p (run ++ rest) = run :: runs p rest := by
  cases rest with
  | nil => rw [List.append_nil, runs_of_forall hne hrun, runs_nil]
  | cons c rest =>
      have hc : p c = false := hrest
      have hgap : runs p ([c] ++ rest) = runs p rest := runs_gap_append (by simpa using hc)
      rw [runs_append_cons hc, runs_of_forall hne hrun, ← hgap]
      rfl

example : runs (· == '&') "a&&&b& && ".toList = ["&&&".toList, "&".toList, "&&".toList] := by
  decide

/-- A character of the class starts a maximal run. -/
theorem exists_run {c : Char} (hc : p c = true) (cs : List Char) :
    ∃ run rest, c :: cs = run ++ rest ∧ run ≠ [] ∧ (∀ d ∈ run, p d = true) ∧
      rest.head?.any p = false := by
  refine ⟨(c :: cs).takeWhile p, (c :: cs).dropWhile p, ?_, ?_, ?_, head?_any_dropWhile p _⟩
  · rw [List.takeWhile_append_dropWhile]
  · simp [hc]
  · intro d hd
    exact List.mem_takeWhile_imp hd

end Runs

/-- How many pairs of a character its maximal runs hold. -/
def pairs (a : Char) (text : List Char) : Nat :=
  ((runs (· == a) text).map fun run => run.length / 2).sum

/-- How many maximal runs of word characters are keywords. -/
def keywordRuns (text : List Char) : Nat :=
  (runs wordClass text).countP fun run =>
    String.ofList run ∈ ["if", "for", "while", "switch", "case", "catch"]

theorem pairs_gap_append {a : Char} {gap : List Char} (h : a ∉ gap) (rest : List Char) :
    pairs a (gap ++ rest) = pairs a rest := by
  have hgap : ∀ c ∈ gap, (c == a) = false := by
    intro c hc
    rw [beq_eq_false_iff_ne]
    rintro rfl
    exact h hc
  unfold pairs
  rw [runs_gap_append hgap]

/-- A maximal run of one character counts for the pairs of that character only. -/
theorem pairs_uniform_append {a : Char} {run rest : List Char} (hne : run ≠ [])
    (hrun : ∀ c ∈ run, (c == a) = true) (hrest : rest.head?.any (· == a) = false) (b : Char) :
    pairs b (run ++ rest) = (if b = a then run.length / 2 else 0) + pairs b rest := by
  by_cases hb : b = a
  · subst hb
    unfold pairs
    rw [runs_run_append hne hrun hrest, List.map_cons, List.sum_cons, if_pos rfl]
  · have hnot : b ∉ run := fun hmem => hb (beq_iff_eq.1 (hrun b hmem))
    rw [pairs_gap_append hnot, if_neg hb, Nat.zero_add]

theorem keywordRuns_gap_append {gap : List Char} (h : ∀ c ∈ gap, isWord c = false)
    (rest : List Char) : keywordRuns (gap ++ rest) = keywordRuns rest := by
  unfold keywordRuns
  rw [← funext isWord_eq_wordClass, runs_gap_append h]

theorem mem_keywords_iff (run : List Char) :
    run ∈ keywords ↔ String.ofList run ∈ ["if", "for", "while", "switch", "case", "catch"] := by
  rw [keywords, List.mem_map]
  constructor
  · rintro ⟨word, hmem, rfl⟩
    simpa using hmem
  · intro hmem
    exact ⟨String.ofList run, hmem, by simp⟩

theorem keywordRuns_run_append {run rest : List Char} (hne : run ≠ [])
    (hrun : ∀ c ∈ run, isWord c = true) (hrest : rest.head?.any isWord = false) :
    keywordRuns (run ++ rest) = (if run ∈ keywords then 1 else 0) + keywordRuns rest := by
  unfold keywordRuns
  rw [← funext isWord_eq_wordClass, runs_run_append hne hrun hrest, List.countP_cons, Nat.add_comm]
  simp only [decide_eq_true_eq, mem_keywords_iff]

/-! ## The scan between runs -/

theorem countFrom_between {previous : Option Char} {text : List Char}
    (h : previous.any isWord = false ∨ text.head?.any isWord = false) :
    countFrom decision previous text = decisionCount text := by
  cases text with
  | nil => rfl
  | cons c cs =>
      unfold decisionCount spans countFrom
      simp only [spansFrom, decision_between h]

/-! ## Words -/

theorem decision_of_word {c : Char} (hc : isWord c = true) (previous : Option Char)
    (cs : List Char) :
    decision previous (c :: cs) =
      (keywordLength? previous (c :: cs)).map fun n => (.keyword, n) := by
  have hoperator : ∀ a, isWord a = false → ¬ [a, a] <+: c :: cs := by
    intro a ha hstart
    have hac : a = c := (List.cons_prefix_cons.1 hstart).1
    rw [hac, hc] at ha
    cases ha
  exact decision_of_no_operator previous (hoperator '&' (by decide)) (hoperator '|' (by decide))

/-- Inside a word nothing is found. -/
theorem countFrom_inside_word {c : Char} {run : List Char} (hc : isWord c = true)
    (hrun : ∀ d ∈ run, isWord d = true) (rest : List Char) :
    countFrom decision (some c) (run ++ rest) =
      countFrom decision (run.getLast?.or (some c)) rest := by
  induction run generalizing c with
  | nil => rfl
  | cons d run ih =>
      have hd : isWord d = true := hrun d (List.mem_cons_self ..)
      have hnone : decision (some c) (d :: (run ++ rest)) = none := by
        rw [decision_of_word hd]
        simp [keywordLength?, hc]
      rw [List.cons_append, countFrom_of_none hnone, getLast?_cons_or]
      exact ih hd fun e he => hrun e (List.mem_cons_of_mem d he)

theorem decisionCount_word_append {run rest : List Char} (hne : run ≠ [])
    (hrun : ∀ c ∈ run, isWord c = true) (hrest : rest.head?.any isWord = false) :
    decisionCount (run ++ rest) = (if run ∈ keywords then 1 else 0) + decisionCount rest := by
  have hword : (run ++ rest).takeWhile isWord = run := Text.takeWhile_run hrun hrest
  cases run with
  | nil => exact absurd rfl hne
  | cons c cs =>
      have hc : isWord c = true := hrun c (List.mem_cons_self ..)
      have hcs : ∀ d ∈ cs, isWord d = true := fun d hd => hrun d (List.mem_cons_of_mem c hd)
      have hhere := decision_of_word hc none (cs ++ rest)
      rw [← List.cons_append] at hhere
      change countFrom decision none (c :: cs ++ rest) = _
      by_cases hkeyword : c :: cs ∈ keywords
      · have hhit : decision none (c :: cs ++ rest) = some (.keyword, (c :: cs).length) := by
          rw [hhere, keywordLength?, hword]
          simp [hkeyword]
        rw [countFrom_of_some hhit, countFrom_between (Or.inr hrest), if_pos hkeyword]
        omega
      · have hmiss : decision none (c :: cs ++ rest) = none := by
          rw [hhere, keywordLength?, hword]
          simp [hkeyword]
        rw [List.cons_append] at hmiss ⊢
        rw [countFrom_of_none hmiss, countFrom_inside_word hc hcs,
          countFrom_between (Or.inr hrest), if_neg hkeyword]
        omega

/-! ## Operators -/

/-- The character is an operator when it is doubled, and nothing when it is not. -/
structure Doubles (a : Char) (kind : Decision) : Prop where
  outside : isWord a = false
  pair : ∀ previous rest, decision previous (a :: a :: rest) = some (kind, 2)
  lone : ∀ previous rest, rest.head?.any (· == a) = false → decision previous (a :: rest) = none

theorem pair_prefix_cons_iff {a c : Char} {rest : List Char} :
    [a, a] <+: c :: rest ↔ a = c ∧ rest.head?.any (· == a) = true := by
  rw [List.cons_prefix_cons]
  cases rest with
  | nil => simp
  | cons d rest => simp [List.cons_prefix_cons, @eq_comm _ a d]

theorem decision_of_lone {a : Char} {rest : List Char} (hoperator : a = '&' ∨ a = '|')
    (h : rest.head?.any (· == a) = false) (previous : Option Char) :
    decision previous (a :: rest) = none := by
  have hnot : ∀ b, ¬ [b, b] <+: a :: rest := by
    intro b hb
    obtain ⟨rfl, hpair⟩ := pair_prefix_cons_iff.1 hb
    rw [h] at hpair
    cases hpair
  have hword : (a :: rest).head?.any isWord = false := by
    rcases hoperator with rfl | rfl <;> rfl
  rw [decision_of_no_operator previous (hnot '&') (hnot '|'), keywordLength?_of_head hword]
  rfl

theorem doubles_ampersand : Doubles '&' .conjunction :=
  ⟨by decide, fun _ _ => rfl, fun previous _ h => decision_of_lone (Or.inl rfl) h previous⟩

theorem doubles_bar : Doubles '|' .disjunction :=
  ⟨by decide, fun _ _ => rfl, fun previous _ h => decision_of_lone (Or.inr rfl) h previous⟩

/-- The scan takes an operator run in twos. -/
theorem Doubles.countFrom_replicate_append {a : Char} {kind : Decision} (h : Doubles a kind)
    {previous : Option Char} (hprevious : previous.any isWord = false) (n : Nat) {rest : List Char}
    (hrest : rest.head?.any (· == a) = false) :
    countFrom decision previous (List.replicate n a ++ rest) = n / 2 + decisionCount rest := by
  induction n using Nat.twoStepInduction generalizing previous with
  | zero =>
      rw [List.replicate_zero, List.nil_append, countFrom_between (Or.inl hprevious)]
      omega
  | one =>
      change countFrom decision previous (a :: rest) = _
      have hnext : (some a).any isWord = false := h.outside
      rw [countFrom_of_none (h.lone previous rest hrest), countFrom_between (Or.inl hnext)]
      omega
  | more n ih _ =>
      have hhit := h.pair previous (List.replicate n a ++ rest)
      change countFrom decision previous (a :: [a] ++ (List.replicate n a ++ rest)) = _
      have hnext : [a, a].getLast?.any isWord = false := h.outside
      rw [countFrom_of_some hhit, ih hnext]
      omega

theorem Doubles.decisionCount_run_append {a : Char} {kind : Decision} (h : Doubles a kind)
    {run rest : List Char} (hrun : ∀ c ∈ run, (c == a) = true)
    (hrest : rest.head?.any (· == a) = false) :
    decisionCount (run ++ rest) = run.length / 2 + decisionCount rest := by
  have hreplicate : run = List.replicate run.length a :=
    List.eq_replicate_iff.2 ⟨rfl, fun c hc => beq_iff_eq.1 (hrun c hc)⟩
  conv_lhs => rw [hreplicate]
  exact h.countFrom_replicate_append rfl run.length hrest

/-! ## The closed form -/

/-- What the maximal runs of a text count for. -/
def runPoints (text : List Char) : Nat := keywordRuns text + pairs '&' text + pairs '|' text

/-- A text that is not empty starts with something that counts alike in the scan and in the
runs, and that neither looks beyond. -/
theorem exists_first_part (c : Char) (cs : List Char) :
    ∃ part rest k, c :: cs = part ++ rest ∧ part ≠ [] ∧
      decisionCount (part ++ rest) = k + decisionCount rest ∧
      runPoints (part ++ rest) = k + runPoints rest := by
  by_cases hword : isWord c = true
  · obtain ⟨run, rest, htext, hne, hrun, hrest⟩ := exists_run hword cs
    have hand : '&' ∉ run := fun hmem => absurd (hrun _ hmem) (by decide)
    have hor : '|' ∉ run := fun hmem => absurd (hrun _ hmem) (by decide)
    refine ⟨run, rest, _, htext, hne, decisionCount_word_append hne hrun hrest, ?_⟩
    unfold runPoints
    rw [keywordRuns_run_append hne hrun hrest, pairs_gap_append hand, pairs_gap_append hor]
    omega
  · have hout : isWord c = false := by simpa using hword
    by_cases hoperator : c = '&' ∨ c = '|'
    · obtain ⟨kind, hdoubles⟩ : ∃ kind, Doubles c kind := by
        rcases hoperator with rfl | rfl
        · exact ⟨_, doubles_ampersand⟩
        · exact ⟨_, doubles_bar⟩
      obtain ⟨run, rest, htext, hne, hrun, hrest⟩ :=
        exists_run (p := (· == c)) (beq_self_eq_true c) cs
      have hgap : ∀ d ∈ run, isWord d = false := fun d hd => beq_iff_eq.1 (hrun d hd) ▸ hout
      refine ⟨run, rest, _, htext, hne, hdoubles.decisionCount_run_append hrun hrest, ?_⟩
      unfold runPoints
      rw [keywordRuns_gap_append hgap, pairs_uniform_append hne hrun hrest,
        pairs_uniform_append hne hrun hrest]
      rcases hoperator with rfl | rfl
      · rw [if_pos rfl, if_neg (by decide)]
        omega
      · rw [if_neg (by decide), if_pos rfl]
        omega
    · rw [not_or] at hoperator
      have hgap : ∀ d ∈ [c], isWord d = false := by simpa using hout
      have hands : '&' ∉ [c] := by simpa using Ne.symm hoperator.1
      have hors : '|' ∉ [c] := by simpa using Ne.symm hoperator.2
      refine ⟨[c], cs, 0, rfl, by simp, ?_, ?_⟩
      · rw [List.singleton_append, decisionCount_cons_separator ⟨hout, hoperator⟩, Nat.zero_add]
      · unfold runPoints
        rw [keywordRuns_gap_append hgap, pairs_gap_append hands, pairs_gap_append hors,
          Nat.zero_add]

theorem decisionCount_eq_runPoints (text : List Char) : decisionCount text = runPoints text := by
  -- a run is taken as a whole, so the induction is on the length of the text
  induction hn : text.length using Nat.strong_induction_on generalizing text with
  | h n ih =>
      subst hn
      cases text with
      | nil => rfl
      | cons c cs =>
          obtain ⟨part, rest, k, htext, hne, hscan, hruns⟩ := exists_first_part c cs
          have hpos := List.length_pos_of_ne_nil hne
          have hrest := ih rest.length (by rw [htext, List.length_append]; omega) rest rfl
          rw [htext, hscan, hruns, hrest]

/-! ## Leftmost matches -/

/-- The alternatives of a decision point, the preferred ones first. -/
def decisionAlternatives : List (Decision × Pattern) :=
  [(.keyword, keywordPattern), (.conjunction, .literal "&&".toList),
    (.disjunction, .literal "||".toList)]

theorem decides_decision : Decides decision decisionAlternatives := by
  intro before rest kind n
  simp only [decisionAlternatives, prefers_cons_iff, not_prefers_nil, and_false, or_false,
    matchesHere_literal_iff, matchesHere_keywordPattern_iff]
  by_cases hand : ['&', '&'] <+: rest
  · obtain ⟨after, rfl⟩ := hand
    have hkeyword : keywordLength? before.getLast? ('&' :: '&' :: after) = none :=
      keywordLength?_of_head rfl _
    simp [hkeyword, decision, eq_comm]
  · by_cases hor : ['|', '|'] <+: rest
    · obtain ⟨after, rfl⟩ := hor
      have hkeyword : keywordLength? before.getLast? ('|' :: '|' :: after) = none :=
        keywordLength?_of_head rfl _
      simp [hkeyword, decision, eq_comm]
    · rw [decision_of_no_operator _ hand hor]
      simp [hand, hor, and_comm]

theorem leftmostSpans_decision_iff (text : List Char) (found : List (Span Decision)) :
    LeftmostSpans decisionAlternatives text found ↔ found = spans decision text := by
  have hpos : ∀ before rest kind n, Prefers decisionAlternatives before rest kind n → 0 < n :=
    fun before rest kind n h => (decision_bounds ((decides_decision before rest kind n).2 h)).1
  rw [decides_decision.leftmostSpans_iff hpos]
  exact greedy_iff_eq_spansFrom (fun _ _ _ _ h => (decision_bounds h).1) [] text 0 found

/-- The decision points of a text are the leftmost, non-overlapping matches of their patterns.
There are as many as the text has keywords among its maximal runs of word characters, and pairs
in its maximal runs of ampersands and of bars. -/
theorem complexity_from_maximal_runs (text : List Char) :
    (∀ found, LeftmostSpans decisionAlternatives text found ↔ found = spans decision text) ∧
    decisionCount text =
      ((runs wordClass text).countP fun run =>
        String.ofList run ∈ ["if", "for", "while", "switch", "case", "catch"]) +
      ((runs (· == '&') text).map fun run => run.length / 2).sum +
      ((runs (· == '|') text).map fun run => run.length / 2).sum ∧
    cyclomatic text = decisionCount text + 1 := by
  exact ⟨leftmostSpans_decision_iff text, decisionCount_eq_runPoints text, Nat.add_comm ..⟩

end SourceGauge.Scan
