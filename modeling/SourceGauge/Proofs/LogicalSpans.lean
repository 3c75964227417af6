import Mathlib.Data.List.TakeWhile
import SourceGauge.Proofs.LeftmostSpans
import SourceGauge.Proofs.Text

/-!
# Logical expressions as leftmost matches

The scan for logical expressions takes runs of characters greedily and never goes back. Each of
its alternatives matches in at most one way, so it still finds every match of the patterns.
-/

namespace SourceGauge.Scan

/-! ## Classes of characters -/

theorem isIdentifierStart_eq_letterClass (c : Char) : isIdentifierStart c = letterClass c := by
  unfold isIdentifierStart letterClass Char.isAlpha Char.isUpper Char.isLower
  rw [Bool.eq_iff_iff]
  simp only [Bool.or_eq_true, Bool.and_eq_true, decide_eq_true_eq, beq_iff_eq, ge_iff_le,
    Char.le_def]
  tauto

theorem isWord_eq_wordClass (c : Char) : isWord c = wordClass c := by
  have hletter := isIdentifierStart_eq_letterClass c
  unfold isIdentifierStart at hletter
  unfold isWord wordClass Char.isAlphanum Char.isDigit
  rw [← hletter, Bool.eq_iff_iff]
  simp only [Bool.or_eq_true, Bool.and_eq_true, decide_eq_true_eq, beq_iff_eq, ge_iff_le,
    Char.le_def]
  tauto

theorem isWord_of_isIdentifierStart {c : Char} (h : isIdentifierStart c = true) :
    isWord c = true := by
  rw [isIdentifierStart_eq_letterClass] at h
  rw [isWord_eq_wordClass, wordClass, h, Bool.true_or]

theorem toNat_of_isWord {c : Char} (h : isWord c = true) : 48 ≤ c.toNat ∧ c.toNat ≤ 122 := by
  rw [isWord_eq_wordClass] at h
  simp only [wordClass, letterClass, Bool.or_eq_true, Bool.and_eq_true, decide_eq_true_eq,
    beq_iff_eq, Char.le_def, UInt32.le_iff_toNat_le] at h
  rcases h with ((hlower | hupper) | rfl) | hdigit
  · change 97 ≤ c.toNat ∧ c.toNat ≤ 122 at hlower
    omega
  · change 65 ≤ c.toNat ∧ c.toNat ≤ 90 at hupper
    omega
  · decide
  · change 48 ≤ c.toNat ∧ c.toNat ≤ 57 at hdigit
    omega

theorem not_isWord_of_isBlank {c : Char} (h : Text.isBlank c = true) : isWord c = false := by
  rw [Bool.eq_false_iff]
  intro hword
  have hrange := toNat_of_isWord hword
  simp only [Text.isBlank, Text.inRanges, Text.blankRanges, List.any_cons, List.any_nil,
    Bool.or_false, Bool.or_eq_true, Bool.and_eq_true, decide_eq_true_eq] at h
  omega

/-! ## Runs of a class -/

theorem head?_any_dropWhile (p : Char → Bool) (s : List Char) :
    (s.dropWhile p).head?.any p = false := by
  have hnot := List.head?_dropWhile_not p s
  cases hs : (s.dropWhile p).head? with
  | none => rfl
  | some c =>
      rw [hs] at hnot
      simpa using hnot

/-! ## Calls -/

/-- The parts of a call. -/
theorem matches_callPattern_iff {before text after : List Char} :
    callPattern.Matches before text after ↔
      ∃ c word blanks inner, isIdentifierStart c = true ∧ (∀ d ∈ word, isWord d = true) ∧
        (∀ d ∈ blanks, Text.isBlank d = true) ∧ (∀ d ∈ inner, (d != ')') = true) ∧
        text = c :: (word ++ (blanks ++ '(' :: (inner ++ [')']))) := by
  simp only [isIdentifierStart_eq_letterClass, isWord_eq_wordClass]
  constructor
  · intro h
    obtain ⟨_, _, rfl, hname, h⟩ := Pattern.matches_seq_iff.1 h
    obtain ⟨c, hc, rfl⟩ := Pattern.matches_one_iff.1 hname
    obtain ⟨word, _, rfl, hword, h⟩ := Pattern.matches_seq_iff.1 h
    obtain ⟨blanks, _, rfl, hblanks, h⟩ := Pattern.matches_seq_iff.1 h
    obtain ⟨_, _, rfl, hopen, h⟩ := Pattern.matches_seq_iff.1 h
    obtain ⟨left, hleft, rfl⟩ := Pattern.matches_one_iff.1 hopen
    obtain ⟨inner, _, rfl, hinner, hclose⟩ := Pattern.matches_seq_iff.1 h
    obtain ⟨right, hright, rfl⟩ := Pattern.matches_one_iff.1 hclose
    rw [beq_iff_eq] at hleft hright
    subst hleft hright
    exact ⟨c, word, blanks, inner, hc, Pattern.matches_star_one_iff.1 hword,
      Pattern.matches_star_one_iff.1 hblanks, Pattern.matches_star_one_iff.1 hinner, rfl⟩
  · intro h
    obtain ⟨c, word, blanks, inner, hc, hword, hblanks, hinner, rfl⟩ := h
    refine .seq (x := [c]) (.one hc) <| .seq (Pattern.matches_star_one_iff.2 hword) <|
      .seq (Pattern.matches_star_one_iff.2 hblanks) <| .seq (x := ['(']) (.one (by rfl)) <|
      .seq (Pattern.matches_star_one_iff.2 hinner) (.one (by rfl))

/-- Where a call starts and ends: behind the name and blanks the list opens, and the rest begins
behind its first closing parenthesis. -/
theorem afterCall?_cons_eq_some_iff (c : Char) (cs after : List Char) :
    afterCall? (c :: cs) = some after ↔
      isIdentifierStart c = true ∧ ∃ inner,
        (cs.dropWhile isWord).dropWhile Text.isBlank = '(' :: inner ∧
          inner.dropWhile (· != ')') = ')' :: after := by
  constructor
  · intro h
    rw [afterCall?] at h
    split at h
    case isFalse => cases h
    case isTrue hc =>
      split at h
      case h_2 => cases h
      case h_1 inner hopen =>
        split at h
        case h_1 => cases h
        case h_2 close rest hclose =>
          cases h
          have hhead := head?_any_dropWhile (· != ')') inner
          rw [hclose] at hhead
          have hparen : close = ')' := by simpa using hhead
          exact ⟨hc, inner, hopen, by rw [hclose, hparen]⟩
  · rintro ⟨hc, inner, hopen, hclose⟩
    simp only [afterCall?, hc, if_true, hopen, hclose]

/-- Taking the longest runs finds the call whenever there is one. -/
theorem afterCall?_of_parts {c : Char} {word blanks inner : List Char} (after : List Char)
    (hc : isIdentifierStart c = true) (hword : ∀ d ∈ word, isWord d = true)
    (hblanks : ∀ d ∈ blanks, Text.isBlank d = true) (hinner : ∀ d ∈ inner, (d != ')') = true) :
    afterCall? (c :: (word ++ (blanks ++ '(' :: (inner ++ [')']))) ++ after) = some after := by
  have hblankHead : (blanks ++ '(' :: (inner ++ ')' :: after)).head?.any isWord = false := by
    cases blanks with
    | nil => rfl
    | cons d ds => exact not_isWord_of_isBlank (hblanks d (List.mem_cons_self ..))
  have hafterWord := Text.dropWhile_run hword hblankHead
  have hafterBlanks : (blanks ++ '(' :: (inner ++ ')' :: after)).dropWhile Text.isBlank =
      '(' :: (inner ++ ')' :: after) := Text.dropWhile_run hblanks rfl
  have hafterInner : (inner ++ ')' :: after).dropWhile (· != ')') = ')' :: after :=
    Text.dropWhile_run hinner rfl
  have hshape : c :: (word ++ (blanks ++ '(' :: (inner ++ [')']))) ++ after =
      c :: (word ++ (blanks ++ '(' :: (inner ++ ')' :: after))) := by simp
  rw [hshape, afterCall?_cons_eq_some_iff, hafterWord]
  exact ⟨hc, _, hafterBlanks, hafterInner⟩

/-- What the scan takes for a call has the parts of one. -/
theorem parts_of_afterCall? {rest after : List Char} (h : afterCall? rest = some after) :
    ∃ c word blanks inner, isIdentifierStart c = true ∧ (∀ d ∈ word, isWord d = true) ∧
      (∀ d ∈ blanks, Text.isBlank d = true) ∧ (∀ d ∈ inner, (d != ')') = true) ∧
      rest = c :: (word ++ (blanks ++ '(' :: (inner ++ [')']))) ++ after := by
  cases rest with
  | nil => cases h
  | cons c cs =>
      obtain ⟨hc, inner, hopen, hclose⟩ := (afterCall?_cons_eq_some_iff c cs after).1 h
      have hword : cs.takeWhile isWord ++ cs.dropWhile isWord = cs :=
        List.takeWhile_append_dropWhile
      have hblanks : (cs.dropWhile isWord).takeWhile Text.isBlank ++ '(' :: inner =
          cs.dropWhile isWord := by
        rw [← hopen, List.takeWhile_append_dropWhile]
      have hinner : inner.takeWhile (· != ')') ++ ')' :: after = inner := by
        rw [← hclose, List.takeWhile_append_dropWhile]
      refine ⟨c, cs.takeWhile isWord, (cs.dropWhile isWord).takeWhile Text.isBlank,
        inner.takeWhile (· != ')'), hc, fun d => List.mem_takeWhile_imp,
        fun d => List.mem_takeWhile_imp, fun d => List.mem_takeWhile_imp, ?_⟩
      calc c :: cs = c :: (cs.takeWhile isWord ++ ((cs.dropWhile isWord).takeWhile
            Text.isBlank ++ '(' :: (inner.takeWhile (· != ')') ++ ')' :: after))) := by
            rw [hinner, hblanks, hword]
        _ = _ := by simp

theorem matchesHere_callPattern_iff {before rest : List Char} {n : Nat} :
    callPattern.MatchesHere before rest n ↔
      ∃ after, afterCall? rest = some after ∧ n = rest.length - after.length := by
  rw [Pattern.matchesHere_iff]
  constructor
  · intro hsplit
    obtain ⟨text, after, rfl, rfl, h⟩ := hsplit
    obtain ⟨c, word, blanks, inner, hc, hword, hblanks, hinner, rfl⟩ := matches_callPattern_iff.1 h
    refine ⟨after, afterCall?_of_parts after hc hword hblanks hinner, ?_⟩
    rw [List.length_append, Nat.add_sub_cancel]
  · intro hcall
    obtain ⟨after, h, rfl⟩ := hcall
    obtain ⟨c, word, blanks, inner, hc, hword, hblanks, hinner, rfl⟩ := parts_of_afterCall? h
    refine ⟨_, after, rfl, ?_, matches_callPattern_iff.2
      ⟨c, word, blanks, inner, hc, hword, hblanks, hinner, rfl⟩⟩
    rw [List.length_append, Nat.add_sub_cancel]

theorem logical_of_call {rest after : List Char} (h : afterCall? rest = some after)
    (previous : Option Char) :
    logical previous rest = some (.call, rest.length - after.length) := by
  unfold logical
  rw [h]

theorem logical_of_no_call {rest : List Char} (h : afterCall? rest = none)
    (previous : Option Char) :
    logical previous rest = (decision previous rest).map fun d => (.decision d.1, d.2) := by
  unfold logical
  rw [h]

/-! ## Operators and keywords -/

theorem matchesHere_literal_iff {word before rest : List Char} {n : Nat} :
    (Pattern.literal word).MatchesHere before rest n ↔ word <+: rest ∧ n = word.length := by
  rw [Pattern.matchesHere_iff]
  constructor
  · intro hsplit
    obtain ⟨text, after, rfl, rfl, h⟩ := hsplit
    rw [Pattern.matches_literal_iff.1 h]
    exact ⟨List.prefix_append word after, rfl⟩
  · intro h
    obtain ⟨⟨after, rfl⟩, rfl⟩ := h
    exact ⟨word, after, rfl, rfl, Pattern.matches_literal_iff.2 rfl⟩

theorem isWord_of_mem_keyword {word : List Char} (h : word ∈ keywords) :
    ∀ c ∈ word, isWord c = true := by
  have hall : keywords.all (fun w => w.all isWord) = true := by decide
  simp only [List.all_eq_true] at hall
  exact hall word h

theorem keyword_ne_nil {word : List Char} (h : word ∈ keywords) : word ≠ [] := by
  have hall : ∀ w ∈ keywords, w ≠ [] := by decide
  exact hall word h

/-- Both boundaries of a keyword say that no word character stands next to it. -/
theorem matches_keywordPattern_iff {before text after : List Char} :
    keywordPattern.Matches before text after ↔
      text ∈ keywords ∧ before.getLast?.any isWord = false ∧ after.head?.any isWord = false := by
  have hword : wordClass = isWord := funext fun c => (isWord_eq_wordClass c).symm
  have hmem : text ∈ keywords → text.head?.any isWord = true ∧ text.getLast?.any isWord = true := by
    intro h
    have hne := keyword_ne_nil h
    have hall := isWord_of_mem_keyword h
    rw [List.head?_eq_some_head hne, List.getLast?_eq_some_getLast hne]
    exact ⟨hall _ (List.head_mem hne), hall _ (List.getLast_mem hne)⟩
  have hends : text ∈ keywords → (text ++ after).head?.any isWord = true ∧
      (before ++ text).getLast?.any isWord = true := by
    intro h
    obtain ⟨hhead, hlast⟩ := hmem h
    rw [List.head?_append_of_ne_nil _ (keyword_ne_nil h),
      List.getLast?_append_of_ne_nil _ (keyword_ne_nil h)]
    exact ⟨hhead, hlast⟩
  constructor
  · intro h
    obtain ⟨_, _, rfl, hstart, h⟩ := Pattern.matches_seq_iff.1 h
    obtain ⟨rfl, hleft⟩ := Pattern.matches_boundary_iff.1 hstart
    obtain ⟨word, _, rfl, hbody, hend⟩ := Pattern.matches_seq_iff.1 h
    obtain ⟨rfl, hright⟩ := Pattern.matches_boundary_iff.1 hend
    have hkeyword : word ∈ keywords := by simpa [keywords] using hbody
    simp only [List.nil_append, List.append_nil, hword] at hleft hright hends ⊢
    obtain ⟨hhead, hlast⟩ := hends hkeyword
    rw [hhead] at hleft
    rw [hlast] at hright
    exact ⟨hkeyword, by simpa using hleft, by simpa using hright.symm⟩
  · intro h
    obtain ⟨hkeyword, hbefore, hafter⟩ := h
    obtain ⟨hhead, hlast⟩ := hends hkeyword
    refine .seq (x := []) (.boundary ?_) ?_
    · rw [hword, hbefore, hhead]
      decide
    · rw [← List.append_nil text]
      refine .seq ?_ (.boundary ?_)
      · simpa [keywords] using hkeyword
      · rw [List.append_nil, hword, hlast, hafter]
        decide

theorem matchesHere_keywordPattern_iff {before rest : List Char} {n : Nat} :
    keywordPattern.MatchesHere before rest n ↔ keywordLength? before.getLast? rest = some n := by
  rw [Pattern.matchesHere_iff]
  constructor
  · intro hsplit
    obtain ⟨text, after, rfl, rfl, h⟩ := hsplit
    obtain ⟨hkeyword, hbefore, hafter⟩ := matches_keywordPattern_iff.1 h
    have hrun := Text.takeWhile_run (isWord_of_mem_keyword hkeyword) hafter
    simp [keywordLength?, hbefore, hrun, hkeyword]
  · intro h
    unfold keywordLength? at h
    dsimp only at h
    split at h
    · cases h
    · rename_i hbefore
      split at h
      · rename_i hkeyword
        refine ⟨rest.takeWhile isWord, rest.dropWhile isWord, ?_, Option.some.inj h, ?_⟩
        · rw [List.takeWhile_append_dropWhile]
        · exact matches_keywordPattern_iff.2 ⟨hkeyword, by simpa using hbefore,
            head?_any_dropWhile isWord rest⟩
      · cases h

theorem decision_of_no_operator {rest : List Char} (previous : Option Char)
    (hand : ¬ ['&', '&'] <+: rest) (hor : ¬ ['|', '|'] <+: rest) :
    decision previous rest = (keywordLength? previous rest).map fun n => (.keyword, n) := by
  unfold decision
  split
  · exact absurd (List.prefix_append ['&', '&'] _) hand
  · exact absurd (List.prefix_append ['|', '|'] _) hor
  · rfl

theorem keywordLength?_bounds {previous : Option Char} {rest : List Char} {n : Nat}
    (h : keywordLength? previous rest = some n) : 0 < n ∧ n ≤ rest.length := by
  unfold keywordLength? at h
  dsimp only at h
  split at h
  · cases h
  · split at h
    · rename_i hkeyword
      cases h
      exact ⟨List.length_pos_of_ne_nil (keyword_ne_nil hkeyword),
        (List.takeWhile_prefix isWord).length_le⟩
    · cases h

theorem decision_bounds {previous : Option Char} {rest : List Char} {kind : Decision} {n : Nat}
    (h : decision previous rest = some (kind, n)) : 0 < n ∧ n ≤ rest.length := by
  unfold decision at h
  split at h
  · cases h
    simp
  · cases h
    simp
  · obtain ⟨m, hm, heq⟩ := Option.map_eq_some_iff.1 h
    cases heq
    exact keywordLength?_bounds hm

theorem logical_bounds {previous : Option Char} {rest : List Char} {kind : Logical} {n : Nat}
    (h : logical previous rest = some (kind, n)) : 0 < n ∧ n ≤ rest.length := by
  unfold logical at h
  split at h
  · rename_i after hcall
    cases h
    obtain ⟨c, word, blanks, inner, -, -, -, -, rfl⟩ := parts_of_afterCall? hcall
    simp only [List.length_append, List.length_cons]
    omega
  · obtain ⟨⟨d, m⟩, hd, heq⟩ := Option.map_eq_some_iff.1 h
    cases heq
    exact decision_bounds hd

/-! ## The scan -/

theorem decides_logical : Decides logical logicalAlternatives := by
  intro before rest kind n
  simp only [logicalAlternatives, prefers_cons_iff, not_prefers_nil, and_false, or_false,
    matchesHere_callPattern_iff, matchesHere_literal_iff, matchesHere_keywordPattern_iff]
  cases hcall : afterCall? rest with
  | some after =>
      simp [logical, hcall, eq_comm]
  | none =>
      simp only [logical, hcall]
      by_cases hand : ['&', '&'] <+: rest
      · obtain ⟨after, rfl⟩ := hand
        simp [decision, eq_comm]
      · by_cases hor : ['|', '|'] <+: rest
        · obtain ⟨after, rfl⟩ := hor
          simp [decision, eq_comm]
        · rw [decision_of_no_operator _ hand hor]
          simp [hand, hor, and_comm]

theorem prefers_logical_pos {before rest : List Char} {kind : Logical} {n : Nat}
    (h : Prefers logicalAlternatives before rest kind n) : 0 < n :=
  (logical_bounds ((decides_logical before rest kind n).2 h)).1

theorem leftmostSpans_logical_iff (code : List Char) (found : List (Span Logical)) :
    LeftmostSpans logicalAlternatives code found ↔ found = spans logical code := by
  rw [decides_logical.leftmostSpans_iff (fun _ _ _ _ => prefers_logical_pos)]
  exact greedy_iff_eq_spansFrom (fun _ _ _ _ h => (logical_bounds h).1) [] code 0 found

/-- Every text has exactly one list of leftmost, non-overlapping matches of the alternatives of
a logical expression, and the count is the length of that list. -/
theorem logicalCount_counts_leftmost (code : List Char) :
    (∃! found, LeftmostSpans logicalAlternatives code found) ∧
    ∃ found, LeftmostSpans logicalAlternatives code found ∧ logicalCount code = found.length := by
  have hspans := (leftmostSpans_logical_iff code _).2 rfl
  refine ⟨⟨spans logical code, hspans, ?_⟩, spans logical code, hspans, rfl⟩
  intro found hfound
  exact (leftmostSpans_logical_iff code found).1 hfound

/-- A call may start inside a word, where a keyword may not. -/
example : logicalCount "1if (a) 1if".toList = 1 := by decide

end SourceGauge.Scan
