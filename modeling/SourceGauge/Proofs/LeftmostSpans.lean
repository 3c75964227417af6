import SourceGauge.Proofs.Pattern

/-!
# Leftmost, non-overlapping spans

Which lists of spans are the result of matching from left to right: the spans are disjoint and in
order, each is the preferred match at its start, and nothing matches in the gaps. Every text has
exactly one such list, and the scan finds it.
-/

namespace SourceGauge.Scan

variable {matcher : Matcher α} {text : List Char}

/-- The position lies in the span. -/
def Span.Covers (s : Span α) (i : Nat) : Prop := s.start ≤ i ∧ i < s.start + s.length

/-- The spans of a text under leftmost matching with ordered alternatives. -/
structure LeftmostSpans (alternatives : List (α × Pattern)) (text : List Char)
    (found : List (Span α)) : Prop where
  /-- From left to right, and disjoint. -/
  ordered : found.Pairwise fun s t => s.start + s.length ≤ t.start
  within : ∀ s ∈ found, s.start + s.length ≤ text.length
  preferred : ∀ s ∈ found,
    Prefers alternatives (text.take s.start) (text.drop s.start) s.kind s.length
  gaps : ∀ i ≤ text.length, (∀ s ∈ found, ¬ s.Covers i) →
    NoMatch alternatives (text.take i) (text.drop i)

/-! ## Greedy lists of a matcher -/

/-- What the matcher finds at a position of the text. -/
def Matcher.at (matcher : Matcher α) (text : List Char) (i : Nat) : Option (α × Nat) :=
  matcher (text.take i).getLast? (text.drop i)

/-- The same for a matcher, from a position on. -/
structure Greedy (matcher : Matcher α) (text : List Char) (start : Nat)
    (found : List (Span α)) : Prop where
  ordered : found.Pairwise fun s t => s.start + s.length ≤ t.start
  hits : ∀ s ∈ found, start ≤ s.start ∧ s.start < text.length ∧
    matcher.at text s.start = some (s.kind, s.length)
  gaps : ∀ i, start ≤ i → i < text.length → (∀ s ∈ found, ¬ s.Covers i) → matcher.at text i = none

theorem greedy_of_length_le {start : Nat} {found : List (Span α)} (h : text.length ≤ start) :
    Greedy matcher text start found ↔ found = [] := by
  constructor
  · intro hg
    rw [List.eq_nil_iff_forall_not_mem]
    intro s hs
    have hhit := hg.hits s hs
    omega
  · intro hnil
    subst hnil
    exact ⟨List.Pairwise.nil, by simp, by intro i hi hlt; omega⟩

/-- A position without match is passed over. -/
theorem greedy_of_none {start : Nat} {found : List (Span α)}
    (h : matcher.at text start = none) :
    Greedy matcher text start found ↔ Greedy matcher text (start + 1) found := by
  constructor
  · intro hg
    refine ⟨hg.ordered, ?_, fun i hi => hg.gaps i (by omega)⟩
    intro s hs
    obtain ⟨hstart, hlt, hat⟩ := hg.hits s hs
    refine ⟨?_, hlt, hat⟩
    rcases Nat.lt_or_eq_of_le hstart with hlt | heq
    · exact hlt
    · rw [← heq, h] at hat
      cases hat
  · intro hg
    refine ⟨hg.ordered, ?_, ?_⟩
    · intro s hs
      obtain ⟨hstart, hlt, hat⟩ := hg.hits s hs
      exact ⟨by omega, hlt, hat⟩
    · intro i hi hlt hfree
      rcases Nat.lt_or_eq_of_le hi with hi | rfl
      · exact hg.gaps i hi hlt hfree
      · exact h

/-- A position with a match starts the first span, and the list goes on behind it. -/
theorem greedy_of_some {start length : Nat} {kind : α} {found : List (Span α)}
    (hlt : start < text.length) (hpos : 0 < length)
    (h : matcher.at text start = some (kind, length)) :
    Greedy matcher text start found ↔
      ∃ rest, found = ⟨kind, start, length⟩ :: rest ∧
        Greedy matcher text (start + length) rest := by
  constructor
  · intro hg
    cases found with
    | nil =>
        have hnone := hg.gaps start (Nat.le_refl _) hlt (by simp)
        rw [h] at hnone
        cases hnone
    | cons s rest =>
        obtain ⟨hbefore, hrest⟩ := List.pairwise_cons.1 hg.ordered
        obtain ⟨hstart, _, hat⟩ := hg.hits s (List.mem_cons_self ..)
        -- a later first span would leave the match at `start` in a gap
        have heq : s.start = start := by
          by_contra hne
          have hnone : matcher.at text start = none := by
            refine hg.gaps start (Nat.le_refl _) hlt fun t ht hcovers => ?_
            rcases List.mem_cons.1 ht with rfl | ht
            · exact hne (Nat.le_antisymm hcovers.1 hstart)
            · have hle := hbefore t ht
              have hcov := hcovers.1
              omega
          rw [h] at hnone
          cases hnone
        have hs : s = ⟨kind, start, length⟩ := by
          rw [heq, h] at hat
          cases s
          cases hat
          cases heq
          rfl
        subst hs
        refine ⟨rest, rfl, hrest, ?_, ?_⟩
        · intro t ht
          obtain ⟨_, htext, hat⟩ := hg.hits t (List.mem_cons_of_mem _ ht)
          exact ⟨hbefore t ht, htext, hat⟩
        · intro i hi htext hfree
          refine hg.gaps i (by omega) htext fun t ht hcovers => ?_
          rcases List.mem_cons.1 ht with rfl | ht
          · exact absurd hcovers.2 (Nat.not_lt.2 hi)
          · exact hfree t ht hcovers
  · intro hrest
    obtain ⟨rest, rfl, hg⟩ := hrest
    refine ⟨List.pairwise_cons.2 ⟨fun t ht => (hg.hits t ht).1, hg.ordered⟩, ?_, ?_⟩
    · intro t ht
      rcases List.mem_cons.1 ht with rfl | ht
      · exact ⟨Nat.le_refl _, hlt, h⟩
      · obtain ⟨hstart, htext, hat⟩ := hg.hits t ht
        exact ⟨by omega, htext, hat⟩
    · intro i hi htext hfree
      have hhead := hfree _ (List.mem_cons_self ..)
      refine hg.gaps i ?_ htext fun t ht => hfree t (List.mem_cons_of_mem _ ht)
      by_contra hi'
      exact hhead ⟨hi, Nat.lt_of_not_le hi'⟩

/-- The scan gives the greedy list, and there is no other. The skip counter stands for the rest
of the span found last. -/
theorem greedy_iff_eq_spansFrom (hpos : ∀ previous rest kind length,
      matcher previous rest = some (kind, length) → 0 < length)
    (before rest : List Char) (skip : Nat) (found : List (Span α)) :
    Greedy matcher (before ++ rest) (before.length + skip) found ↔
      found = spansFrom matcher before.length skip before.getLast? rest := by
  induction rest generalizing before skip found with
  | nil =>
      rw [greedy_of_length_le (by simp)]
      rfl
  | cons c cs ih =>
      have happend : before ++ c :: cs = (before ++ [c]) ++ cs := by simp
      have hlast : (before ++ [c]).getLast? = some c := by simp
      have hnext := fun skip found => ih (before ++ [c]) skip found
      rw [← happend] at hnext
      simp only [hlast, List.length_append, List.length_singleton] at hnext
      cases skip with
      | succ skip =>
          rw [spansFrom, ← hnext,
            show before.length + (skip + 1) = before.length + 1 + skip by omega]
      | zero =>
          have hat : matcher.at (before ++ c :: cs) before.length =
              matcher before.getLast? (c :: cs) := by simp [Matcher.at]
          rw [Nat.add_zero]
          cases hm : matcher before.getLast? (c :: cs) with
          | none =>
              rw [greedy_of_none (hat.trans hm), spansFrom]
              simpa [hm] using hnext 0 found
          | some hit =>
              obtain ⟨kind, length⟩ := hit
              have hlength := hpos _ _ _ _ hm
              have hgoal := hnext (length - 1)
              rw [show before.length + 1 + (length - 1) = before.length + length by omega] at hgoal
              rw [greedy_of_some (by simp) hlength (hat.trans hm), spansFrom]
              simp [hm, hgoal]

/-! ## Matchers that decide alternatives -/

/-- At every position the matcher gives the preferred match, and nothing if there is none. -/
def Decides (matcher : Matcher α) (alternatives : List (α × Pattern)) : Prop :=
  ∀ before rest kind n, matcher before.getLast? rest = some (kind, n) ↔
    Prefers alternatives before rest kind n

theorem Decides.at_eq_some_iff {alternatives : List (α × Pattern)}
    (h : Decides matcher alternatives) (i : Nat) (kind : α) (n : Nat) :
    matcher.at text i = some (kind, n) ↔
      Prefers alternatives (text.take i) (text.drop i) kind n :=
  h (text.take i) (text.drop i) kind n

/-- If no alternative matches the empty text, a list of spans is the leftmost one of the
alternatives exactly if it is the greedy one of the matcher. -/
theorem Decides.leftmostSpans_iff {alternatives : List (α × Pattern)}
    (h : Decides matcher alternatives)
    (hpos : ∀ before rest kind n, Prefers alternatives before rest kind n → 0 < n)
    (found : List (Span α)) :
    LeftmostSpans alternatives text found ↔ Greedy matcher text 0 found := by
  have hnone : ∀ i, matcher.at text i = none ↔
      NoMatch alternatives (text.take i) (text.drop i) := by
    intro i
    rw [noMatch_iff, Option.eq_none_iff_forall_ne_some]
    constructor
    · intro hm kind n hp
      exact hm (kind, n) ((h.at_eq_some_iff i kind n).2 hp)
    · intro hp hit hm
      obtain ⟨kind, n⟩ := hit
      exact hp kind n ((h.at_eq_some_iff i kind n).1 hm)
  constructor
  · intro hl
    refine ⟨hl.ordered, ?_, ?_⟩
    · intro s hs
      have hprefers := hl.preferred s hs
      have hlength := hpos _ _ _ _ hprefers
      have hwithin := hl.within s hs
      exact ⟨Nat.zero_le _, by omega, (h.at_eq_some_iff _ _ _).2 hprefers⟩
    · intro i _ hi hfree
      exact (hnone i).2 (hl.gaps i (Nat.le_of_lt hi) hfree)
  · intro hg
    refine ⟨hg.ordered, ?_, ?_, ?_⟩
    · intro s hs
      obtain ⟨_, hlt, hat⟩ := hg.hits s hs
      obtain ⟨_, _, _, _, ⟨hfits, _⟩, _⟩ := (h.at_eq_some_iff _ _ _).1 hat
      rw [List.length_drop] at hfits
      omega
    · intro s hs
      exact (h.at_eq_some_iff _ _ _).1 (hg.hits s hs).2.2
    · intro i hi hfree
      rcases Nat.lt_or_eq_of_le hi with hi | rfl
      · exact (hnone i).1 (hg.gaps i (Nat.zero_le i) hi hfree)
      · -- behind the last character only an empty match would fit
        rw [noMatch_iff, List.drop_length]
        intro kind n hp
        have hn := hpos _ _ _ _ hp
        obtain ⟨_, _, _, _, ⟨hfits, _⟩, _⟩ := hp
        rw [List.length_nil] at hfits
        omega

end SourceGauge.Scan
