import Mathlib.Data.List.Basic
import SourceGauge.Scan

/-!
# Patterns and what they match

A declarative account of regular expressions with word boundaries. A pattern matches a stretch
of a text if the stretch can be split along the pattern in some way; no order of search is
involved. The stretch is given together with what stands before and behind it, so a boundary
is judged against the whole text.
-/

namespace SourceGauge.Scan

/-- ASCII letters and the underscore. -/
def letterClass (c : Char) : Bool :=
  'a' ≤ c && c ≤ 'z' || 'A' ≤ c && c ≤ 'Z' || c == '_'

/-- ASCII letters, ASCII digits and the underscore. -/
def wordClass (c : Char) : Bool := letterClass c || '0' ≤ c && c ≤ '9'

inductive Pattern where
  | empty
  | one (accepts : Char → Bool)
  | boundary
  | seq (first second : Pattern)
  | alt (left right : Pattern)
  | star (body : Pattern)

namespace Pattern

/-- `Matches r before text after`: the pattern matches `text` between `before` and `after`. -/
inductive Matches : Pattern → List Char → List Char → List Char → Prop where
  | empty {before after} : Matches .empty before [] after
  | one {accepts before c after} (h : accepts c = true) : Matches (.one accepts) before [c] after
  | boundary {before after} (h : before.getLast?.any wordClass ≠ after.head?.any wordClass) :
      Matches .boundary before [] after
  | seq {r s before x y after} (first : Matches r before x (y ++ after))
      (second : Matches s (before ++ x) y after) : Matches (.seq r s) before (x ++ y) after
  | altLeft {r s before x after} (h : Matches r before x after) : Matches (.alt r s) before x after
  | altRight {r s before x after} (h : Matches s before x after) : Matches (.alt r s) before x after
  | starNil {r before after} : Matches (.star r) before [] after
  | starCons {r before x y after} (first : Matches r before x (y ++ after))
      (rest : Matches (.star r) (before ++ x) y after) : Matches (.star r) before (x ++ y) after

variable {before text after : List Char}

@[simp] theorem matches_empty_iff : Matches .empty before text after ↔ text = [] := by
  constructor
  · intro h
    cases h
    rfl
  · intro h
    subst h
    exact .empty

@[simp] theorem matches_one_iff {accepts : Char → Bool} :
    Matches (.one accepts) before text after ↔ ∃ c, accepts c = true ∧ text = [c] := by
  constructor
  · intro h
    cases h with
    | one hc => exact ⟨_, hc, rfl⟩
  · intro h
    obtain ⟨c, hc, rfl⟩ := h
    exact .one hc

@[simp] theorem matches_boundary_iff :
    Matches .boundary before text after ↔
      text = [] ∧ before.getLast?.any wordClass ≠ after.head?.any wordClass := by
  constructor
  · intro h
    cases h with
    | boundary hb => exact ⟨rfl, hb⟩
  · intro h
    obtain ⟨rfl, hb⟩ := h
    exact .boundary hb

@[simp] theorem matches_seq_iff {r s : Pattern} :
    Matches (.seq r s) before text after ↔
      ∃ x y, text = x ++ y ∧ Matches r before x (y ++ after) ∧
        Matches s (before ++ x) y after := by
  constructor
  · intro h
    cases h with
    | seq first second => exact ⟨_, _, rfl, first, second⟩
  · intro h
    obtain ⟨x, y, rfl, first, second⟩ := h
    exact .seq first second

@[simp] theorem matches_alt_iff {r s : Pattern} :
    Matches (.alt r s) before text after ↔
      Matches r before text after ∨ Matches s before text after := by
  constructor
  · intro h
    cases h with
    | altLeft h => exact Or.inl h
    | altRight h => exact Or.inr h
  · intro h
    rcases h with h | h
    · exact .altLeft h
    · exact .altRight h

/-- A repeated class matches every run of its characters. -/
@[simp] theorem matches_star_one_iff {accepts : Char → Bool} :
    Matches (.star (.one accepts)) before text after ↔ ∀ c ∈ text, accepts c = true := by
  constructor
  · intro h
    generalize hr : Pattern.star (.one accepts) = r at h
    induction h with
    | starNil => simp
    | starCons first rest _ ih =>
        cases hr
        obtain ⟨c, hc, rfl⟩ := matches_one_iff.1 first
        intro d hd
        rcases List.mem_cons.1 hd with rfl | hd
        · exact hc
        · exact ih rfl d hd
    | _ => cases hr
  · intro h
    induction text generalizing before with
    | nil => exact .starNil
    | cons c cs ih =>
        have hc : accepts c = true := h c (List.mem_cons_self ..)
        have hcs : ∀ d ∈ cs, accepts d = true := fun d hd => h d (List.mem_cons_of_mem c hd)
        exact .starCons (x := [c]) (.one hc) (ih hcs)

/-- Exactly the given characters. -/
def literal : List Char → Pattern
  | [] => .empty
  | c :: cs => .seq (.one (· == c)) (literal cs)

@[simp] theorem matches_literal_iff {word : List Char} :
    Matches (literal word) before text after ↔ text = word := by
  induction word generalizing before text with
  | nil => simp [literal]
  | cons c cs ih =>
      rw [literal, matches_seq_iff]
      constructor
      · intro h
        obtain ⟨x, y, rfl, first, second⟩ := h
        obtain ⟨d, hd, rfl⟩ := matches_one_iff.1 first
        rw [ih.1 second, beq_iff_eq.1 hd]
        rfl
      · intro h
        subst h
        exact ⟨[c], cs, rfl, .one (by simp), ih.2 rfl⟩

/-- The pattern matches the first `n` characters of `rest` behind `before`. -/
def MatchesHere (r : Pattern) (before rest : List Char) (n : Nat) : Prop :=
  n ≤ rest.length ∧ r.Matches before (rest.take n) (rest.drop n)

theorem matchesHere_iff {r : Pattern} {rest : List Char} {n : Nat} :
    r.MatchesHere before rest n ↔
      ∃ text after, rest = text ++ after ∧ text.length = n ∧ r.Matches before text after := by
  constructor
  · intro hhere
    obtain ⟨hn, h⟩ := hhere
    have hlength : (rest.take n).length = n := List.length_take_of_le hn
    exact ⟨rest.take n, rest.drop n, (List.take_append_drop n rest).symm, hlength, h⟩
  · intro hsplit
    obtain ⟨text, after, rfl, rfl, h⟩ := hsplit
    exact ⟨by simp, by simpa using h⟩

end Pattern

/-! ## Preference among alternatives -/

/-- The first of the alternatives that matches here at all has the kind and the length. -/
def Prefers (alternatives : List (α × Pattern)) (before rest : List Char) (kind : α)
    (n : Nat) : Prop :=
  ∃ earlier r later, alternatives = earlier ++ (kind, r) :: later ∧ r.MatchesHere before rest n ∧
    ∀ a ∈ earlier, ∀ m, ¬ a.2.MatchesHere before rest m

/-- None of the alternatives matches here. -/
def NoMatch (alternatives : List (α × Pattern)) (before rest : List Char) : Prop :=
  ∀ a ∈ alternatives, ∀ n, ¬ a.2.MatchesHere before rest n

theorem not_prefers_nil {before rest : List Char} {kind : α} {n : Nat} :
    ¬ Prefers [] before rest kind n := by
  intro h
  obtain ⟨earlier, r, later, heq, -⟩ := h
  simp at heq

theorem prefers_cons_iff {first : α × Pattern} {others : List (α × Pattern)}
    {before rest : List Char} {kind : α} {n : Nat} :
    Prefers (first :: others) before rest kind n ↔
      first.1 = kind ∧ first.2.MatchesHere before rest n ∨
      (∀ m, ¬ first.2.MatchesHere before rest m) ∧ Prefers others before rest kind n := by
  constructor
  · intro h
    obtain ⟨earlier, r, later, heq, hmatch, hearlier⟩ := h
    cases earlier with
    | nil =>
        rw [List.nil_append] at heq
        cases heq
        exact Or.inl ⟨rfl, hmatch⟩
    | cons e es =>
        rw [List.cons_append] at heq
        cases heq
        refine Or.inr ⟨hearlier first (List.mem_cons_self ..), es, r, later, rfl, hmatch, ?_⟩
        intro a ha
        exact hearlier a (List.mem_cons_of_mem first ha)
  · intro h
    rcases h with ⟨rfl, hmatch⟩ | ⟨hfirst, earlier, r, later, rfl, hmatch, hearlier⟩
    · exact ⟨[], first.2, others, rfl, hmatch, by simp⟩
    · refine ⟨first :: earlier, r, later, rfl, hmatch, ?_⟩
      intro a ha
      rcases List.mem_cons.1 ha with rfl | ha
      · exact hfirst
      · exact hearlier a ha

/-- Where some alternative matches, one is preferred. -/
theorem noMatch_iff {alternatives : List (α × Pattern)} {before rest : List Char} :
    NoMatch alternatives before rest ↔ ∀ kind n, ¬ Prefers alternatives before rest kind n := by
  constructor
  · intro h kind n hp
    obtain ⟨earlier, r, later, rfl, hmatch, -⟩ := hp
    exact h (kind, r) (by simp) n hmatch
  · intro h
    induction alternatives with
    | nil => simp [NoMatch]
    | cons first others ih =>
        have hfirst : ∀ m, ¬ first.2.MatchesHere before rest m := fun m hm =>
          h first.1 m (prefers_cons_iff.2 (Or.inl ⟨rfl, hm⟩))
        have hothers := ih fun kind n hp => h kind n (prefers_cons_iff.2 (Or.inr ⟨hfirst, hp⟩))
        intro a ha
        rcases List.mem_cons.1 ha with rfl | ha
        · exact hfirst
        · exact hothers a ha

/-! ## The patterns of logical expressions -/

open Pattern in
/-- A name, blanks, and a list in parentheses up to the first closing one. -/
def callPattern : Pattern :=
  seq (one letterClass) <| seq (star (one wordClass)) <| seq (star (one Text.isBlank)) <|
    seq (one (· == '(')) <| seq (star (one (· != ')'))) (one (· == ')'))

open Pattern in
/-- A control keyword as a whole word. -/
def keywordPattern : Pattern :=
  seq boundary <| seq
    (alt (literal "if".toList) <| alt (literal "for".toList) <| alt (literal "while".toList) <|
      alt (literal "switch".toList) <| alt (literal "case".toList) (literal "catch".toList))
    boundary

/-- The alternatives of a logical expression, the preferred ones first. -/
def logicalAlternatives : List (Logical × Pattern) :=
  [(.call, callPattern),
    (.decision .conjunction, .literal "&&".toList),
    (.decision .disjunction, .literal "||".toList),
    (.decision .keyword, keywordPattern)]

end SourceGauge.Scan
