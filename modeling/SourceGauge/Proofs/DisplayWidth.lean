import SourceGauge.Text.Width

/-!
# Widths of joined texts

The columns of a character hang on the glyph before it. Blanks and box characters are absorbed by
no glyph, so the width of a text that they cut is the sum of the widths of its parts.
-/

namespace SourceGauge.Text

/-- The codes that can be drawn as part of a glyph or as a picture. -/
def joiningRanges : List (List (Nat × Nat)) :=
  [textEmojiRanges, pictureEmojiRanges, alefRanges, [(0xA4FC, 0xA4FD)], [(0x1780, 0x17AF)],
    Glyph.tifinaghRanges]

/-- A character that takes one column, whatever stands before and behind it. -/
def standsAlone (c : Char) : Bool :=
  charWidth c == 1 && !isToneModifier c &&
    joiningRanges.all (fun ranges => !inRanges ranges c.toNat) &&
    Glyph.joinedPairs.all (fun pair => pair.2 != c.toNat)

section StandsAlone

variable {c : Char}

theorem charWidth_of_standsAlone (h : standsAlone c = true) : charWidth c = 1 := by
  simp only [standsAlone, Bool.and_eq_true, beq_iff_eq] at h
  exact h.1.1.1

theorem isToneModifier_of_standsAlone (h : standsAlone c = true) : isToneModifier c = false := by
  simp only [standsAlone, Bool.and_eq_true, Bool.not_eq_true'] at h
  exact h.1.1.2

theorem inRanges_of_standsAlone (h : standsAlone c = true) {ranges : List (Nat × Nat)}
    (hranges : ranges ∈ joiningRanges) : inRanges ranges c.toNat = false := by
  simp only [standsAlone, Bool.and_eq_true, List.all_eq_true, Bool.not_eq_true'] at h
  exact h.1.2 ranges hranges

theorem not_joined_of_standsAlone (h : standsAlone c = true) (base : Nat) :
    Glyph.joinedPairs.contains (base, c.toNat) = false := by
  simp only [standsAlone, Bool.and_eq_true, List.all_eq_true, bne_iff_ne] at h
  rw [List.contains_eq_mem, decide_eq_false_iff_not]
  exact fun hpair => h.2 (base, c.toNat) hpair rfl

theorem isSelected_of_standsAlone (h : standsAlone c = true) (rest : List Char) :
    isSelected c rest = false := by
  rw [isSelected, inRanges_of_standsAlone h (by simp [joiningRanges]), Bool.and_false]

theorem ligates_of_standsAlone (h : standsAlone c = true) (g : Glyph) : g.ligates c = false := by
  have halef : inRanges alefRanges c.toNat = false :=
    inRanges_of_standsAlone h (by simp [joiningRanges])
  have hlisu : inRanges [(0xA4FC, 0xA4FD)] c.toNat = false :=
    inRanges_of_standsAlone h (by simp [joiningRanges])
  have hkhmer : inRanges [(0x1780, 0x17AF)] c.toNat = false :=
    inRanges_of_standsAlone h (by simp [joiningRanges])
  have htifinagh : inRanges Glyph.tifinaghRanges c.toNat = false :=
    inRanges_of_standsAlone h (by simp [joiningRanges])
  simp only [Glyph.ligates, halef, hlisu, hkhmer, htifinagh, not_joined_of_standsAlone h,
    Bool.and_false, Bool.false_and, Bool.or_self]

theorem absorbs_of_standsAlone (h : standsAlone c = true) (g : Glyph) :
    g.absorbs c false = false := by
  rw [Glyph.absorbs, isToneModifier_of_standsAlone h, ligates_of_standsAlone h]
  rfl

theorem widthAfter_cons_of_standsAlone (h : standsAlone c = true) (g : Glyph)
    (rest : List Char) : widthAfter g (c :: rest) = 1 + widthAfter ⟨c, false, []⟩ rest := by
  have hpicture : inRanges pictureEmojiRanges c.toNat = false :=
    inRanges_of_standsAlone h (by simp [joiningRanges])
  simp only [widthAfter, isSelected_of_standsAlone h, hpicture, charWidth_of_standsAlone h,
    Bool.or_self, absorbs_of_standsAlone h]
  simp

theorem widthAfter_eq_length {s : List Char} (h : ∀ c ∈ s, standsAlone c = true) (g : Glyph) :
    widthAfter g s = s.length := by
  induction s generalizing g with
  | nil => rfl
  | cons c cs ih =>
      rw [widthAfter_cons_of_standsAlone (h c (List.mem_cons_self ..)),
        ih fun d hd => h d (List.mem_cons_of_mem c hd), List.length_cons, Nat.add_comm]

end StandsAlone

/-! ## Blanks -/

theorem standsAlone_blank : standsAlone ' ' = true := by decide +kernel

theorem widthAfter_blank_cons (g : Glyph) (rest : List Char) :
    widthAfter g (' ' :: rest) = 1 + width rest :=
  widthAfter_cons_of_standsAlone standsAlone_blank g rest

/-- A blank behind a text does not ask for the picture form of its last character. -/
theorem isSelected_append_blank (c : Char) (s rest : List Char) :
    isSelected c (s ++ ' ' :: rest) = isSelected c s := by
  cases s with
  | nil =>
      have hblank : (some ' ' == some pictureSelector) = false := by decide
      simp [isSelected, hblank]
  | cons d ds => rfl

/-- Widths add up at a blank. -/
theorem widthAfter_append_blank (g : Glyph) (s rest : List Char) :
    widthAfter g (s ++ ' ' :: rest) = widthAfter g s + (1 + width rest) := by
  -- The glyph in the making changes from character to character, and the blank ends any of them.
  induction s generalizing g with
  | nil => rw [List.nil_append, widthAfter_blank_cons, widthAfter, Nat.zero_add]
  | cons c cs ih =>
      simp only [List.cons_append, widthAfter, isSelected_append_blank, ih]
      generalize (if isSelected c cs then 2 else charWidth c) = columns
      split
      · rfl
      · split
        · rfl
        · rw [Nat.add_assoc]

/-- A picture with a skin tone is one glyph of two columns, also before a blank. -/
example : width [Char.ofNat 0x1F44D, Char.ofNat 0x1F3FD, ' ', 'x'] = 4 := by decide +kernel

theorem width_blanks_append (k : Nat) (s : List Char) :
    width (List.replicate k ' ' ++ s) = k + width s := by
  induction k with
  | zero => rw [List.replicate_zero, List.nil_append, Nat.zero_add]
  | succ k ih =>
      rw [List.replicate_succ, List.cons_append, width, widthAfter_blank_cons, ih]
      omega

theorem width_append_blanks (s : List Char) (k : Nat) :
    width (s ++ List.replicate k ' ') = width s + k := by
  cases k with
  | zero => rw [List.replicate_zero, List.append_nil, Nat.add_zero]
  | succ k =>
      have hblanks := width_blanks_append k []
      rw [List.append_nil] at hblanks
      rw [List.replicate_succ, width, widthAfter_append_blank, hblanks, width, width, widthAfter]
      omega

end SourceGauge.Text
