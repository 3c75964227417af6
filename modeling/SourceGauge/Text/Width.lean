import SourceGauge.Text.WidthTable

/-!
# Display width

The number of columns a line takes on a character grid. Most characters take one, wide
ones two and combining marks none; a few sequences are drawn as one glyph and take less,
or more, than their parts. A blank belongs to no such sequence, so widths add up at
blanks.
-/

namespace SourceGauge.Text

def charWidth (c : Char) : Nat :=
  if c.toNat < 0x7F then 1
  else if inRanges zeroRanges c.toNat then 0
  else if inRanges wideRanges c.toNat then 2
  else 1

/-- Glues its neighbours to one glyph where a font has it. -/
def zeroWidthJoiner : Char := Char.ofNat 0x200D

/-- Asks for the picture form of the emoji before it. -/
def pictureSelector : Char := Char.ofNat 0xFE0F

def isToneModifier (c : Char) : Bool := inRanges [(0x1F3FB, 0x1F3FF)] c.toNat

/-- Whether a character is an emoji whose picture form is asked for by what follows. -/
def isSelected (c : Char) (rest : List Char) : Bool :=
  rest.head? == some pictureSelector && inRanges textEmojiRanges c.toNat

/-- A glyph in the making: the character that takes columns and was met last, whether it
is shown as a picture, and the marks without columns behind it, latest first. -/
structure Glyph where
  base : Char
  picture : Bool
  marks : List Char
deriving DecidableEq, Repr

namespace Glyph

/-- A blank. The start of a line counts as one. -/
def blank : Glyph := ⟨' ', false, []⟩

def isJoined (g : Glyph) : Bool := g.marks.head? == some zeroWidthJoiner

def hasMark (g : Glyph) (code : Nat) : Bool := g.marks.any (·.toNat == code)

def tifinaghRanges : List (Nat × Nat) := [(0x2D31, 0x2D65), (0x2D6F, 0x2D6F)]

/-- Pairs of a base and a character that are drawn as one letter when a joiner stands
between them. -/
def joinedPairs : List (Nat × Nat) := [(0x5D0, 0x5DC), (0x10C32, 0x10C03), (0x1A15, 0x1A10)]

def ligates (g : Glyph) (c : Char) : Bool :=
  let base := g.base.toNat
  let code := c.toNat
  (inRanges lamRanges base && inRanges alefRanges code && !g.isJoined) ||
  (inRanges [(0xA4F8, 0xA4FB)] base && inRanges [(0xA4FC, 0xA4FD)] code) ||
  (g.isJoined && joinedPairs.contains (base, code)) ||
  (g.hasMark 0x17D2 && inRanges [(0x1780, 0x17AF)] code) ||
  ((g.isJoined || g.hasMark 0x2D7F) && inRanges tifinaghRanges base &&
    inRanges tifinaghRanges code)

/-- Whether a character is drawn as part of the glyph: a tone modifier on its base, a
picture joined to a picture, or a letter of a ligature. -/
def absorbs (g : Glyph) (c : Char) (picture : Bool) : Bool :=
  (isToneModifier c && g.marks.isEmpty && inRanges modifierBaseRanges g.base.toNat) ||
  (picture && g.picture && g.isJoined) ||
  g.ligates c

end Glyph

def widthAfter (g : Glyph) : List Char → Nat
  | [] => 0
  | c :: cs =>
      let selected := isSelected c cs
      let picture := selected || inRanges pictureEmojiRanges c.toNat
      let columns := if selected then 2 else charWidth c
      if g.absorbs c picture then widthAfter { g with marks := [] } cs
      else if columns = 0 then widthAfter { g with marks := c :: g.marks } cs
      else columns + widthAfter ⟨c, picture, []⟩ cs

def width (line : List Char) : Nat := widthAfter .blank line

end SourceGauge.Text
