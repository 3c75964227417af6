/-!
# Texts

A text is the list of its characters. Blanks and their removal from the ends of a text,
decimal numerals, and texts as bytes.
-/

namespace SourceGauge.Text

def inRanges (ranges : List (Nat × Nat)) (n : Nat) : Bool :=
  ranges.any fun r => r.1 ≤ n && n ≤ r.2

/-- The code points of the Unicode property `White_Space`, in increasing order. -/
def blankRanges : List (Nat × Nat) :=
  [(0x09, 0x0D), (0x20, 0x20), (0x85, 0x85), (0xA0, 0xA0), (0x1680, 0x1680),
    (0x2000, 0x200A), (0x2028, 0x2029), (0x202F, 0x202F), (0x205F, 0x205F), (0x3000, 0x3000)]

def isBlank (c : Char) : Bool := inRanges blankRanges c.toNat

def byteOrderMark : Char := Char.ofNat 0xFEFF

def trimBy (p : Char → Bool) (s : List Char) : List Char :=
  ((s.dropWhile p).reverse.dropWhile p).reverse

def trim (s : List Char) : List Char := trimBy isBlank s

def trimRight (s : List Char) : List Char := (s.reverse.dropWhile isBlank).reverse

theorem dropWhile_of_head {p : Char → Bool} {s : List Char}
    (h : ∀ c, s.head? = some c → p c = false) : s.dropWhile p = s := by
  cases s with
  | nil => rfl
  | cons c cs =>
      have hc : p c = false := h c rfl
      simp [hc]

theorem trimBy_append {p : Char → Bool} (s : List Char) {right : List Char}
    (h : ∀ c ∈ right, p c = true) : trimBy p (s ++ right) = trimBy p s := by
  have hright : right.dropWhile p = [] := by
    rw [← List.append_nil right, List.dropWhile_append_of_pos h, List.dropWhile_nil]
  unfold trimBy
  rw [List.dropWhile_append]
  split
  · rename_i hs
    rw [List.isEmpty_iff.1 hs, hright]
  · rw [List.reverse_append, List.dropWhile_append_of_pos (by simpa using h)]

theorem trimBy_margins {p : Char → Bool} {left right : List Char} (s : List Char)
    (hl : ∀ c ∈ left, p c = true) (hr : ∀ c ∈ right, p c = true) :
    trimBy p (left ++ s ++ right) = trimBy p s := by
  rw [trimBy_append _ hr, trimBy, List.dropWhile_append_of_pos hl, trimBy]

/-- A character that is kept may be put before a text without a left margin. -/
theorem trimBy_cons {p : Char → Bool} {c : Char} {s : List Char} (hc : p c = false)
    (hs : ∀ d, s.head? = some d → p d = false) : trimBy p (c :: s) = c :: trimBy p s := by
  have hback : (s.reverse ++ [c]).dropWhile p = s.reverse.dropWhile p ++ [c] := by
    rw [List.dropWhile_append]
    split
    · rename_i hnone
      rw [List.isEmpty_iff.1 hnone]
      simp [hc]
    · rfl
  rw [trimBy, trimBy, dropWhile_of_head hs, List.dropWhile_cons_of_neg (by simp [hc]),
    List.reverse_cons, hback, List.reverse_append]
  rfl

/-! ## Decimal numerals -/

def decimal (n : Nat) : List Char := Nat.toDigits 10 n

/-- The numeral padded on the left with zeros to at least `width` digits. -/
def paddedDecimal (width n : Nat) : List Char :=
  List.replicate (width - (decimal n).length) '0' ++ decimal n

/-- The numeral of `n` units of the last of `places` decimal places. -/
def fixedPoint (places n : Nat) : List Char :=
  decimal (n / Nat.pow 10 places) ++ '.' :: paddedDecimal places (n % Nat.pow 10 places)

def digitValue (c : Char) : Nat := c.toNat - '0'.toNat

def digitsValue (s : List Char) : Nat := s.foldl (fun n c => 10 * n + digitValue c) 0

/-! ## UTF-8 -/

def encode (s : List Char) : List UInt8 := s.flatMap String.utf8EncodeChar

def decode? (bytes : List UInt8) : Option (List Char) :=
  (String.fromUTF8? ⟨bytes.toArray⟩).map String.toList

end SourceGauge.Text
