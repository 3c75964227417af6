/-!
# Searching and splitting

Occurrences of one text inside another, and the lines of a text.
-/

namespace SourceGauge.Text

def occursIn (needle : List Char) : List Char → Bool
  | [] => needle.isEmpty
  | c :: cs => needle.isPrefixOf (c :: cs) || occursIn needle cs

/-- What stands before the first occurrence of `needle`, if it occurs. -/
def before? (needle : List Char) : List Char → Option (List Char)
  | [] => if needle.isEmpty then some [] else none
  | c :: cs =>
      if needle.isPrefixOf (c :: cs) then some []
      else (before? needle cs).map (c :: ·)

/-- The pieces between the characters equal to `separator`; there is one more
piece than there are separators. -/
def splitOn (separator : Char) : List Char → List (List Char)
  | [] => [[]]
  | c :: cs =>
      if c = separator then [] :: splitOn separator cs
      else
        match splitOn separator cs with
        | [] => [[c]]
        | piece :: pieces => (c :: piece) :: pieces

/-- The lines of a text. A final line feed opens one more, empty line. -/
def lines (s : List Char) : List (List Char) := splitOn '\n' s

/-- The texts in order with one line feed between neighbours. -/
def unlines (ls : List (List Char)) : List Char := List.intercalate ['\n'] ls

/-! ## Splitting and joining -/

theorem splitOn_ne_nil (separator : Char) (s : List Char) : splitOn separator s ≠ [] := by
  cases s with
  | nil => simp [splitOn]
  | cons c cs =>
      unfold splitOn
      split
      · simp
      · split <;> simp

@[simp] theorem splitOn_nil (separator : Char) : splitOn separator [] = [[]] := rfl

@[simp] theorem splitOn_cons_self (separator : Char) (s : List Char) :
    splitOn separator (separator :: s) = [] :: splitOn separator s := by
  simp [splitOn]

theorem splitOn_cons_of_ne {separator c : Char} (h : c ≠ separator) (s : List Char) :
    splitOn separator (c :: s) =
      (c :: (splitOn separator s).headD []) :: (splitOn separator s).tail := by
  cases hs : splitOn separator s with
  | nil => exact absurd hs (splitOn_ne_nil separator s)
  | cons piece pieces => simp [splitOn, h, hs]

theorem splitOn_append_cons (separator : Char) (s t : List Char) :
    splitOn separator (s ++ separator :: t) = splitOn separator s ++ splitOn separator t := by
  induction s with
  | nil => simp
  | cons c cs ih =>
      by_cases h : c = separator
      · subst h
        simp [ih]
      · rw [List.cons_append, splitOn_cons_of_ne h, splitOn_cons_of_ne h, ih]
        cases hs : splitOn separator cs with
        | nil => exact absurd hs (splitOn_ne_nil separator cs)
        | cons piece pieces => simp

theorem length_splitOn (separator : Char) (s : List Char) :
    (splitOn separator s).length = s.count separator + 1 := by
  induction s with
  | nil => simp
  | cons c cs ih =>
      by_cases h : c = separator
      · subst h
        simp [ih]
      · rw [splitOn_cons_of_ne h]
        cases hs : splitOn separator cs with
        | nil => exact absurd hs (splitOn_ne_nil separator cs)
        | cons piece pieces =>
            rw [hs] at ih
            simpa [h] using ih

/-- A text has one more line than it has line feeds. -/
theorem length_lines (s : List Char) : (lines s).length = s.count '\n' + 1 :=
  length_splitOn '\n' s

theorem not_mem_of_mem_splitOn {separator : Char} {s piece : List Char}
    (h : piece ∈ splitOn separator s) : separator ∉ piece := by
  induction s generalizing piece with
  | nil => simp_all
  | cons c cs ih =>
      by_cases hc : c = separator
      · subst hc
        rw [splitOn_cons_self] at h
        rcases List.mem_cons.1 h with rfl | h
        · simp
        · exact ih h
      · rw [splitOn_cons_of_ne hc] at h
        cases hs : splitOn separator cs with
        | nil => exact absurd hs (splitOn_ne_nil separator cs)
        | cons first rest =>
            rw [hs] at h ih
            rcases List.mem_cons.1 h with rfl | h
            · have := ih (List.mem_cons_self ..)
              simpa [Ne.symm hc] using this
            · exact ih (List.mem_cons_of_mem _ h)

end SourceGauge.Text
