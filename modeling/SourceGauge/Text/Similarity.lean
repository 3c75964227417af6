import SourceGauge.Binary64.Rounding

/-!
# Similarity of words

The Jaro similarity of two words, from zero to one: it counts the characters that the
words share at nearby places, and those of them that stand in another order.
-/

namespace SourceGauge.Text

/-- A word whose characters are marked once they are paired. -/
abbrev Marked := List (Char × Bool)

/-- Pairs a character with the first free equal one at a place between `low` and `high`;
`place` is the place of the first character. -/
def pairWith (c : Char) (low high place : Nat) : Marked → Option Marked
  | [] => none
  | (d, taken) :: rest =>
      if low ≤ place ∧ place < high ∧ d = c ∧ !taken then some ((d, true) :: rest)
      else (pairWith c low high (place + 1) rest).map ((d, taken) :: ·)

/-- Pairs the characters of the first word in order; gives those that found a partner, and
the marked second word. -/
def pairAll (range : Nat) : Nat → List Char → Marked → List Char × Marked
  | _, [], marked => ([], marked)
  | place, c :: rest, marked =>
      match pairWith c (place - range) (place + range + 1) 0 marked with
      | some marked =>
          let (paired, marked) := pairAll range (place + 1) rest marked
          (c :: paired, marked)
      | none => pairAll range (place + 1) rest marked

def similarity (a b : List Char) : Binary64 :=
  if a.isEmpty && b.isEmpty then .ofNat 1
  else
    let range := max a.length b.length / 2 - 1
    let (left, marked) := pairAll range 0 a (b.map (·, false))
    let right := (marked.filter Prod.snd).map Prod.fst
    let shared := left.length
    let swapped := ((left.zip right).filter fun p => p.1 != p.2).length / 2
    if shared = 0 then .zero false
    else
      let sum := ((Binary64.ratio shared a.length).add (.ratio shared b.length)).add
        (.ratio (shared - swapped) shared)
      sum.divNat 3

def similarityThreshold : Binary64 := .ofRatio false 7 10

/-- The known word most similar to a given one, if any is similar enough; of equals the
last. -/
def mostSimilar? (word : List Char) (known : List (List Char)) : Option (List Char) :=
  let better := fun (best : Option (List Char × Binary64)) (k : List Char) =>
    let s := similarity word k
    if !similarityThreshold.lt s then best
    else
      match best with
      | some (_, top) => if s.lt top then best else some (k, s)
      | none => some (k, s)
  (known.foldl better none).map Prod.fst

end SourceGauge.Text
