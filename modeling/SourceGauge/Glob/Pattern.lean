/-!
# Byte patterns

What a glob means: a set of byte strings, built from byte sets by sequence, choice and
repetition. Matching lists what may be left of a byte string once a pattern has taken its
share from the front.
-/

namespace SourceGauge.Glob

/-- A set of bytes: the union of closed ranges, or everything outside it. -/
structure ByteSet where
  negated : Bool
  ranges : List (Nat × Nat)
deriving DecidableEq, Repr

namespace ByteSet

def contains (s : ByteSet) (b : UInt8) : Bool :=
  (s.ranges.any fun r => r.1 ≤ b.toNat && b.toNat ≤ r.2) != s.negated

def all : ByteSet := ⟨true, []⟩

def single (b : UInt8) : ByteSet := ⟨false, [(b.toNat, b.toNat)]⟩

def slash : ByteSet := ⟨false, [(0x2F, 0x2F)]⟩

def noSlash : ByteSet := ⟨true, [(0x2F, 0x2F)]⟩

end ByteSet

/-- A set of byte strings. -/
inductive Pattern where
  | empty
  | one (set : ByteSet)
  | many (set : ByteSet)
  | seq (first second : Pattern)
  | alt (left right : Pattern)
deriving DecidableEq, Repr

namespace Pattern

/-- What is left when a run of bytes of the set is dropped from the front. -/
def dropRuns (set : ByteSet) : List UInt8 → List (List UInt8)
  | [] => [[]]
  | b :: rest => (b :: rest) :: (if set.contains b then dropRuns set rest else [])

/-- What may be left of a byte string behind a string of the pattern. -/
def rests : Pattern → List UInt8 → List (List UInt8)
  | empty, s => [s]
  | one _, [] => []
  | one set, b :: rest => if set.contains b then [rest] else []
  | many set, s => dropRuns set s
  | seq first second, s => ((rests first s).flatMap (rests second)).eraseDups
  | alt left right, s => (rests left s ++ rests right s).eraseDups

/-- Whether the whole byte string belongs to the pattern. -/
def accepts (p : Pattern) (s : List UInt8) : Bool := (p.rests s).any List.isEmpty

def ofBytes : List UInt8 → Pattern
  | [] => empty
  | [b] => one (.single b)
  | b :: rest => seq (one (.single b)) (ofBytes rest)

def sequence : List Pattern → Pattern
  | [] => empty
  | [p] => p
  | p :: rest => seq p (sequence rest)

/-- One of several patterns; of none, the empty string. -/
def choice : List Pattern → Pattern
  | [] => empty
  | [p] => p
  | p :: rest => alt p (choice rest)

end Pattern

end SourceGauge.Glob
