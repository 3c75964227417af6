import SourceGauge.Glob.Pattern
import SourceGauge.Text.Basic

/-!
# Units of globs

The units that a glob is made of, and the byte pattern that each of them stands for.
-/

namespace SourceGauge.Glob

structure Options where
  /-- Whether wildcards stop at slashes. -/
  slashStops : Bool
  /-- Whether a bracket that no other bracket closes stands for itself. -/
  looseBrackets : Bool
deriving DecidableEq, Repr

inductive Token where
  | literal (c : Char)
  | anyOne
  | anyMany
  /-- Two stars that open the glob. -/
  | leadingDirs
  /-- Two stars behind a slash that close the glob. -/
  | trailingDirs
  /-- Two stars between slashes. -/
  | innerDirs
  | oneOf (negated : Bool) (ranges : List (Char × Char))
  /-- Alternatives in curly brackets; those that are empty are left out. -/
  | group (alternatives : List Pattern)
deriving DecidableEq, Repr

/-! ## Meaning -/

/-- The bytes that a member of a set admits. A wildcard set takes one byte, so a character
of several bytes admits each of them, and a range joins the last byte of its low end to
the first byte of its high end. -/
def rangeBytes (range : Char × Char) : List (Nat × Nat) :=
  let bytes := fun (c : Char) => (String.utf8EncodeChar c).map UInt8.toNat
  let single := fun (n : Nat) => (n, n)
  if range.1 = range.2 then (bytes range.1).map single
  else
    let low := bytes range.1
    let high := bytes range.2
    low.dropLast.map single ++ (low.getLastD 0, high.headD 0) :: (high.drop 1).map single

def wildSet (o : Options) : ByteSet := if o.slashStops then .noSlash else .all

/-- The pattern of a token, unless it stands for nothing at all. -/
def Token.pattern? (o : Options) : Token → Option Pattern
  | literal c => some (.ofBytes (String.utf8EncodeChar c))
  | anyOne => some (.one (wildSet o))
  | anyMany => some (.many (wildSet o))
  | leadingDirs =>
      some (.alt (.alt .empty (.one .slash)) (.seq (.many .all) (.one .slash)))
  | trailingDirs => some (.seq (.one .slash) (.many .all))
  | innerDirs =>
      some (.alt (.one .slash) (.seq (.one .slash) (.seq (.many .all) (.one .slash))))
  | oneOf negated ranges => some (.one ⟨negated, ranges.flatMap rangeBytes⟩)
  | group [] => none
  | group alternatives => some (.choice alternatives)

def branchPattern? (o : Options) (tokens : List Token) : Option Pattern :=
  match tokens.filterMap (Token.pattern? o) with
  | [] => none
  | patterns => some (.sequence patterns)

/-- The pattern of a whole glob. Two stars alone match everything. -/
def patternOf (o : Options) (tokens : List Token) : Pattern :=
  if tokens = [.leadingDirs] then .many .all
  else (branchPattern? o tokens).getD .empty

def nameOptions : Options := ⟨false, false⟩

/-- Globs over paths, as ignore files use them. -/
def pathOptions : Options := ⟨true, true⟩

end SourceGauge.Glob
