import SourceGauge.Text.Search

/-!
# Paths

A path is its spelled text. Its components are read off the text: repeated slashes and
inner dots disappear, and nothing is resolved, so `a/../b` has three components. Parents
and joins work on the text and keep the spelling of what they keep.
-/

namespace SourceGauge

structure Path where
  text : List Char
deriving DecidableEq, Repr, Inhabited

namespace Path

inductive Component where
  | root
  | current
  | parent
  | name (text : List Char)
deriving DecidableEq, Repr

def ofString (s : String) : Path := ⟨s.toList⟩

def here : Path := ⟨['.']⟩

def isAbsolute (p : Path) : Bool := p.text.head? == some '/'

/-- What stands before the pieces between slashes: the leading slash, an opening dot, or
nothing. -/
def opening (p : Path) : List Char :=
  match p.text with
  | '/' :: _ => ['/']
  | ['.'] => ['.']
  | '.' :: '/' :: _ => ['.']
  | _ => []

/-- The pieces between slashes behind the opening. Empty pieces and dots among them are
not components. -/
def pieces (p : Path) : List (List Char) :=
  Text.splitOn '/' (p.text.drop p.opening.length)

def isIdle (piece : List Char) : Bool := piece.isEmpty || piece == ['.']

def componentOf (piece : List Char) : Component :=
  if piece = ['.', '.'] then .parent else .name piece

def openingComponent (p : Path) : List Component :=
  match p.opening with
  | '/' :: _ => [.root]
  | '.' :: _ => [.current]
  | _ => []

def components (p : Path) : List Component :=
  p.openingComponent ++ (p.pieces.filter (!isIdle ·)).map componentOf

/-- The last component if it is a name. -/
def fileName? (p : Path) : Option (List Char) :=
  match p.components.getLast? with
  | some (.name text) => some text
  | _ => none

/-- The pieces in reverse order, without those at the end that are no component. -/
def dropIdle (reversed : List (List Char)) : List (List Char) := reversed.dropWhile isIdle

/-- The text before the last component, without the slashes and dots in between. The
leading slash and the empty path have no parent. -/
def parent? (p : Path) : Option Path :=
  match dropIdle p.pieces.reverse with
  | _ :: rest => some ⟨p.opening ++ List.intercalate ['/'] (dropIdle rest).reverse⟩
  | [] => if p.opening = ['.'] then some ⟨[]⟩ else none

/-- Appends a path with a slash between where one is missing. An absolute path replaces,
and behind the empty path nothing is put between. -/
def join (p q : Path) : Path :=
  if q.isAbsolute then q
  else
    match p.text.getLast? with
    | none => q
    | some '/' => ⟨p.text ++ q.text⟩
    | some _ => ⟨p.text ++ '/' :: q.text⟩

def ascendFuel : Nat → Path → List Path
  | 0, p => [p]
  | fuel + 1, p =>
      match p.parent? with
      | none => [p]
      | some q => p :: ascendFuel fuel q

/-- The path, its parent, the parent of that, and so on. Each parent has fewer
components, and the last has none. -/
def ascend (p : Path) : List Path := ascendFuel (p.components.length + 1) p

/-! ## Order -/

/-- A component as a list of numbers. The leading slash comes first, then dots, then two
dots, then names by their characters. -/
def Component.key : Component → List Nat
  | .root => [0]
  | .current => [1]
  | .parent => [2]
  | .name text => 3 :: text.map Char.toNat

def key (p : Path) : List (List Nat) := p.components.map Component.key

/-- Paths in order: component by component, a parent before what lies below it. -/
def le (p q : Path) : Bool :=
  (List.compareLex (List.compareLex compare) p.key q.key).isLE

def sort (ps : List Path) : List Path := ps.mergeSort le

/-! ## Display -/

/-- The path as reports show it: backslashes become slashes, and one leading `./` is
dropped. -/
def display (p : Path) : List Char :=
  let slashed := p.text.map fun c => if c = '\\' then '/' else c
  if ['.', '/'].isPrefixOf slashed then slashed.drop 2 else slashed

end Path

end SourceGauge
