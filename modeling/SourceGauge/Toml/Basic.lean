/-!
# TOML tables

The data of a TOML document, and the rules by which headers and dotted keys build tables.
A table remembers how it came about, because that decides who may still extend it.
-/

namespace SourceGauge

inductive Toml.Origin where
  /-- Written between curly brackets; complete. -/
  | inline
  /-- Named by a header. -/
  | header
  /-- Passed through by a longer header. -/
  | implied
  /-- Passed through by a dotted key. -/
  | dotted
deriving DecidableEq, Repr

/-- A TOML value. Numbers and dates are only checked, so all of them are `other`. -/
inductive Toml where
  | text (value : List Char)
  | bool (value : Bool)
  | other
  | array (items : List Toml)
  /-- The tables of repeated double headers, latest first. -/
  | tables (items : List Toml)
  | table (origin : Toml.Origin) (entries : List (List Char × Toml))
deriving Repr, Inhabited

namespace Toml

abbrev Key := List (List Char)

def root : Toml := table .header []

/-- Changes the value under a name, or refuses to. A new name goes to the end. -/
def alter (name : List Char) (f : Option Toml → Option Toml) :
    List (List Char × Toml) → Option (List (List Char × Toml))
  | [] => (f none).map fun v => [(name, v)]
  | (first, v) :: rest =>
      if first = name then (f (some v)).map fun v => (name, v) :: rest
      else (alter name f rest).map ((first, v) :: ·)

def Origin.isOpen : Origin → Bool
  | implied | dotted => true
  | inline | header => false

/-- Changes the table that names lead to, making the tables on the way. Behind a repeated
double header lies its latest table. Values, complete tables and, for dotted keys, tables
of a header are not entered. -/
def within (viaKey : Bool) (f : Toml → Option Toml) : Key → Toml → Option Toml
  | [], t => f t
  | name :: path, table origin entries =>
      let enter := fun (found : Option Toml) =>
        match found with
        | none => within viaKey f path (table (if viaKey then .dotted else .implied) [])
        | some (table inner sub) =>
            if inner = .inline ∨ (viaKey ∧ !inner.isOpen) then none
            else within viaKey f path (table inner sub)
        | some (tables (latest :: earlier)) =>
            (within viaKey f path latest).map fun t => tables (t :: earlier)
        | some _ => none
      (alter name enter entries).map (table origin)
  | _ :: _, _ => none

def addNew (name : List Char) (value : Toml) : Toml → Option Toml
  | table origin entries =>
      let put := fun (found : Option Toml) => if found.isNone then some value else none
      (alter name put entries).map (table origin)
  | _ => none

/-- Adds a value under a key. A dotted key ends in a table made by dotted keys, a plain key
in any other. -/
def define (key : Key) (value : Toml) (t : Toml) : Option Toml :=
  match key.reverse with
  | [] => none
  | name :: path =>
      let put := fun (found : Toml) =>
        match found with
        | table origin _ =>
            if decide (origin = .dotted) != path.isEmpty then addNew name value found else none
        | _ => none
      within true put path.reverse t

/-- Opens the table of a header: a new one, or one that was only passed through. -/
def openTable (key : Key) (t : Toml) : Option Toml :=
  match key.reverse with
  | [] => none
  | name :: path =>
      let put := fun (found : Option Toml) =>
        match found with
        | none => some (table .header [])
        | some (table .implied entries) => some (table .header entries)
        | some _ => none
      let enter := fun (found : Toml) =>
        match found with
        | table origin entries => (alter name put entries).map (table origin)
        | _ => none
      within false enter path.reverse t

def openNext (key : Key) (t : Toml) : Option Toml :=
  match key.reverse with
  | [] => none
  | name :: path =>
      let put := fun (found : Option Toml) =>
        match found with
        | none => some (tables [table .header []])
        | some (tables items) => some (tables (table .header [] :: items))
        | some _ => none
      let enter := fun (found : Toml) =>
        match found with
        | table origin entries => (alter name put entries).map (table origin)
        | _ => none
      within false enter path.reverse t

end Toml

end SourceGauge
