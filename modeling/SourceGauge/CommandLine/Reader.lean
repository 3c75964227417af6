import SourceGauge.CommandLine.Complaint

/-!
# Reading command lines

Arguments are taken from left to right. A value that stands alone is held back until the
next argument begins, so that the first thing wrong on the line is what is complained
about.
-/

namespace SourceGauge.CommandLine

inductive Stop where
  | help (long : Bool)
  | version
  | complaint (c : Complaint)
deriving DecidableEq, Repr

structure State where
  request : Request
  /-- The arguments taken so far, in the order of their first use. -/
  accepted : List Argument
  /-- An argument that is named but not yet taken, with its value if there is one. -/
  pending : Option (Argument × Option (List Char))
  rootNamed : Bool
  optionsEnded : Bool
deriving DecidableEq, Repr

namespace State

def start : State := ⟨.empty, [], none, false, false⟩

def accept (s : State) (a : Argument) : State :=
  if a ∈ s.accepted then s else { s with accepted := s.accepted ++ [a] }

abbrev Step := State × Option Stop

def takeOnce (s : State) (a : Argument) (take : State → Step) : Step :=
  if a ∈ s.accepted then
    ({ s with accepted := s.accepted.erase a }, some (.complaint (.repeated a)))
  else take (s.accept a)

def takeFlag (s : State) (a : Argument) (long : Bool) : Step :=
  let r := s.request
  match a with
  | .gitignore => s.takeOnce a fun s => ({ s with request := { r with gitignore := true } }, none)
  | .json => s.takeOnce a fun s => ({ s with request := { r with json := true } }, none)
  | .files => s.takeOnce a fun s => ({ s with request := { r with files := true } }, none)
  | .verbose => s.takeOnce a fun s => ({ s with request := { r with verbose := true } }, none)
  | .help => (s, some (.help long))
  | .version => (s, some .version)
  | .root | .ext | .exclude | .onReadError | .outputFile =>
      (s, some (.complaint (.missingValue a)))

def takeValue (s : State) (a : Argument) (value : List Char) : Step :=
  let r := s.request
  let lacking := some (Stop.complaint (.missingValue a))
  match a with
  | .ext =>
      ({ s.accept a with request := { r with extensions := r.extensions ++ [value] } }, none)
  | .exclude =>
      ({ s.accept a with request := { r with excludes := r.excludes ++ [value] } }, none)
  | .root =>
      s.takeOnce a fun s =>
        if value.isEmpty then (s, lacking)
        else ({ s with request := { r with root := some ⟨value⟩ } }, none)
  | .outputFile =>
      s.takeOnce a fun s => ({ s with request := { r with outputFile := some ⟨value⟩ } }, none)
  | .onReadError =>
      s.takeOnce a fun s =>
        match Settings.policyOf? value with
        | some policy => ({ s with request := { r with onReadError := some policy } }, none)
        | none =>
            (s, if value.isEmpty then lacking else some (.complaint (.invalidPolicy value)))
  | .gitignore | .json | .files | .verbose | .help | .version => s.takeFlag a true

def settle (s : State) : Step :=
  match s.pending with
  | none => (s, none)
  | some (a, some value) => ({ s with pending := none }.takeValue a value)
  | some (a, none) => ({ s with pending := none }, some (.complaint (.missingValue a)))

/-- Goes on with a state unless something is wrong already. -/
def andThen (step : Step) (next : State → Step) : Step :=
  match step with
  | (s, none) => next s
  | stopped => stopped

/-- Names an argument whose value, if it has one, comes next or is attached. -/
def nameArgument (s : State) (a : Argument) (attached : Option (List Char)) : Step :=
  andThen s.settle fun s =>
    match attached with
    | some value => s.takeValue a value
    | none => ({ s with pending := some (a, none) }, none)

def readLong (s : State) (text : List Char) : Step :=
  let name := text.takeWhile (· ≠ '=')
  let attached := if '=' ∈ text then some (text.drop (name.length + 1)) else none
  match Argument.ofLong? name with
  | none =>
      -- What may be wrong with the argument held back gives way to this complaint.
      let accepted := s.settle.1.accepted
      (s, some (.complaint (.unknownLong name accepted)))
  | some a =>
      if a.takesValue then s.nameArgument a attached
      else
        match attached with
        | some value => (s, some (.complaint (.unneededValue a value s.accepted)))
        | none => andThen s.settle fun s => s.takeFlag a true

/-- Reads the letters of a short option. The rest of the letters is the value of one that
takes a value. -/
def readShort (s : State) : List Char → Step
  | [] => (s, none)
  | c :: rest =>
      match Argument.ofShort? c with
      | none => (s, some (.complaint (.unknownShort c)))
      | some a =>
          if a.takesValue then
            match rest with
            | [] => s.nameArgument a none
            -- One equals sign before the value does not belong to it.
            | '=' :: value => s.nameArgument a (some value)
            | _ => s.nameArgument a (some rest)
          else
            match andThen s.settle fun s => s.takeFlag a false with
            | (s, none) => s.readShort rest
            | stopped => stopped

def readPositional (s : State) (text : List Char) : Step :=
  if s.rootNamed then (s, some (.complaint (.surplus text)))
  else
    andThen s.settle fun s =>
      ({ s with pending := some (.root, some text), rootNamed := true }, none)

/-- Reads an argument that is no option: the value of the option before it, or a positional
argument. -/
def readPlain (s : State) (text : List Char) : Step :=
  match s.pending with
  | some (a, none) => ({ s with pending := some (a, some text) }, none)
  | _ => s.readPositional text

def read (s : State) (text : List Char) : Step :=
  if s.optionsEnded then s.readPositional text
  else
    match text with
    | ['-', '-'] => ({ s with optionsEnded := true }, none)
    | '-' :: '-' :: long => s.readLong long
    | '-' :: c :: letters => s.readShort (c :: letters)
    | _ => s.readPlain text

/-- Reads arguments in order up to the first that stops. -/
def readAll (s : State) : List (List Char) → Step
  | [] => s.settle
  | text :: rest =>
      match s.read text with
      | (s, none) => s.readAll rest
      | stopped => stopped

end State

def parse (arguments : List (List Char)) : Except Stop Request :=
  match State.start.readAll arguments with
  | (s, none) => .ok s.request
  | (_, some stop) => .error stop

end SourceGauge.CommandLine
