import Mathlib.Data.List.TakeWhile
import SourceGauge.CommandLine.Reader

/-!
# Command lines without their output option

Taking the output file off a command line that can be read leaves a command line that can be read,
and its request is the same but for the output file. The reader holds a value back until the next
argument begins. Where the output option was that next argument, the shorter line is read a little
behind the longer one; the two are level again as soon as both take what they hold back.
-/

namespace SourceGauge.CommandLine

/-! ## The shorter line -/

/-- The arguments without those that name the output file. If `named`, the value of such an
argument comes next. -/
def dropOutput (named : Bool) : List (List Char) → List (List Char)
  | [] => []
  | text :: rest =>
      match text with
      | ['-', '-'] => text :: rest
      | '-' :: '-' :: long =>
          if Argument.ofLong? (long.takeWhile (· ≠ '=')) = some .outputFile then
            dropOutput (decide ('=' ∉ long)) rest
          else text :: dropOutput false rest
      | '-' :: c :: letters =>
          match (c :: letters).dropWhile (· ≠ 'O') with
          | [] => text :: dropOutput false rest
          | _ :: value =>
              let flags := (c :: letters).takeWhile (· ≠ 'O')
              (if flags.isEmpty then [] else ['-' :: flags]) ++ dropOutput value.isEmpty rest
      | _ => if named then dropOutput false rest else text :: dropOutput false rest

/-- The command line without its output option, whichever way it is spelled. -/
def withoutOutput (arguments : List (List Char)) : List (List Char) := dropOutput false arguments

/-- The request that prints what it finds. -/
def Request.printed (r : Request) : Request := { r with outputFile := none }

namespace State

variable {s s' u : State} {a : Argument}

/-! ## Steps without complaint -/

theorem andThen_eq_iff {step : Step} {next : State → Step} :
    andThen step next = (u, none) ↔ ∃ m, step = (m, none) ∧ next m = (u, none) := by
  obtain ⟨m, stop⟩ := step
  cases stop with
  | none => simp [andThen]
  | some stop => simp [andThen]

/-- The state with no trace of an output file. -/
def erased (s : State) : State :=
  { s with
    request := s.request.printed
    accepted := s.accepted.filter (· ≠ .outputFile) }

theorem mem_accepted_erased (ha : a ≠ .outputFile) : a ∈ s.erased.accepted ↔ a ∈ s.accepted := by
  simp [erased, ha]

theorem erased_accept (ha : a ≠ .outputFile) : s.erased.accept a = (s.accept a).erased := by
  unfold accept
  by_cases hmem : a ∈ s.accepted
  · rw [if_pos hmem, if_pos ((mem_accepted_erased ha).2 hmem)]
  · rw [if_neg hmem, if_neg (mt (mem_accepted_erased ha).1 hmem)]
    simp [erased, ha]

theorem takeOnce_eq_iff {take : State → Step} :
    s.takeOnce a take = (u, none) ↔ a ∉ s.accepted ∧ take (s.accept a) = (u, none) := by
  unfold takeOnce
  split <;> simp_all

/-- What is taken once in one state is taken once in another that has not taken it. -/
theorem takeOnce_transfer {w x : State} {take take' : State → Step}
    (h : s.takeOnce a take = (u, none)) (hmem : a ∈ w.accepted → a ∈ s.accepted)
    (htake : take (s.accept a) = (u, none) → take' (w.accept a) = (x, none)) :
    w.takeOnce a take' = (x, none) := by
  obtain ⟨hfresh, hu⟩ := takeOnce_eq_iff.1 h
  exact takeOnce_eq_iff.2 ⟨mt hmem hfresh, htake hu⟩

/-- Another argument than the output file is taken in the same way without its traces. -/
theorem erased_takeFlag {long : Bool} (ha : a ≠ .outputFile) (h : s.takeFlag a long = (u, none)) :
    s.erased.takeFlag a long = (u.erased, none) := by
  unfold takeFlag at h ⊢
  cases a with
  | gitignore | json | files | verbose =>
      refine takeOnce_transfer h (mem_accepted_erased ha).1 fun hu => ?_
      cases hu
      rw [erased_accept ha]
      rfl
  | help | version | root | ext | exclude | onReadError | outputFile => cases h

theorem erased_takeValue {value : List Char} (ha : a ≠ .outputFile)
    (h : s.takeValue a value = (u, none)) : s.erased.takeValue a value = (u.erased, none) := by
  unfold takeValue at h ⊢
  cases a with
  | outputFile => exact absurd rfl ha
  | ext | exclude =>
      cases h
      rw [erased_accept ha]
      rfl
  | root =>
      refine takeOnce_transfer h (mem_accepted_erased ha).1 fun hu => ?_
      split at hu
      · cases hu
      · rename_i hfilled
        cases hu
        rw [if_neg hfilled, erased_accept ha]
        rfl
  | onReadError =>
      refine takeOnce_transfer h (mem_accepted_erased ha).1 fun hu => ?_
      cases hpolicy : Settings.policyOf? value with
      | none =>
          simp only [hpolicy] at hu
          split at hu <;> cases hu
      | some policy =>
          simp only [hpolicy] at hu ⊢
          cases hu
          rw [erased_accept ha]
          rfl
  | gitignore | json | files | verbose | help | version => exact erased_takeFlag ha h

/-- The output file leaves no trace but its own. -/
theorem erased_of_takeOutput {value : List Char} (h : s.takeValue .outputFile value = (u, none)) :
    u.erased = s.erased := by
  unfold takeValue at h
  obtain ⟨hfresh, hu⟩ := takeOnce_eq_iff.1 h
  cases hu
  simp [erased, accept, hfresh, Request.printed]

/-! ## What taking an argument leaves alone -/

/-- The parts of a state that say how the next argument is read. -/
structure Place where
  pending : Option (Argument × Option (List Char))
  rootNamed : Bool
  optionsEnded : Bool

def place (s : State) : Place := ⟨s.pending, s.rootNamed, s.optionsEnded⟩

/-- The same arguments taken, at another place of the line. -/
def moved (s : State) (p : Place) : State :=
  { s with pending := p.pending, rootNamed := p.rootNamed, optionsEnded := p.optionsEnded }

@[simp] theorem place_moved (s : State) (p : Place) : (s.moved p).place = p := rfl

@[simp] theorem moved_place (s : State) : s.moved s.place = s := rfl

theorem moved_accept (p : Place) : (s.moved p).accept a = (s.accept a).moved p := by
  unfold accept
  by_cases hmem : a ∈ s.accepted
  · rw [if_pos hmem, if_pos (show a ∈ (s.moved p).accepted from hmem)]
  · rw [if_neg hmem, if_neg (show a ∉ (s.moved p).accepted from hmem)]
    rfl

/-- An argument is taken in the same way everywhere on the line. -/
theorem moved_takeFlag {long : Bool} (p : Place) (h : s.takeFlag a long = (u, none)) :
    (s.moved p).takeFlag a long = (u.moved p, none) := by
  unfold takeFlag at h ⊢
  cases a with
  | gitignore | json | files | verbose =>
      refine takeOnce_transfer h id fun hu => ?_
      cases hu
      rw [moved_accept]
      rfl
  | help | version | root | ext | exclude | onReadError | outputFile => cases h

theorem moved_takeValue {value : List Char} (p : Place) (h : s.takeValue a value = (u, none)) :
    (s.moved p).takeValue a value = (u.moved p, none) := by
  unfold takeValue at h ⊢
  cases a with
  | ext | exclude =>
      cases h
      rw [moved_accept]
      rfl
  | root =>
      refine takeOnce_transfer h id fun hu => ?_
      split at hu
      · cases hu
      · rename_i hfilled
        cases hu
        rw [if_neg hfilled, moved_accept]
        rfl
  | outputFile =>
      refine takeOnce_transfer h id fun hu => ?_
      cases hu
      rw [moved_accept]
      rfl
  | onReadError =>
      refine takeOnce_transfer h id fun hu => ?_
      cases hpolicy : Settings.policyOf? value with
      | none =>
          simp only [hpolicy] at hu
          split at hu <;> cases hu
      | some policy =>
          simp only [hpolicy] at hu ⊢
          cases hu
          rw [moved_accept]
          rfl
  | gitignore | json | files | verbose | help | version => exact moved_takeFlag p h

theorem place_takeFlag {long : Bool} (h : s.takeFlag a long = (u, none)) : u.place = s.place := by
  have hmoved := moved_takeFlag s.place h
  rw [moved_place, h] at hmoved
  have hu : u = u.moved s.place := congrArg Prod.fst hmoved
  rw [hu, place_moved]

theorem place_takeValue {value : List Char} (h : s.takeValue a value = (u, none)) :
    u.place = s.place := by
  have hmoved := moved_takeValue s.place h
  rw [moved_place, h] at hmoved
  have hu : u = u.moved s.place := congrArg Prod.fst hmoved
  rw [hu, place_moved]

/-- What is held back is taken if its value is there. -/
theorem settle_eq_iff :
    s.settle = (u, none) ↔ s.pending = none ∧ s = u ∨
      ∃ a value, s.pending = some (a, some value) ∧
        { s with pending := none }.takeValue a value = (u, none) := by
  unfold settle
  cases hpending : s.pending with
  | none => simp
  | some held =>
      obtain ⟨a, value⟩ := held
      cases value with
      | none => simp
      | some value => simp [and_assoc]

theorem place_settle (h : s.settle = (u, none)) :
    u.place = ⟨none, s.rootNamed, s.optionsEnded⟩ := by
  rcases settle_eq_iff.1 h with ⟨hpending, rfl⟩ | ⟨a, value, hpending, htake⟩
  · simp only [place, hpending]
  · exact place_takeValue htake

theorem pending_of_settle (h : s.settle = (u, none)) : u.pending = none :=
  congrArg Place.pending (place_settle h)

theorem settle_endOptions (h : s.settle = (u, none)) :
    { s with optionsEnded := true }.settle = ({ u with optionsEnded := true }, none) := by
  refine settle_eq_iff.2 ?_
  rcases settle_eq_iff.1 h with ⟨hpending, rfl⟩ | ⟨a, value, hpending, htake⟩
  · exact Or.inl ⟨hpending, rfl⟩
  · have hmoved := moved_takeValue ⟨none, s.rootNamed, true⟩ htake
    have hplace := place_takeValue htake
    simp only [place, Place.mk.injEq] at hplace
    refine Or.inr ⟨a, value, hpending, hmoved.trans ?_⟩
    simp only [moved, hplace]

/-! ## The two readings -/

/-- No output file is held back. -/
def Unnamed (s : State) : Prop := ∀ value, s.pending ≠ some (.outputFile, value)

/-- The shorter line is read up to the same argument. Either the states are level, or the longer
line has taken what the shorter one still holds back. -/
inductive Lags : State → State → Prop where
  | level {s : State} (h : s.Unnamed) : Lags s s.erased
  | behind {s s' : State}
      (h : s.pending = none ∨ ∃ value, s.pending = some (.outputFile, value))
      (hsettle : s'.settle = ({ s.erased with pending := none }, none)) : Lags s s'

theorem unnamed_of_pending_none (h : s.pending = none) : s.Unnamed := by
  intro value hvalue
  rw [h] at hvalue
  cases hvalue

/-- Once both take what they hold back, they are level. -/
theorem Lags.settle (hlags : Lags s s') (h : s.settle = (u, none)) :
    s'.settle = (u.erased, none) := by
  have hcases := settle_eq_iff.1 h
  cases hlags with
  | level hother =>
      refine settle_eq_iff.2 ?_
      rcases hcases with ⟨hpending, rfl⟩ | ⟨a, value, hpending, htake⟩
      · exact Or.inl ⟨hpending, rfl⟩
      · have ha : a ≠ .outputFile := by
          intro ha
          subst ha
          exact hother (some value) hpending
        exact Or.inr ⟨a, value, hpending, erased_takeValue ha htake⟩
  | behind hown hsettle =>
      rw [hsettle]
      rcases hcases with ⟨hpending, rfl⟩ | ⟨a, value, hpending, htake⟩
      · simp [erased, hpending]
      · rcases hown with hnone | ⟨other, hown⟩
        · rw [hnone] at hpending
          cases hpending
        · rw [hown] at hpending
          cases hpending
          rw [erased_of_takeOutput htake]
          rfl

/-- The shorter line has its root and its end of options where the longer one has them. -/
theorem Lags.place (hlags : Lags s s') :
    s'.rootNamed = s.rootNamed ∧ s'.optionsEnded = s.optionsEnded := by
  cases hlags with
  | level _ => exact ⟨rfl, rfl⟩
  | behind _ hsettle =>
      have hplace := place_settle hsettle
      simp only [State.place, Place.mk.injEq] at hplace
      exact ⟨hplace.2.1.symm, hplace.2.2.symm⟩

theorem Lags.endOptions (hlags : Lags s s') :
    Lags { s with optionsEnded := true } { s' with optionsEnded := true } := by
  cases hlags with
  | level hother => exact .level hother
  | behind hown hsettle => exact .behind hown (settle_endOptions hsettle)

/-! ## One argument -/

theorem Lags.flag {long : Bool} (hlags : Lags s s') (ha : a ≠ .outputFile)
    (h : andThen s.settle (fun s => s.takeFlag a long) = (u, none)) :
    andThen s'.settle (fun s => s.takeFlag a long) = (u.erased, none) ∧
      u.pending = none ∧ u.optionsEnded = s.optionsEnded := by
  obtain ⟨m, hm, hu⟩ := andThen_eq_iff.1 h
  have hplace := (place_takeFlag hu).trans (place_settle hm)
  exact ⟨andThen_eq_iff.2 ⟨m.erased, hlags.settle hm, erased_takeFlag ha hu⟩,
    congrArg Place.pending hplace, congrArg Place.optionsEnded hplace⟩

theorem Lags.name {attached : Option (List Char)} (hlags : Lags s s') (ha : a ≠ .outputFile)
    (h : s.nameArgument a attached = (u, none)) :
    s'.nameArgument a attached = (u.erased, none) ∧
      u.Unnamed ∧ u.optionsEnded = s.optionsEnded := by
  obtain ⟨m, hm, hu⟩ := andThen_eq_iff.1 h
  cases attached with
  | some value =>
      have hplace := (place_takeValue hu).trans (place_settle hm)
      exact ⟨andThen_eq_iff.2 ⟨m.erased, hlags.settle hm, erased_takeValue ha hu⟩,
        unnamed_of_pending_none (congrArg Place.pending hplace),
        congrArg Place.optionsEnded hplace⟩
  | none =>
      cases hu
      refine ⟨andThen_eq_iff.2 ⟨m.erased, hlags.settle hm, rfl⟩, fun value hvalue => ?_,
        congrArg Place.optionsEnded (place_settle hm)⟩
      cases hvalue
      exact ha rfl

/-- The longer line names the output file; the shorter one stays where it is. -/
theorem Lags.nameOutput {attached : Option (List Char)} (hlags : Lags s s')
    (h : s.nameArgument .outputFile attached = (u, none)) :
    Lags u s' ∧ (attached = none ↔ u.pending = some (.outputFile, none)) ∧
      u.optionsEnded = s.optionsEnded := by
  obtain ⟨m, hm, hu⟩ := andThen_eq_iff.1 h
  have hsettle := hlags.settle hm
  have hpending := pending_of_settle hm
  cases attached with
  | some value =>
      have hplace := (place_takeValue hu).trans (place_settle hm)
      have hnone : u.pending = none := congrArg Place.pending hplace
      refine ⟨.behind (Or.inl hnone) ?_, by simp [hnone], congrArg Place.optionsEnded hplace⟩
      rw [hsettle, erased_of_takeOutput hu]
      simp [erased, hpending]
  | none =>
      cases hu
      refine ⟨.behind (Or.inr ⟨none, rfl⟩) ?_, by simp,
        congrArg Place.optionsEnded (place_settle hm)⟩
      rw [hsettle]
      simp [erased, hpending]

theorem Lags.positional {text : List Char} (hlags : Lags s s')
    (h : s.readPositional text = (u, none)) :
    s'.readPositional text = (u.erased, none) ∧
      u.Unnamed ∧ u.optionsEnded = s.optionsEnded := by
  unfold readPositional at h ⊢
  rw [hlags.place.1]
  split at h
  · cases h
  · rename_i hroot
    obtain ⟨m, hm, hu⟩ := andThen_eq_iff.1 h
    cases hu
    rw [if_neg hroot]
    refine ⟨andThen_eq_iff.2 ⟨m.erased, hlags.settle hm, rfl⟩, fun value hvalue => ?_,
      congrArg Place.optionsEnded (place_settle hm)⟩
    cases hvalue

theorem readPlain_of_complete {text : List Char} (h : ∀ a, s.pending ≠ some (a, none)) :
    s.readPlain text = s.readPositional text := by
  unfold readPlain
  split
  · rename_i a hpending
    exact absurd hpending (h a)
  · rfl

theorem complete_of_settle (h : s.settle = (u, none)) (a : Argument) :
    s.pending ≠ some (a, none) := by
  intro hpending
  rcases settle_eq_iff.1 h with ⟨hnone, -⟩ | ⟨b, value, hsome, -⟩
  · rw [hnone] at hpending
    cases hpending
  · rw [hsome] at hpending
    cases hpending

theorem Lags.plain {text : List Char} (hlags : Lags s s')
    (hnamed : s.pending ≠ some (.outputFile, none)) (h : s.readPlain text = (u, none)) :
    s'.readPlain text = (u.erased, none) ∧ u.Unnamed ∧ u.optionsEnded = s.optionsEnded := by
  by_cases hvalue : ∃ a, s.pending = some (a, none)
  · obtain ⟨a, hpending⟩ := hvalue
    cases hlags with
    | level hother =>
        have hpending' : s.erased.pending = some (a, none) := hpending
        simp only [readPlain, hpending] at h
        simp only [readPlain, hpending']
        cases h
        refine ⟨rfl, fun value hvalue => ?_, rfl⟩
        cases hvalue
        exact hnamed hpending
    | behind hown _ =>
        rcases hown with hnone | ⟨value, hown⟩
        · rw [hnone] at hpending
          cases hpending
        · rw [hown] at hpending
          cases hpending
          exact absurd hown hnamed
  · have hcomplete : ∀ a, s.pending ≠ some (a, none) := fun a ha => hvalue ⟨a, ha⟩
    have hcomplete' : ∀ a, s'.pending ≠ some (a, none) := by
      cases hlags with
      | level _ => exact hcomplete
      | behind _ hsettle => exact complete_of_settle hsettle
    rw [readPlain_of_complete hcomplete] at h
    rw [readPlain_of_complete hcomplete']
    exact hlags.positional h

theorem Lags.long {text : List Char} (hlags : Lags s s')
    (hname : Argument.ofLong? (text.takeWhile (· ≠ '=')) ≠ some .outputFile)
    (h : s.readLong text = (u, none)) :
    s'.readLong text = (u.erased, none) ∧ u.Unnamed ∧ u.optionsEnded = s.optionsEnded := by
  unfold readLong at h ⊢
  cases ha : Argument.ofLong? (text.takeWhile (· ≠ '=')) with
  | none =>
      simp only [ha] at h
      cases h
  | some a =>
      have hother : a ≠ .outputFile := by
        intro heq
        rw [ha, heq] at hname
        exact hname rfl
      simp only [ha] at h ⊢
      split at h
      · rename_i hvalue
        rw [if_pos hvalue]
        exact hlags.name hother h
      · rename_i hvalue
        rw [if_neg hvalue]
        split at h
        · cases h
        · obtain ⟨hstep, hpending, hended⟩ := hlags.flag hother h
          exact ⟨hstep, unnamed_of_pending_none hpending, hended⟩

/-- The value of the output file is attached to its long name, or it comes next. -/
theorem readLong_output {text : List Char}
    (hname : Argument.ofLong? (text.takeWhile (· ≠ '=')) = some .outputFile) :
    ∃ attached, (attached = none ↔ '=' ∉ text) ∧
      s.readLong text = s.nameArgument .outputFile attached := by
  have hvalue : Argument.outputFile.takesValue = true := rfl
  unfold readLong
  simp only [hname, hvalue, if_true]
  by_cases heq : '=' ∈ text
  · rw [if_pos heq]
    exact ⟨_, by simp [heq], rfl⟩
  · rw [if_neg heq]
    exact ⟨none, by simp [heq], rfl⟩

theorem ofShort?_of_ne_output {c : Char} (hc : c ≠ 'O') (h : Argument.ofShort? c = some a) :
    a ≠ .outputFile ∧ a.takesValue = false := by
  unfold Argument.ofShort? at h
  rw [if_neg hc] at h
  split at h
  · cases h
    decide
  split at h
  · cases h
    decide
  split at h
  · cases h
    decide
  · cases h

/-- A letter other than that of the output file is a flag. -/
theorem readShort_cons_eq_iff {c : Char} (hc : c ≠ 'O') (letters : List Char) :
    s.readShort (c :: letters) = (u, none) ↔
      ∃ a, Argument.ofShort? c = some a ∧ a ≠ .outputFile ∧
        ∃ m, andThen s.settle (fun s => s.takeFlag a false) = (m, none) ∧
          m.readShort letters = (u, none) := by
  rw [readShort]
  cases ha : Argument.ofShort? c with
  | none => simp
  | some a =>
      obtain ⟨hother, hflag⟩ := ofShort?_of_ne_output hc ha
      simp only [hflag, Bool.false_eq_true, if_false, Option.some.injEq]
      cases hstep : andThen s.settle fun s => s.takeFlag a false with
      | mk m stop =>
          cases stop with
          | none => simp [hother, hstep]
          | some stop => simp [hstep]

theorem Lags.short {letters : List Char} (hlags : Lags s s') (hletters : 'O' ∉ letters)
    (hne : letters ≠ []) (h : s.readShort letters = (u, none)) :
    s'.readShort letters = (u.erased, none) ∧ u.Unnamed ∧ u.optionsEnded = s.optionsEnded := by
  induction letters generalizing s s' with
  | nil => exact absurd rfl hne
  | cons c rest ih =>
      obtain ⟨hc, hrest⟩ := not_or.1 (mt List.mem_cons.2 hletters)
      obtain ⟨a, ha, hother, m, hm, hu⟩ := (readShort_cons_eq_iff (Ne.symm hc) rest).1 h
      obtain ⟨hstep, hpending, hended⟩ := hlags.flag hother hm
      have hunnamed := unnamed_of_pending_none hpending
      rw [readShort_cons_eq_iff (Ne.symm hc)]
      cases rest with
      | nil =>
          cases hu
          exact ⟨⟨a, ha, hother, u.erased, hstep, rfl⟩, hunnamed, hended⟩
      | cons d ds =>
          obtain ⟨hread, hun, hend⟩ := ih (.level hunnamed) hrest (by simp) hu
          exact ⟨⟨a, ha, hother, m.erased, hstep, hread⟩, hun, hend.trans hended⟩

/-- Behind the letter of the output file stands its value, if it is attached. -/
theorem readShort_output (value : List Char) :
    ∃ attached, (attached = none ↔ value = []) ∧
      s.readShort ('O' :: value) = s.nameArgument .outputFile attached := by
  have hletter : Argument.ofShort? 'O' = some .outputFile := rfl
  have hvalue : Argument.outputFile.takesValue = true := rfl
  rw [readShort, hletter]
  simp only [hvalue, if_true]
  split
  · exact ⟨none, by simp, rfl⟩
  · rename_i rest
    exact ⟨some rest, by simp, rfl⟩
  · rename_i hne _
    exact ⟨some value, by simpa using hne, rfl⟩

/-- In a bundle that ends with the output file the shorter line keeps the letters before it. -/
theorem Lags.shortOutput {flags value : List Char} (hlags : Lags s s') (hflags : 'O' ∉ flags)
    (h : s.readShort (flags ++ 'O' :: value) = (u, none)) :
    ∃ m, s'.readShort flags = (m, none) ∧ Lags u m ∧
      (value = [] ↔ u.pending = some (.outputFile, none)) ∧ u.optionsEnded = s.optionsEnded := by
  induction flags generalizing s s' with
  | nil =>
      obtain ⟨attached, hattached, hread⟩ := readShort_output (s := s) value
      rw [List.nil_append, hread] at h
      rw [← hattached]
      exact ⟨s', rfl, hlags.nameOutput h⟩
  | cons c rest ih =>
      obtain ⟨hc, hrest⟩ := not_or.1 (mt List.mem_cons.2 hflags)
      rw [List.cons_append] at h
      obtain ⟨a, ha, hother, m, hm, hu⟩ := (readShort_cons_eq_iff (Ne.symm hc) _).1 h
      obtain ⟨hstep, hpending, hended⟩ := hlags.flag hother hm
      obtain ⟨x, hx, hlags', hnamed, hend⟩ :=
        ih (.level (unnamed_of_pending_none hpending)) hrest hu
      refine ⟨x, (readShort_cons_eq_iff (Ne.symm hc) rest).2 ⟨a, ha, hother, m.erased, hstep, hx⟩,
        hlags', hnamed, hend.trans hended⟩

/-! ## Whole lines -/

/-- The forms of an argument where options are still possible. -/
theorem text_cases (text : List Char) :
    text = ['-', '-'] ∨ (∃ c cs, text = '-' :: '-' :: c :: cs) ∨
      (∃ c cs, c ≠ '-' ∧ text = '-' :: c :: cs) ∨ ∀ c cs, text ≠ '-' :: c :: cs := by
  rcases text with _ | ⟨c, _ | ⟨d, cs⟩⟩
  · simp
  · simp
  · by_cases hc : c = '-'
    · subst hc
      by_cases hd : d = '-'
      · subst hd
        cases cs <;> simp
      · simp [hd]
    · simp [hc]

theorem read_ended (h : s.optionsEnded = true) (text : List Char) :
    s.read text = s.readPositional text := by
  unfold read
  rw [if_pos h]

theorem read_end (h : s.optionsEnded = false) :
    s.read ['-', '-'] = ({ s with optionsEnded := true }, none) := by
  simp [read, h]

theorem read_long (h : s.optionsEnded = false) (c : Char) (cs : List Char) :
    s.read ('-' :: '-' :: c :: cs) = s.readLong (c :: cs) := by
  simp [read, h]

theorem read_short (h : s.optionsEnded = false) {c : Char} (hc : c ≠ '-') (cs : List Char) :
    s.read ('-' :: c :: cs) = s.readShort (c :: cs) := by
  simp [read, h, hc]

theorem read_plain (h : s.optionsEnded = false) {text : List Char}
    (htext : ∀ c cs, text ≠ '-' :: c :: cs) : s.read text = s.readPlain text := by
  unfold read
  rw [if_neg (by simp [h])]
  split <;> simp_all

theorem readAll_cons_eq_iff {text : List Char} {rest : List (List Char)} :
    s.readAll (text :: rest) = (u, none) ↔
      ∃ m, s.read text = (m, none) ∧ m.readAll rest = (u, none) := by
  rw [readAll]
  cases hread : s.read text with
  | mk m stop =>
      cases stop with
      | none => simp
      | some stop => simp

/-- Behind the end of options both lines are the same. -/
theorem Lags.readAll_ended {arguments : List (List Char)} (hlags : Lags s s')
    (hended : s.optionsEnded = true) (h : s.readAll arguments = (u, none)) :
    s'.readAll arguments = (u.erased, none) := by
  induction arguments generalizing s s' with
  | nil => exact hlags.settle h
  | cons text rest ih =>
      obtain ⟨m, hm, hrest⟩ := readAll_cons_eq_iff.1 h
      rw [read_ended hended] at hm
      obtain ⟨hread, hunnamed, hend⟩ := hlags.positional hm
      rw [← read_ended (hlags.place.2.trans hended)] at hread
      exact readAll_cons_eq_iff.2
        ⟨m.erased, hread, ih (.level hunnamed) (hend.trans hended) hrest⟩

theorem named_iff_of_unnamed (h : s.Unnamed) :
    false = true ↔ s.pending = some (.outputFile, none) := by
  simp [h none]

theorem dropOutput_plain {text : List Char} (htext : ∀ c cs, text ≠ '-' :: c :: cs) (named : Bool)
    (rest : List (List Char)) :
    dropOutput named (text :: rest) =
      if named then dropOutput false rest else text :: dropOutput false rest := by
  rw [dropOutput]
  · exact htext '-' []
  · exact fun long => htext '-' long
  · exact htext

theorem dropOutput_long (named : Bool) (c : Char) (cs : List Char) (rest : List (List Char)) :
    dropOutput named (('-' :: '-' :: c :: cs) :: rest) =
      if Argument.ofLong? ((c :: cs).takeWhile (· ≠ '=')) = some .outputFile then
        dropOutput (decide ('=' ∉ c :: cs)) rest
      else ('-' :: '-' :: c :: cs) :: dropOutput false rest := by
  simp [dropOutput]

theorem dropOutput_flags (named : Bool) {c : Char} {cs : List Char} (hc : c ≠ '-')
    (hflags : 'O' ∉ c :: cs) (rest : List (List Char)) :
    dropOutput named (('-' :: c :: cs) :: rest) = ('-' :: c :: cs) :: dropOutput false rest := by
  have hdrop : (c :: cs).dropWhile (· ≠ 'O') = [] := by
    rw [List.dropWhile_eq_nil_iff]
    intro d hd
    simpa using fun heq : d = 'O' => hflags (heq ▸ hd)
  rw [dropOutput]
  · simp only [hdrop]
  · simp [hc]
  · simp [hc]

theorem dropOutput_bundle (named : Bool) {c : Char} {cs flags value : List Char} (hc : c ≠ '-')
    (hsplit : c :: cs = flags ++ 'O' :: value) (hflags : 'O' ∉ flags) (rest : List (List Char)) :
    dropOutput named (('-' :: c :: cs) :: rest) =
      (if flags.isEmpty then [] else ['-' :: flags]) ++ dropOutput value.isEmpty rest := by
  have hall : ∀ d ∈ flags, decide (d ≠ 'O') = true := by
    intro d hd
    simpa using fun heq : d = 'O' => hflags (heq ▸ hd)
  have hdrop : (c :: cs).dropWhile (· ≠ 'O') = 'O' :: value := by
    rw [hsplit, List.dropWhile_append_of_pos hall]
    rfl
  have htake : (c :: cs).takeWhile (· ≠ 'O') = flags := by
    rw [hsplit, List.takeWhile_append_of_pos hall]
    simp
  rw [dropOutput]
  · simp only [hdrop, htake]
  · simp [hc]
  · simp [hc]

/-- A line that can be read can be read without its output option. -/
theorem Lags.readAll {arguments : List (List Char)} {named : Bool} (hlags : Lags s s')
    (hnamed : named = true ↔ s.pending = some (.outputFile, none))
    (hopen : s.optionsEnded = false) (h : s.readAll arguments = (u, none)) :
    s'.readAll (dropOutput named arguments) = (u.erased, none) := by
  induction arguments generalizing s s' named with
  | nil => exact hlags.settle h
  | cons text rest ih =>
      obtain ⟨m, hm, hrest⟩ := readAll_cons_eq_iff.1 h
      have hopen' : s'.optionsEnded = false := hlags.place.2.trans hopen
      -- an argument that both lines have
      have hboth : s'.read text = (m.erased, none) ∧ m.Unnamed ∧
          m.optionsEnded = s.optionsEnded →
          s'.readAll (text :: dropOutput false rest) = (u.erased, none) := by
        intro hstep
        obtain ⟨hread, hunnamed, hend⟩ := hstep
        exact readAll_cons_eq_iff.2 ⟨m.erased, hread,
          ih (.level hunnamed) (named_iff_of_unnamed hunnamed) (hend.trans hopen) hrest⟩
      rcases text_cases text with rfl | ⟨c, cs, rfl⟩ | ⟨c, cs, hc, rfl⟩ | htext
      · rw [read_end hopen] at hm
        cases hm
        exact readAll_cons_eq_iff.2
          ⟨_, read_end hopen', hlags.endOptions.readAll_ended rfl hrest⟩
      · rw [read_long hopen] at hm
        rw [read_long hopen'] at hboth
        rw [dropOutput_long]
        by_cases hname : Argument.ofLong? ((c :: cs).takeWhile (· ≠ '=')) = some .outputFile
        · obtain ⟨attached, hattached, hread⟩ := readLong_output (s := s) hname
          rw [hread] at hm
          obtain ⟨hlags', hpending, hend⟩ := hlags.nameOutput hm
          rw [if_pos hname]
          refine ih hlags' ?_ (hend.trans hopen) hrest
          rw [decide_eq_true_iff, ← hattached, hpending]
        · rw [if_neg hname]
          exact hboth (hlags.long hname hm)
      · rw [read_short hopen hc] at hm
        rw [read_short hopen' hc] at hboth
        by_cases hletter : 'O' ∈ c :: cs
        · obtain ⟨flags, value, hsplit, hflags⟩ := List.eq_append_cons_of_mem hletter
          rw [hsplit] at hm
          obtain ⟨x, hx, hlags', hpending, hend⟩ := hlags.shortOutput hflags hm
          have hvalue : value.isEmpty = true ↔ m.pending = some (.outputFile, none) := by
            rw [List.isEmpty_iff, hpending]
          have htail := ih hlags' hvalue (hend.trans hopen) hrest
          rw [dropOutput_bundle named hc hsplit hflags]
          cases flags with
          | nil =>
              cases hx
              exact htail
          | cons d ds =>
              have hd : d = c := by
                rw [List.cons_append] at hsplit
                exact (List.cons.inj hsplit).1.symm
              subst hd
              rw [← read_short hopen' hc] at hx
              exact readAll_cons_eq_iff.2 ⟨x, hx, htail⟩
        · rw [dropOutput_flags named hc hletter]
          exact hboth (hlags.short hletter (by simp) hm)
      · rw [read_plain hopen htext] at hm
        rw [read_plain hopen' htext] at hboth
        rw [dropOutput_plain htext]
        cases named with
        | false =>
            have hother : s.pending ≠ some (.outputFile, none) := mt hnamed.2 (by simp)
            exact hboth (hlags.plain hother hm)
        | true =>
            have hpending := hnamed.1 rfl
            simp only [readPlain, hpending] at hm
            cases hm
            have hsettle : s'.settle = ({ s.erased with pending := none }, none) := by
              cases hlags with
              | level hother => exact absurd hpending (hother none)
              | behind _ hsettle => exact hsettle
            exact ih (s := { s with pending := some (.outputFile, some text) })
              (.behind (Or.inr ⟨some text, rfl⟩) hsettle) (by simp) hopen hrest

end State

/-- The command line without its output option asks for the same, and prints it. -/
theorem parse_withoutOutput {arguments : List (List Char)} {r : Request}
    (h : parse arguments = .ok r) : parse (withoutOutput arguments) = .ok r.printed := by
  unfold parse at h ⊢
  cases hread : State.start.readAll arguments with
  | mk u stop =>
      rw [hread] at h
      cases stop with
      | some stop => cases h
      | none =>
          cases h
          have hstart : State.Lags .start .start := .level (fun value => by simp [State.start])
          have hnamed : false = true ↔ State.start.pending = some (.outputFile, none) := by
            simp [State.start]
          rw [withoutOutput, hstart.readAll hnamed rfl hread]
          rfl

/-- The option may end a bundle; behind the end of options its name is a root. -/
example : withoutOutput (["-vO", "a.txt", "--json", "--", "-O"].map String.toList) =
    ["-v", "--json", "--", "-O"].map String.toList := by decide

end SourceGauge.CommandLine
