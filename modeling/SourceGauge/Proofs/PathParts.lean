import SourceGauge.Path
import SourceGauge.Proofs.Text
import Mathlib.Data.List.Infix

/-!
# Parts of paths

The components of a path behind a slash are those of the two sides. So joining a name appends one
component, taking the parent drops one, and going up along the parents leads through the
components' initial segments, down to the empty path.
-/

namespace SourceGauge.Path

/-- Pieces that are components. -/
def solidPieces (s : List Char) : List (List Char) :=
  (Text.splitOn '/' s).filter (!isIdle ·)

theorem solidPieces_append_slash (s rest : List Char) :
    solidPieces (s ++ '/' :: rest) = solidPieces s ++ solidPieces rest := by
  simp [solidPieces, Text.splitOn_append_cons]

@[simp] theorem solidPieces_nil : solidPieces [] = [] := rfl

/-! ## Openings -/

/-- The opening does not matter for the pieces: what it cuts off is idle. -/
theorem filter_pieces (p : Path) : p.pieces.filter (!isIdle ·) = solidPieces p.text := by
  unfold pieces opening solidPieces
  split
  · rename_i cs htext
    simp [htext, isIdle]
  · rename_i htext
    rw [htext]
    decide
  · rename_i cs htext
    have hdot : Text.splitOn '/' ('.' :: '/' :: cs) = ['.'] :: Text.splitOn '/' cs :=
      Text.splitOn_append_cons '/' ['.'] cs
    rw [htext, hdot]
    simp [isIdle]
  · simp

theorem components_eq (p : Path) :
    p.components = p.openingComponent ++ (solidPieces p.text).map componentOf := by
  rw [components, filter_pieces]

theorem opening_append_slash {s : List Char} (hs : s ≠ []) (rest : List Char) :
    opening ⟨s ++ '/' :: rest⟩ = opening ⟨s⟩ := by
  obtain ⟨c, cs, rfl⟩ := List.exists_cons_of_ne_nil hs
  cases cs with
  | nil =>
      by_cases hc : c = '/'
      · subst hc
        rfl
      by_cases hdot : c = '.'
      · subst hdot
        rfl
      · simp [opening, hc, hdot]
  | cons d ds =>
      by_cases hc : c = '/'
      · subst hc
        rfl
      by_cases hdot : c = '.'
      · subst hdot
        by_cases hd : d = '/'
        · subst hd
          rfl
        · simp [opening, hd]
      · simp [opening, hc, hdot]

/-- The components on both sides of a slash. -/
theorem components_append_slash {s : List Char} (hs : s ≠ []) (rest : List Char) :
    components ⟨s ++ '/' :: rest⟩ = components ⟨s⟩ ++ (solidPieces rest).map componentOf := by
  simp only [components_eq, openingComponent, opening_append_slash hs, solidPieces_append_slash,
    List.map_append, List.append_assoc]

theorem components_absolute (rest : List Char) :
    components ⟨'/' :: rest⟩ = .root :: (solidPieces rest).map componentOf := by
  have hopening : openingComponent ⟨'/' :: rest⟩ = [.root] := rfl
  have hpieces : solidPieces ('/' :: rest) = solidPieces rest := by
    simp [solidPieces, isIdle]
  rw [components_eq, hopening, hpieces]
  rfl

/-! ## Joining a name -/

section Join

variable {name : List Char}

theorem solidPieces_of_name (hfilled : name ≠ []) (hdot : name ≠ ['.']) (hslash : '/' ∉ name) :
    solidPieces name = [name] := by
  have hidle : isIdle name = false := by
    simp [isIdle, hfilled, hdot]
  simp [solidPieces, Text.splitOn_of_not_mem hslash, hidle]

theorem isAbsolute_of_name (hslash : '/' ∉ name) : isAbsolute ⟨name⟩ = false := by
  cases name with
  | nil => rfl
  | cons c cs =>
      rw [List.mem_cons, not_or] at hslash
      simpa [isAbsolute] using Ne.symm hslash.1

/-- A joined name follows a slash, which the path brings along or not. -/
theorem join_name_text {p : Path} (hp : p.text ≠ []) (hslash : '/' ∉ name) :
    ∃ s, (p.text = s ∨ p.text = s ++ ['/']) ∧ (p.join ⟨name⟩).text = s ++ '/' :: name := by
  unfold join
  rw [isAbsolute_of_name hslash]
  cases hlast : p.text.getLast? with
  | none => exact absurd (List.getLast?_eq_none_iff.1 hlast) hp
  | some c =>
      by_cases hc : c = '/'
      · subst hc
        obtain ⟨s, hs⟩ := List.getLast?_eq_some_iff.1 hlast
        exact ⟨s, Or.inr hs, by simp [hs]⟩
      · exact ⟨p.text, Or.inl rfl, by simp⟩

/-- The pieces of a joined path are those of the path with the name behind them. An empty piece
at the end of the path is gone. -/
theorem splitOn_join_name {p : Path} (hp : p.text ≠ []) (hslash : '/' ∉ name) :
    ∃ front tail, Text.splitOn '/' p.text = front ++ tail ∧ (tail = [] ∨ tail = [[]]) ∧
      Text.splitOn '/' (p.join ⟨name⟩).text = front ++ [name] := by
  obtain ⟨s, hs, hjoin⟩ := join_name_text hp hslash
  have hpieces : Text.splitOn '/' (p.join ⟨name⟩).text = Text.splitOn '/' s ++ [name] := by
    rw [hjoin, Text.splitOn_append_cons, Text.splitOn_of_not_mem hslash]
  rcases hs with hs | hs
  · exact ⟨Text.splitOn '/' s, [], by simp [hs], Or.inl rfl, hpieces⟩
  · refine ⟨Text.splitOn '/' s, [[]], ?_, Or.inr rfl, hpieces⟩
    rw [hs, Text.splitOn_append_cons, Text.splitOn_nil]

theorem components_join_name {p : Path} (hp : p.text ≠ []) (hfilled : name ≠ [])
    (hdot : name ≠ ['.']) (hdots : name ≠ ['.', '.']) (hslash : '/' ∉ name) :
    (p.join ⟨name⟩).components = p.components ++ [.name name] := by
  have hname : (solidPieces name).map componentOf = [.name name] := by
    rw [solidPieces_of_name hfilled hdot hslash, List.map_singleton, componentOf, if_neg hdots]
  obtain ⟨s, hs, htext⟩ := join_name_text hp hslash
  have hjoin : p.join ⟨name⟩ = ⟨s ++ '/' :: name⟩ := congrArg Path.mk htext
  rw [hjoin]
  rcases hs with hs | hs
  · rw [hs] at hp
    have hpath : p = ⟨s⟩ := congrArg Path.mk hs
    rw [hpath, components_append_slash hp, hname]
  · have hpath : p = ⟨s ++ '/' :: []⟩ := congrArg Path.mk hs
    rw [hpath]
    by_cases hempty : s = []
    · subst hempty
      rw [List.nil_append, List.nil_append, components_absolute, components_absolute, hname,
        solidPieces_nil]
      rfl
    · rw [components_append_slash hempty, components_append_slash hempty, hname,
        solidPieces_nil, List.map_nil, List.append_nil]

theorem join_name_text_ne_nil (p : Path) (hfilled : name ≠ []) (hslash : '/' ∉ name) :
    (p.join ⟨name⟩).text ≠ [] := by
  by_cases hp : p.text = []
  · simp [join, isAbsolute_of_name hslash, hp, hfilled]
  · obtain ⟨s, -, htext⟩ := join_name_text hp hslash
    simp [htext]

end Join

/-! ## Parents -/

theorem opening_of_relative {p : Path} (h : p.isAbsolute = false) :
    p.opening = [] ∨ p.text = ['.'] ∨ ∃ rest, p.text = '.' :: '/' :: rest := by
  unfold opening
  split
  · rename_i cs htext
    simp [isAbsolute, htext] at h
  · exact Or.inr (Or.inl ‹_›)
  · exact Or.inr (Or.inr ⟨_, ‹_›⟩)
  · exact Or.inl rfl

theorem root_not_mem_components {p : Path} (h : p.isAbsolute = false) :
    Component.root ∉ p.components := by
  rw [components, List.mem_append, not_or]
  constructor
  · rcases opening_of_relative h with hopening | htext | ⟨rest, htext⟩
    · simp [openingComponent, hopening]
    · simp [openingComponent, opening, htext]
    · simp [openingComponent, opening, htext]
  · rw [List.mem_map]
    rintro ⟨piece, -, hpiece⟩
    unfold componentOf at hpiece
    split at hpiece <;> cases hpiece

/-- The pieces of a path that has a component: one solid piece with idle ones behind it, and
before it the idle pieces that the parent leaves out. -/
theorem pieces_of_dropIdle {ps rest : List (List Char)} {piece : List Char}
    (h : dropIdle ps.reverse = piece :: rest) :
    ∃ tail, ps = (dropIdle rest).reverse ++ tail ∧ tail.filter (!isIdle ·) = [piece] := by
  have hps : ps.reverse = ps.reverse.takeWhile isIdle ++ piece :: rest := by
    rw [← h, dropIdle, List.takeWhile_append_dropWhile]
  have hrest : rest = rest.takeWhile isIdle ++ dropIdle rest := by
    rw [dropIdle, List.takeWhile_append_dropWhile]
  have hpiece : isIdle piece = false := by
    have hhead := List.head?_dropWhile_not isIdle ps.reverse
    rw [← dropIdle, h] at hhead
    simpa using hhead
  have hidle : ∀ qs : List (List Char), (qs.takeWhile isIdle).reverse.filter (!isIdle ·) = [] := by
    intro qs
    rw [List.filter_eq_nil_iff]
    intro x hx
    have := List.mem_takeWhile_imp (List.mem_reverse.1 hx)
    simp [this]
  refine ⟨(rest.takeWhile isIdle).reverse ++ piece :: (ps.reverse.takeWhile isIdle).reverse, ?_, ?_⟩
  · calc ps = ps.reverse.reverse := (List.reverse_reverse ps).symm
      _ = (ps.reverse.takeWhile isIdle ++
            piece :: (rest.takeWhile isIdle ++ dropIdle rest)).reverse := by
          rw [← hrest, ← hps]
      _ = _ := by simp
  · simp [hidle, hpiece]

theorem opening_append_drop (p : Path) : p.opening ++ p.text.drop p.opening.length = p.text := by
  unfold opening
  split <;> simp_all

theorem intercalate_pieces (p : Path) :
    p.opening ++ List.intercalate ['/'] p.pieces = p.text := by
  rw [pieces, Text.intercalate_splitOn, opening_append_drop]

/-- A path of one component behind its opening. -/
theorem cut_at_opening {p : Path} {piece : List Char} (hrel : p.isAbsolute = false)
    (hsolid : solidPieces p.text = [piece]) :
    (p.opening = [] ∧ ∃ c, p.components = [c]) ∨
      p.opening ≠ [] ∧ ∃ rest piece,
        p.text = p.opening ++ '/' :: rest ∧ solidPieces rest = [piece] := by
  rcases opening_of_relative hrel with hopening | hdot | ⟨rest, hdot⟩
  · refine Or.inl ⟨hopening, componentOf piece, ?_⟩
    simp [components_eq, openingComponent, hopening, hsolid]
  · rw [hdot] at hsolid
    cases hsolid
  · have hopening : p.opening = ['.'] := by
      simp [opening, hdot]
    have hrest : solidPieces p.text = solidPieces rest := by
      rw [hdot]
      exact solidPieces_append_slash ['.'] rest
    rw [hopening, hdot]
    exact Or.inr ⟨by simp, rest, piece, rfl, hrest ▸ hsolid⟩

/-- The parent of a relative path is the empty path, or what stands before a slash with one
component behind it. -/
theorem parent?_cases {p q : Path} (hrel : p.isAbsolute = false) (h : p.parent? = some q) :
    (q.text = [] ∧ ∃ c, p.components = [c]) ∨
      q.text ≠ [] ∧ ∃ rest piece, p.text = q.text ++ '/' :: rest ∧ solidPieces rest = [piece] := by
  unfold parent? at h
  split at h
  · rename_i piece rest hdrop
    obtain ⟨tail, hpieces, htail⟩ := pieces_of_dropIdle hdrop
    have htailne : tail ≠ [] := by
      rintro rfl
      cases htail
    have hq : q.text = p.opening ++ List.intercalate ['/'] (dropIdle rest).reverse := by
      cases h
      rfl
    by_cases hkept : (dropIdle rest).reverse = []
    · rw [hkept, List.nil_append] at hpieces
      rw [hkept, List.intercalate_nil, List.append_nil] at hq
      rw [hq]
      have hsolid : solidPieces p.text = [piece] := by
        rw [← filter_pieces, hpieces, htail]
      exact cut_at_opening hrel hsolid
    · have htext : p.text = q.text ++ '/' :: List.intercalate ['/'] tail := by
        have hwhole := intercalate_pieces p
        rw [hpieces, Text.intercalate_append '/' hkept htailne] at hwhole
        rw [← hwhole, hq, List.append_assoc]
      have hslash : ∀ s ∈ tail, '/' ∉ s := by
        intro s hs
        have hmem : s ∈ p.pieces := by
          rw [hpieces]
          exact List.mem_append_right _ hs
        exact Text.not_mem_of_mem_splitOn hmem
      refine Or.inr ⟨?_, _, piece, htext, ?_⟩
      · intro hempty
        rw [hempty] at htext
        simp [isAbsolute, htext] at hrel
      · rw [solidPieces, Text.splitOn_intercalate htailne hslash, htail]
  · rename_i hdrop
    split at h
    · rename_i hopening
      have hidle : p.pieces.filter (!isIdle ·) = [] := by
        rw [dropIdle, List.dropWhile_eq_nil_iff] at hdrop
        rw [List.filter_eq_nil_iff]
        intro s hs
        simp [hdrop s (List.mem_reverse.2 hs)]
      cases h
      refine Or.inl ⟨rfl, .current, ?_⟩
      simp [components, openingComponent, hopening, hidle]
    · cases h

theorem isIdle_of_no_parent {p : Path} (h : p.parent? = none) {piece : List Char}
    (hpiece : piece ∈ p.pieces) : isIdle piece = true := by
  unfold parent? at h
  split at h
  · cases h
  · rename_i hdrop
    rw [dropIdle, List.dropWhile_eq_nil_iff] at hdrop
    exact hdrop piece (List.mem_reverse.2 hpiece)

theorem text_of_no_parent {p : Path} (hrel : p.isAbsolute = false) (h : p.parent? = none) :
    p.text = [] := by
  unfold parent? at h
  split at h
  · cases h
  · rename_i hdrop
    split at h
    · cases h
    · rename_i hdot
      have hopening : p.opening = [] := by
        rcases opening_of_relative hrel with hopening | htext | ⟨rest, htext⟩
        · exact hopening
        · exact absurd (by simp [opening, htext]) hdot
        · exact absurd (by simp [opening, htext]) hdot
      cases htext : p.text with
      | nil => rfl
      | cons c cs =>
          -- a first piece that is empty or a dot would open the path
          have hc : c ≠ '/' := by
            rintro rfl
            simp [isAbsolute, htext] at hrel
          rw [dropIdle, List.dropWhile_eq_nil_iff] at hdrop
          have hfirst := hdrop (c :: (Text.splitOn '/' cs).headD []) (by
            simp [pieces, hopening, htext, Text.splitOn_cons_of_ne hc])
          simp only [isIdle, List.isEmpty_cons, Bool.false_or, beq_iff_eq, List.cons.injEq]
            at hfirst
          obtain ⟨rfl, hhead⟩ := hfirst
          cases cs with
          | nil => exact absurd (by simp [opening, htext]) hdot
          | cons d ds =>
              by_cases hd : d = '/'
              · subst hd
                exact absurd (by simp [opening, htext]) hdot
              · rw [Text.splitOn_cons_of_ne hd] at hhead
                cases hhead

theorem components_of_parent? {p q : Path} (hrel : p.isAbsolute = false)
    (h : p.parent? = some q) : ∃ c, p.components = q.components ++ [c] := by
  rcases parent?_cases hrel h with ⟨hq, c, hc⟩ | ⟨hq, rest, piece, htext, hpiece⟩
  · have hempty : q = ⟨[]⟩ := congrArg Path.mk hq
    refine ⟨c, ?_⟩
    rw [hc, hempty]
    rfl
  · have hp : p = ⟨q.text ++ '/' :: rest⟩ := congrArg Path.mk htext
    refine ⟨componentOf piece, ?_⟩
    rw [hp, components_append_slash hq, hpiece]
    rfl

theorem components_of_parent?_absolute {p q : Path} (habsolute : p.isAbsolute = true)
    (h : p.parent? = some q) : ∃ c, p.components = q.components ++ [c] := by
  obtain ⟨rest, htext⟩ : ∃ rest, p.text = '/' :: rest := by
    simpa [isAbsolute, List.head?_eq_some_iff] using habsolute
  have hopening : p.opening = ['/'] := by simp [opening, htext]
  unfold parent? at h
  rw [hopening] at h
  split at h
  · rename_i piece more hdrop
    obtain ⟨tail, hpieces, htail⟩ := pieces_of_dropIdle hdrop
    cases h
    have hkept : solidPieces (List.intercalate ['/'] (dropIdle more).reverse) =
        (dropIdle more).reverse.filter (!isIdle ·) := by
      by_cases hnil : (dropIdle more).reverse = []
      · rw [hnil]
        rfl
      · have hslash : ∀ s ∈ (dropIdle more).reverse, '/' ∉ s := by
          intro s hs
          have hmem : s ∈ p.pieces := by
            rw [hpieces]
            exact List.mem_append_left _ hs
          exact Text.not_mem_of_mem_splitOn hmem
        rw [solidPieces, Text.splitOn_intercalate hnil hslash]
    refine ⟨componentOf piece, ?_⟩
    rw [components, hpieces, List.filter_append, htail, List.cons_append, List.nil_append,
      components_absolute, hkept]
    simp [openingComponent, hopening]
  · cases h

theorem length_components_of_parent? {p q : Path} (h : p.parent? = some q) :
    p.components.length = q.components.length + 1 := by
  obtain ⟨c, hc⟩ : ∃ c, p.components = q.components ++ [c] := by
    cases habsolute : p.isAbsolute with
    | true => exact components_of_parent?_absolute habsolute h
    | false => exact components_of_parent? habsolute h
  rw [hc, List.length_append, List.length_singleton]

theorem isAbsolute_parent? {p q : Path} (hrel : p.isAbsolute = false) (h : p.parent? = some q) :
    q.isAbsolute = false := by
  rcases parent?_cases hrel h with ⟨hq, -⟩ | ⟨hq, rest, piece, htext, -⟩
  · simp [isAbsolute, hq]
  · obtain ⟨c, cs, hcs⟩ := List.exists_cons_of_ne_nil hq
    simpa [isAbsolute, htext, hcs] using hrel

/-! ## Going up -/

theorem reverse_inits_append_singleton {α : Type} (xs : List α) (x : α) :
    (xs ++ [x]).inits.reverse = (xs ++ [x]) :: xs.inits.reverse := by
  simp [List.inits_append]

theorem reverse_inits_eq_cons {α : Type} (xs : List α) :
    ∃ rest, xs.inits.reverse = xs :: rest := by
  cases xs using List.reverseRecOn with
  | nil => exact ⟨[], rfl⟩
  | append_singleton front last => exact ⟨_, reverse_inits_append_singleton front last⟩

theorem ascend_of_no_parent {p : Path} (h : p.parent? = none) : p.ascend = [p] := by
  rw [ascend, ascendFuel, h]

theorem ascend_of_parent? {p q : Path} (h : p.parent? = some q) : p.ascend = p :: q.ascend := by
  rw [ascend, ascendFuel, h, length_components_of_parent? h]
  rfl

/-- What holds of a path and goes over to parents holds all the way up. -/
theorem forall_ascend {P : Path → Prop} {p : Path} (hp : P p)
    (hstep : ∀ p q, P p → p.parent? = some q → P q) : ∀ q ∈ p.ascend, P q := by
  have hfuel : ∀ fuel p, P p → ∀ q ∈ ascendFuel fuel p, P q := by
    intro fuel
    induction fuel with
    | zero =>
        intro p hp q hq
        rw [ascendFuel, List.mem_singleton] at hq
        exact hq ▸ hp
    | succ fuel ih =>
        intro p hp q hq
        unfold ascendFuel at hq
        cases hparent : p.parent? with
        | none =>
            rw [hparent, List.mem_singleton] at hq
            exact hq ▸ hp
        | some up =>
            rw [hparent] at hq
            rcases List.mem_cons.1 hq with rfl | hq
            · exact hp
            · exact ih up (hstep p up hp hparent) q hq
  exact hfuel _ p hp

/-- Going up drops one component at a time, until none is left. -/
theorem map_components_ascend {p : Path} (hrel : p.isAbsolute = false) :
    p.ascend.map components = p.components.inits.reverse := by
  have hfuel : ∀ fuel p, p.isAbsolute = false → p.components.length ≤ fuel →
      (ascendFuel fuel p).map components = p.components.inits.reverse := by
    intro fuel
    induction fuel with
    | zero =>
        intro p _ hlength
        have hnil : p.components = [] := List.eq_nil_of_length_eq_zero (by omega)
        simp [ascendFuel, hnil]
    | succ fuel ih =>
        intro p hrel hlength
        unfold ascendFuel
        cases hparent : p.parent? with
        | none =>
            have hnil : p.components = [] := by
              have hpath : p = ⟨[]⟩ := congrArg Path.mk (text_of_no_parent hrel hparent)
              rw [hpath]
              rfl
            simp [hnil]
        | some q =>
            obtain ⟨c, hc⟩ := components_of_parent? hrel hparent
            rw [hc, List.length_append, List.length_singleton] at hlength
            have hup := ih q (isAbsolute_parent? hrel hparent) (by omega)
            rw [List.map_cons, hup, hc, reverse_inits_append_singleton]
  exact hfuel _ p hrel (Nat.le_succ _)

end SourceGauge.Path
