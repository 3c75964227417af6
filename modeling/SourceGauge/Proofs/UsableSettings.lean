import SourceGauge.Proofs.SettingsSearch

/-!
# The first usable settings

A search for settings tries the files of a row of directories, each the parent of the one before
as the path spells it, and takes the first that is of use. Files of no use have no part in it,
nor has any file behind the one that is taken. A file that is changed alters only those candidates
whose paths lead to it, under whatever names.
-/

namespace SourceGauge

namespace FileTree

/-! ## Edited files -/

/-- The second tree differs from the first by files that are added, removed or filled anew. -/
structure Edited (changed : List Location) (t t' : FileTree) : Prop where
  current : t'.current = t.current
  elsewhere : ∀ l, l ∉ changed → t'.node? l = t.node? l
  before : ∀ l ∈ changed, t.Fillable l
  after : ∀ l ∈ changed, t'.Fillable l

/-- A walk stopped at one of the locations, or at a file that stands in its way. -/
def Halt.StoppedAt (ls : List Location) : Halt → Prop
  | .arrived l => l ∈ ls
  | .missing directory name _ => directory ++ [name] ∈ ls
  | .failed cause => cause = .notDirectory
  | .link .. => False

section Edited

variable {t t' : FileTree} {changed : List Location}

theorem lookup_filter_not_mem (entries : List (Location × Node)) {l : Location}
    (hl : l ∉ changed) : (entries.filter (·.1 ∉ changed)).lookup l = entries.lookup l := by
  induction entries with
  | nil => rfl
  | cons e entries ih =>
      obtain ⟨k, n⟩ := e
      by_cases hk : k ∈ changed
      · have hne : (l == k) = false := beq_false_of_ne (by rintro rfl; exact hl hk)
        rw [List.filter_cons_of_neg (by simpa using hk), List.lookup_cons, hne, ih]
      · rw [List.filter_cons_of_pos (by simpa using hk), List.lookup_cons, List.lookup_cons, ih]

/-- Trees with the same entries apart from files. -/
theorem edited_of_entries (hcurrent : t'.current = t.current)
    (hentries : t'.entries.filter (·.1 ∉ changed) = t.entries.filter (·.1 ∉ changed))
    (hbefore : ∀ l ∈ changed, t.Fillable l) (hafter : ∀ l ∈ changed, t'.Fillable l) :
    Edited changed t t' := by
  refine ⟨hcurrent, fun l hl => ?_, hbefore, hafter⟩
  rw [node?, node?, ← lookup_filter_not_mem t.entries hl, ← lookup_filter_not_mem t'.entries hl,
    hentries]

theorem Edited.isDirectoryAt (h : Edited changed t t') (l : Location) :
    t'.isDirectoryAt l = t.isDirectoryAt l := by
  by_cases hl : l ∈ changed
  · rw [(h.before l hl).isDirectoryAt, (h.after l hl).isDirectoryAt]
  · rw [FileTree.isDirectoryAt, FileTree.isDirectoryAt, h.elsewhere l hl]

/-- A step to a location that holds nothing or a file ends the walk. -/
theorem Fillable.stoppedAt {directory : Location} {name : Name}
    (h : t.Fillable (directory ++ [name])) (hmem : directory ++ [name] ∈ changed)
    (rest : List Name) :
    Halt.StoppedAt changed
      (match t.node? (directory ++ [name]) with
      | none => .missing directory name rest
      | some (.link target) => .link directory target rest
      | some _ => t.advance (directory ++ [name]) rest) := by
  have hdir := h.isDirectoryAt
  rcases h.2 with hnone | ⟨bytes, hfile⟩
  · rw [hnone]
    exact hmem
  · rw [hfile]
    cases rest with
    | nil => exact hmem
    | cons next rest => simp [advance, hdir, Halt.StoppedAt]

/-- Walks in the two trees go the same way unless both stop at a changed file. -/
theorem Edited.advance (h : Edited changed t t') (l : Location) (pieces : List Name) :
    t'.advance l pieces = t.advance l pieces ∨
      (t.advance l pieces).StoppedAt changed ∧ (t'.advance l pieces).StoppedAt changed := by
  induction pieces generalizing l with
  | nil => exact Or.inl rfl
  | cons piece rest ih =>
      simp only [FileTree.advance, h.isDirectoryAt]
      split
      · exact Or.inl rfl
      split
      · exact ih l
      split
      · exact ih l.dropLast
      split
      · exact Or.inl rfl
      by_cases hmem : l ++ [piece] ∈ changed
      · exact Or.inr ⟨(h.before _ hmem).stoppedAt hmem rest, (h.after _ hmem).stoppedAt hmem rest⟩
      · rw [h.elsewhere _ hmem]
        cases t.node? (l ++ [piece]) with
        | none => exact Or.inl rfl
        | some n =>
            cases n with
            | directory => exact ih (l ++ [piece])
            | file bytes => exact ih (l ++ [piece])
            | link target => exact Or.inl rfl

theorem Halt.StoppedAt.ne_link {halt : Halt} (h : halt.StoppedAt changed)
    (directory : Location) (target : Path) (rest : List Name) :
    halt ≠ .link directory target rest := by
  rintro rfl
  exact h

theorem Edited.follow (h : Edited changed t t') (links : Nat) (l : Location)
    (pieces : List Name) :
    t'.follow links l pieces = t.follow links l pieces ∨
      (t.follow links l pieces).StoppedAt changed ∧
        (t'.follow links l pieces).StoppedAt changed := by
  induction links generalizing l pieces with
  | zero =>
      rcases h.advance l pieces with hsame | ⟨hstop, hstop'⟩
      · rw [FileTree.follow, FileTree.follow, hsame]
        exact Or.inl rfl
      · rw [follow_of_no_link hstop.ne_link, follow_of_no_link hstop'.ne_link]
        exact Or.inr ⟨hstop, hstop'⟩
  | succ links ih =>
      rcases h.advance l pieces with hsame | ⟨hstop, hstop'⟩
      · rw [FileTree.follow, FileTree.follow, hsame]
        cases t.advance l pieces with
        | link directory target rest => exact ih _ _
        | arrived m => exact Or.inl rfl
        | missing directory name rest => exact Or.inl rfl
        | failed cause => exact Or.inl rfl
      · rw [follow_of_no_link hstop.ne_link, follow_of_no_link hstop'.ne_link]
        exact Or.inr ⟨hstop, hstop'⟩

theorem Halt.StoppedAt.mem_of_arrived {halt : Halt} {l : Location}
    (h : halt.StoppedAt changed) (hl : halt = .arrived l) : l ∈ changed := by
  subst hl
  exact h

theorem Edited.locate (h : Edited changed t t') (p : Path) :
    t'.locate p = t.locate p ∨
      (∀ l, t.locate p = .ok l → l ∈ changed) ∧ ∀ l, t'.locate p = .ok l → l ∈ changed := by
  have hhalt : t'.halt p = t.halt p ∨
      (t.halt p).StoppedAt changed ∧ (t'.halt p).StoppedAt changed := by
    unfold halt
    rw [h.current]
    cases pathFault? p with
    | some cause => exact Or.inl rfl
    | none => exact h.follow maxLinks _ _
  rcases hhalt with hsame | ⟨hstop, hstop'⟩
  · exact Or.inl (by rw [FileTree.locate, FileTree.locate, hsame])
  · exact Or.inr ⟨fun l hl => hstop.mem_of_arrived (locate_eq_ok_iff.1 hl),
      fun l hl => hstop'.mem_of_arrived (locate_eq_ok_iff.1 hl)⟩

theorem Edited.isDirectory (h : Edited changed t t') (p : Path) :
    t'.isDirectory p = t.isDirectory p := by
  have hfalse : ∀ u : FileTree, (∀ l, u.locate p = .ok l → u.isDirectoryAt l = false) →
      u.isDirectory p = false := by
    intro u hu
    unfold FileTree.isDirectory
    cases hl : u.locate p with
    | error cause => rfl
    | ok l => exact hu l hl
  rcases h.locate p with hsame | ⟨hchanged, hchanged'⟩
  · simp only [FileTree.isDirectory, hsame, h.isDirectoryAt]
  · rw [hfalse t fun l hl => (h.before l (hchanged l hl)).isDirectoryAt,
      hfalse t' fun l hl => (h.after l (hchanged' l hl)).isDirectoryAt]

/-- A path under which another text is read leads to a changed file. -/
theorem Edited.leads_of_read (h : Edited changed t t') {p : Path}
    (hread : (t'.read p).toOption ≠ (t.read p).toOption) :
    ∃ l ∈ changed, t.locate p = .ok l ∨ t'.locate p = .ok l := by
  by_contra hnone
  have hfresh : ∀ l, t.locate p = .ok l ∨ t'.locate p = .ok l → l ∉ changed :=
    fun l hl hmem => hnone ⟨l, hmem, hl⟩
  apply hread
  unfold read
  rcases h.locate p with hsame | ⟨hchanged, hchanged'⟩
  · rw [hsame]
    cases hl : t.locate p with
    | error cause => rfl
    | ok l =>
        have hnode := h.elsewhere l (hfresh l (Or.inl hl))
        simp only [bind, Except.bind, bytesAt, hnode]
  · cases hl : t.locate p with
    | ok l => exact absurd (hchanged l hl) (hfresh l (Or.inl hl))
    | error cause =>
        cases hl' : t'.locate p with
        | ok l => exact absurd (hchanged' l hl') (hfresh l (Or.inr hl'))
        | error cause' => rfl

end Edited

/-! ## Below a file -/

section Below

variable {t : FileTree}

/-- A path that goes on behind another leads through a directory there. -/
theorem isDirectory_of_locate_join {p : Path} {name : Name} {m : Location} (hp : p.text ≠ [])
    (hslash : '/' ∉ name) (h : t.locate (p.join ⟨name⟩) = .ok m) : t.isDirectory p = true := by
  obtain ⟨hfault, hfollow⟩ := locate_eq_ok_iff_follow.1 h
  obtain ⟨hnul, -, hlength⟩ := pathFault?_eq_none_iff.1 hfault
  obtain ⟨s, hs, htext⟩ := Path.join_name_text hp hslash
  obtain ⟨front, tail, hpieces, htail, hjoin⟩ := Path.splitOn_join_name hp hslash
  have hfault' : pathFault? p = none := by
    rw [htext, Text.length_encode_append, Text.length_encode_slash] at hlength
    rw [htext] at hnul
    refine pathFault?_eq_none_iff.2 ?_
    rcases hs with hs | hs
    · rw [hs] at hp ⊢
      exact ⟨fun c hc => hnul c (List.mem_append_left _ hc), hp, by omega⟩
    · have hnil : (Text.encode []).length = 0 := rfl
      rw [hs, Text.length_encode_append, Text.length_encode_slash]
      refine ⟨fun c hc => hnul c ?_, by simp, by omega⟩
      rcases List.mem_append.1 hc with hc | hc
      · exact List.mem_append_left _ hc
      · simp_all
  rw [hjoin, startOf_join_name hp hslash] at hfollow
  obtain ⟨x, left, -, hmore⟩ := follow_split hfollow
  rw [hmore] at hfollow
  have hdir := isDirectoryAt_of_follow hfollow
  have hlocate : t.locate p = .ok x := by
    refine locate_eq_ok_iff_follow.2 ⟨hfault', ?_⟩
    rw [hpieces, hmore]
    rcases htail with rfl | rfl
    · exact follow_nil left x
    · rw [follow]
      simp [advance, hdir, Path.isIdle]
  simp [isDirectory, hlocate, hdir]

theorem advance_idle {l : Location} (hdir : t.isDirectoryAt l = true) {pieces : List Name}
    (h : ∀ piece ∈ pieces, Path.isIdle piece = true) : t.advance l pieces = .arrived l := by
  induction pieces with
  | nil => rfl
  | cons piece rest ih =>
      have hpiece := h piece (List.mem_cons_self ..)
      have hrest := ih fun other hother => h other (List.mem_cons_of_mem _ hother)
      simp [advance, hdir, hpiece, hrest]

/-- Only the top and the empty path have no parent, and neither is a file. -/
theorem exists_parent?_of_isFile {p : Path} (h : t.isFile p = true) :
    ∃ q, p.parent? = some q := by
  cases hparent : p.parent? with
  | some q => exact ⟨q, rfl⟩
  | none =>
      exfalso
      unfold isFile at h
      cases hlocate : t.locate p with
      | error cause => simp [hlocate] at h
      | ok l =>
          obtain ⟨hfault, hfollow⟩ := locate_eq_ok_iff_follow.1 hlocate
          cases habsolute : p.isAbsolute with
          | false =>
              exact (pathFault?_eq_none_iff.1 hfault).2.1 (Path.text_of_no_parent habsolute hparent)
          | true =>
              obtain ⟨rest, htext⟩ : ∃ rest, p.text = '/' :: rest := by
                simpa [Path.isAbsolute, List.head?_eq_some_iff] using habsolute
              have hidle : ∀ piece ∈ Text.splitOn '/' p.text, Path.isIdle piece = true := by
                rw [htext, Text.splitOn_cons_self, List.forall_mem_cons]
                refine ⟨rfl, fun piece hpiece => Path.isIdle_of_no_parent hparent ?_⟩
                simpa [Path.pieces, Path.opening, htext] using hpiece
              have hadvance := advance_idle (t := t) (l := []) rfl hidle
              rw [startOf, habsolute, if_pos rfl, follow_of_no_link (by simp [hadvance]),
                hadvance] at hfollow
              cases hfollow
              simp [hlocate, isDirectoryAt] at h

end Below

end FileTree

namespace Settings

/-! ## Usable candidates -/

/-- What a manifest says: nothing if it does not fit, or else its settings, unless they are absent
or null. -/
def manifest? (content : List Char) : Option (Option Section) :=
  match Json.parse? content with
  | some (.object members) =>
      if members.all fun m => m.1.isSome then
        setting? (section? isNull) (membersNamed [sectionName] members)
      else none
  | some (.array [value]) => setting? (section? isNull) [value]
  | _ => none

/-- The text of a file of the given format holds settings. -/
def Format.Decodes : Format → List Char → Section → Prop
  | .toml, content, s => ofTomlText? content = some s
  | .manifest, content, s => manifest? content = some (some s)

/-- The file of a candidate can be read as text, and the text holds settings. -/
def Candidate.Holds (t : FileTree) (c : Candidate) (s : Section) : Prop :=
  ∃ content, t.read c.path = .ok content ∧ c.format.Decodes content s

def Candidate.Usable (t : FileTree) (c : Candidate) : Prop := ∃ s, c.Holds t s

/-- The files to try in a row of directories. -/
def tried (directories : List Path) : List Candidate :=
  directories.flatMap fun d =>
    [⟨d.join (.ofString ".scriptmetrics.toml"), .toml⟩,
      ⟨d.join (.ofString "package.json"), .manifest⟩]

/-- The first usable candidate gives the settings; if there is none, no setting is given. -/
inductive Selects (t : FileTree) : List Candidate → Config → Prop where
  | found {before after : List Candidate} {c : Candidate} {s : Section}
      (hbefore : ∀ b ∈ before, ¬ b.Usable t) (hholds : c.Holds t s) :
      Selects t (before ++ c :: after) ⟨s, some c.path⟩
  | nothing {cs : List Candidate} (hnone : ∀ c ∈ cs, ¬ c.Usable t) : Selects t cs .default

variable {t t' : FileTree}

theorem setting?_eq_some_some_iff {α : Type} {decode : Json → Option α}
    (hnull : decode .null = none) {values : List Json} {a : α} :
    setting? decode values = some (some a) ↔ ∃ value, values = [value] ∧ decode value = some a := by
  cases values with
  | nil => simp [setting?]
  | cons value rest =>
      cases rest with
      | nil => cases value <;> simp [setting?, hnull]
      | cons next rest => simp [setting?]

/-- A manifest holds settings if it fits and they are not null. -/
theorem ofJsonText?_eq_some_iff {content : List Char} {s : Section} :
    ofJsonText? content = some s ↔ manifest? content = some (some s) := by
  have hnull : section? isNull .null = none := rfl
  unfold ofJsonText? manifest?
  cases Json.parse? content with
  | none => simp
  | some document =>
      cases document with
      | null => simp
      | bool value => simp
      | number literal => simp
      | string text => simp
      | array items =>
          cases items with
          | nil => simp
          | cons value rest =>
              cases rest with
              | nil => simp [setting?_eq_some_some_iff hnull]
              | cons next rest => simp
      | object members =>
          dsimp only
          by_cases hnamed : (members.all fun m => m.1.isSome) = true
          · rw [if_pos hnamed, if_pos hnamed, setting?_eq_some_some_iff hnull]
            cases membersNamed [sectionName] members with
            | nil => simp
            | cons value rest => cases rest <;> simp
          · rw [if_neg hnamed, if_neg hnamed]
            simp

theorem Candidate.holds_iff {c : Candidate} {s : Section} :
    c.Holds t s ↔ c.settings? t = some s := by
  have hdecodes : ∀ f content, Format.Decodes f content s ↔ Format.decode? f content = some s := by
    intro f content
    cases f with
    | toml => rfl
    | manifest => exact ofJsonText?_eq_some_iff.symm
  rw [Candidate.settings?_eq]
  unfold Candidate.Holds
  cases t.read c.path with
  | error cause => simp [Except.toOption]
  | ok content => simp [Except.toOption, hdecodes]

theorem Candidate.not_usable_iff {c : Candidate} : ¬ c.Usable t ↔ c.settings? t = none := by
  simp [Candidate.Usable, Candidate.holds_iff, Option.eq_none_iff_forall_ne_some]

/-! ## The row of directories -/

/-- Paths in a row, each the parent of the one before; the last has none. -/
inductive GoesUp : Path → List Path → Prop where
  | top {p : Path} (hparent : p.parent? = none) : GoesUp p [p]
  | up {p q : Path} {ps : List Path} (hparent : p.parent? = some q) (hrest : GoesUp q ps) :
      GoesUp p (p :: ps)

/-- Going up comes to an end, since each parent has one component less. -/
theorem goesUp_ascend (p : Path) : GoesUp p p.ascend := by
  induction hlength : p.components.length using Nat.strong_induction_on generalizing p with
  | _ n ih =>
      cases hparent : p.parent? with
      | none =>
          rw [Path.ascend_of_no_parent hparent]
          exact .top hparent
      | some q =>
          have hshorter := Path.length_components_of_parent? hparent
          rw [Path.ascend_of_parent? hparent]
          exact .up hparent (ih q.components.length (by omega) q rfl)

theorem GoesUp.eq_ascend {p : Path} {ps : List Path} (h : GoesUp p ps) : ps = p.ascend := by
  induction h with
  | top hparent => exact (Path.ascend_of_no_parent hparent).symm
  | up hparent hrest ih => rw [ih, Path.ascend_of_parent? hparent]

theorem searchStart_cases (t : FileTree) (p : Path) :
    t.isFile p = true ∧ p.parent? = some (searchStart t p) ∨
      t.isFile p = false ∧ searchStart t p = p := by
  cases hfile : t.isFile p with
  | false => exact Or.inr ⟨rfl, by simp [searchStart, hfile]⟩
  | true =>
      obtain ⟨q, hq⟩ := FileTree.exists_parent?_of_isFile hfile
      exact Or.inl ⟨rfl, by simp [searchStart, hfile, hq]⟩

/-! ## What is selected -/

/-- The configuration that a candidate stands for. -/
def Candidate.config? (t : FileTree) (c : Candidate) : Option Config :=
  (c.settings? t).map fun s => ⟨s, some c.path⟩

theorem load_eq (p : Path) :
    load t p = ((tried (searchStart t p).ascend).findSome? (Candidate.config? t)).getD .default :=
  rfl

theorem selects_findSome? (t : FileTree) (cs : List Candidate) :
    Selects t cs ((cs.findSome? (Candidate.config? t)).getD .default) := by
  cases hfound : cs.findSome? (Candidate.config? t) with
  | none =>
      refine .nothing fun c hc => Candidate.not_usable_iff.2 ?_
      simpa [Candidate.config?] using List.findSome?_eq_none_iff.1 hfound c hc
  | some config =>
      obtain ⟨before, c, after, rfl, hc, hbefore⟩ := List.findSome?_eq_some_iff.1 hfound
      obtain ⟨s, hs, rfl⟩ := Option.map_eq_some_iff.1 hc
      refine .found (fun b hb => Candidate.not_usable_iff.2 ?_) (Candidate.holds_iff.2 hs)
      simpa [Candidate.config?] using hbefore b hb

theorem Selects.file_eq_none_iff {cs : List Candidate} {config : Config}
    (h : Selects t cs config) : config.file = none ↔ ∀ c ∈ cs, ¬ c.Usable t := by
  cases h with
  | nothing hnone => simpa [Config.default] using hnone
  | @found before after c s hbefore hholds =>
      simp only [reduceCtorEq, false_iff]
      intro hnone
      exact hnone c (by simp) ⟨s, hholds⟩

/-! ## Changes that go unnoticed -/

/-- Another text is read, or none where there was one. -/
def Altered (t t' : FileTree) (c : Candidate) : Prop :=
  (t'.read c.path).toOption ≠ (t.read c.path).toOption

/-- Each altered candidate is of no use before and after, or stands behind a usable one. -/
def Unnoticed (t t' : FileTree) (cs : List Candidate) : Prop :=
  ∀ before c after, cs = before ++ c :: after → Altered t t' c →
    ¬ c.Usable t ∧ ¬ c.Usable t' ∨ ∃ earlier ∈ before, earlier.Usable t

theorem settings?_of_not_altered {c : Candidate} (h : ¬ Altered t t' c) :
    c.settings? t' = c.settings? t := by
  rw [Candidate.settings?_eq, Candidate.settings?_eq, not_not.1 h]

/-- Seen from the front: the first candidate is taken and stays as it is, or it is of no use and
the rest decides. -/
theorem unnoticed_cons_iff {c : Candidate} {cs : List Candidate} :
    Unnoticed t t' (c :: cs) ↔
      c.Usable t ∧ ¬ Altered t t' c ∨ ¬ c.Usable t ∧ ¬ c.Usable t' ∧ Unnoticed t t' cs := by
  constructor
  · intro h
    have hfirst : Altered t t' c → ¬ c.Usable t ∧ ¬ c.Usable t' := by
      intro haltered
      rcases h [] c cs rfl haltered with hno | ⟨earlier, hearlier, -⟩
      · exact hno
      · cases hearlier
    by_cases husable : c.Usable t
    · exact Or.inl ⟨husable, fun haltered => (hfirst haltered).1 husable⟩
    · refine Or.inr ⟨husable, ?_, fun before d after hsplit haltered => ?_⟩
      · by_cases haltered : Altered t t' c
        · exact (hfirst haltered).2
        · rw [Candidate.not_usable_iff] at husable ⊢
          rw [settings?_of_not_altered haltered, husable]
      · rcases h (c :: before) d after (by rw [hsplit, List.cons_append]) haltered with
          hno | ⟨earlier, hearlier, hearlier'⟩
        · exact Or.inl hno
        · rcases List.mem_cons.1 hearlier with rfl | hearlier
          · exact absurd hearlier' husable
          · exact Or.inr ⟨earlier, hearlier, hearlier'⟩
  · intro h before d after hsplit haltered
    cases before with
    | nil =>
        obtain ⟨rfl, -⟩ := List.cons.inj hsplit
        rcases h with ⟨-, hsame⟩ | ⟨hno, hno', -⟩
        · exact absurd haltered hsame
        · exact Or.inl ⟨hno, hno'⟩
    | cons first before =>
        obtain ⟨rfl, htail⟩ := List.cons.inj hsplit
        rcases h with ⟨husable, -⟩ | ⟨-, -, hrest⟩
        · exact Or.inr ⟨c, List.mem_cons_self .., husable⟩
        · refine (hrest before d after htail haltered).imp_right ?_
          rintro ⟨earlier, hearlier, husable⟩
          exact ⟨earlier, List.mem_cons_of_mem _ hearlier, husable⟩

theorem Unnoticed.findSome? {cs : List Candidate} (h : Unnoticed t t' cs) :
    cs.findSome? (Candidate.config? t') = cs.findSome? (Candidate.config? t) := by
  induction cs with
  | nil => rfl
  | cons c cs ih =>
      rw [List.findSome?_cons, List.findSome?_cons, Candidate.config?, Candidate.config?]
      rcases unnoticed_cons_iff.1 h with ⟨⟨s, hs⟩, hsame⟩ | ⟨hno, hno', hrest⟩
      · rw [settings?_of_not_altered hsame, Candidate.holds_iff.1 hs]
        rfl
      · rw [Candidate.not_usable_iff.1 hno, Candidate.not_usable_iff.1 hno']
        exact ih hrest

instance (t : FileTree) (c : Candidate) : Decidable (c.Usable t) :=
  decidable_of_iff (c.settings? t ≠ none) (by rw [ne_eq, ← Candidate.not_usable_iff, not_not])

instance (t t' : FileTree) (c : Candidate) : Decidable (Altered t t' c) :=
  inferInstanceAs (Decidable (_ ≠ _))

instance decidableUnnoticed (t t' : FileTree) : ∀ cs, Decidable (Unnoticed t t' cs)
  | [] => isTrue (by intro before c after hsplit; simp at hsplit)
  | _ :: cs =>
      have := decidableUnnoticed t t' cs
      decidable_of_iff _ unnoticed_cons_iff.symm

/-! ## Starts that are files -/

/-- Below a path that leads to no directory there is nothing to be read. -/
theorem not_usable_below {p : Path} (hp : p.text ≠ []) (h : t.isDirectory p = false) :
    ∀ c ∈ tried [p], ¬ c.Usable t := by
  rintro c hc ⟨s, content, hread, -⟩
  obtain ⟨f, hpath⟩ : ∃ f : Format, c.path = p.join ⟨f.fileName.text⟩ := by
    rcases List.mem_cons.1 hc with rfl | hc
    · exact ⟨.toml, rfl⟩
    · cases List.mem_singleton.1 hc
      exact ⟨.manifest, rfl⟩
  unfold FileTree.read at hread
  cases hlocate : t.locate c.path with
  | error cause =>
      rw [hlocate] at hread
      cases hread
  | ok m =>
      rw [hpath] at hlocate
      have hdir := FileTree.isDirectory_of_locate_join hp (validName_fileName f).noSlash hlocate
      rw [h] at hdir
      cases hdir

theorem not_directory_of_isFile {p : Path} (h : t.isFile p = true) :
    p.text ≠ [] ∧ t.isDirectory p = false := by
  unfold FileTree.isFile at h
  cases hlocate : t.locate p with
  | error cause =>
      rw [hlocate] at h
      cases h
  | ok l =>
      rw [hlocate] at h
      have hfault := (FileTree.locate_eq_ok_iff_follow.1 hlocate).1
      refine ⟨(FileTree.pathFault?_eq_none_iff.1 hfault).2.1, ?_⟩
      simpa [FileTree.isDirectory, hlocate] using h

theorem not_usable_below_file {p : Path} (h : t.isFile p = true) :
    ∀ c ∈ tried [p], ¬ c.Usable t :=
  not_usable_below (not_directory_of_isFile h).1 (not_directory_of_isFile h).2

theorem tried_cons (d : Path) (ds : List Path) : tried (d :: ds) = tried [d] ++ tried ds := by
  simp [tried]

/-- A search above a file finds what one that sets out at the file itself would find, unless there
is something to be found below the file. -/
theorem findSome?_from_start {p : Path}
    (hbelow : t.isFile p = true → ∀ c ∈ tried [p], ¬ c.Usable t') :
    (tried p.ascend).findSome? (Candidate.config? t') =
      (tried (searchStart t p).ascend).findSome? (Candidate.config? t') := by
  rcases searchStart_cases t p with ⟨hfile, hparent⟩ | ⟨-, hstart⟩
  · have hnone : (tried [p]).findSome? (Candidate.config? t') = none := by
      rw [List.findSome?_eq_none_iff]
      intro c hc
      rw [Candidate.config?, Candidate.not_usable_iff.1 (hbelow hfile c hc)]
      rfl
    rw [Path.ascend_of_parent? hparent, tried_cons, List.findSome?_append, hnone, Option.none_or]
  · rw [hstart]

theorem load_of_unnoticed {p : Path}
    (hbelow : t.isFile p = true → ∀ c ∈ tried [p], ¬ c.Usable t')
    (h : Unnoticed t t' (tried (searchStart t p).ascend)) : load t' p = load t p := by
  rw [load_eq, load_eq, ← findSome?_from_start not_usable_below_file, findSome?_from_start hbelow,
    h.findSome?]

/-- The settings come from the first usable file in a row of directories, each the parent of the
one before, and no setting is given if there is none. They stay as they are whatever happens to
files of no use and to files behind the one that is taken. Editing files alters only the
candidates that lead to them. -/
theorem load_is_first_usable (t : FileTree) (p : Path) :
    ∃ start ds,
      (t.isFile p = true ∧ p.parent? = some start ∨ t.isFile p = false ∧ start = p) ∧
      GoesUp start ds ∧ Selects t (tried ds) (load t p) ∧
      ((load t p).file = none ↔ ∀ c ∈ tried ds, ¬ c.Usable t) ∧
      (∀ t' : FileTree, (t.isFile p = true → ∀ c ∈ tried [p], ¬ c.Usable t') →
        Unnoticed t t' (tried ds) →
        load t' p = load t p ∧ (load t' p).resolvedRoot? = (load t p).resolvedRoot?) ∧
      ∀ changed t', FileTree.Edited changed t t' →
        (t.isFile p = true → ∀ c ∈ tried [p], ¬ c.Usable t') ∧
        ∀ c : Candidate, Altered t t' c →
          ∃ l ∈ changed, t.locate c.path = .ok l ∨ t'.locate c.path = .ok l := by
  have hselects : Selects t (tried (searchStart t p).ascend) (load t p) := selects_findSome? t _
  refine ⟨searchStart t p, (searchStart t p).ascend, searchStart_cases t p, goesUp_ascend _,
    hselects, hselects.file_eq_none_iff, fun t' hbelow hunnoticed => ?_,
    fun changed t' hedited => ⟨fun hfile => ?_, fun c haltered => hedited.leads_of_read haltered⟩⟩
  · have hload := load_of_unnoticed hbelow hunnoticed
    exact ⟨hload, congrArg Config.resolvedRoot? hload⟩
  · obtain ⟨hp, hnot⟩ := not_directory_of_isFile hfile
    exact not_usable_below hp ((hedited.isDirectory p).trans hnot)

/-- A manifest with a root directory. -/
def libManifest : List UInt8 :=
  Text.encode "\x7b\"scriptmetrics\": \x7b\"root_directory\": \"lib\"\x7d\x7d".toList

/-- A settings file that cannot be decoded, and settings in the manifest one directory up. -/
def brokenSettings : FileTree where
  entries :=
    [(["x".toList], .directory), (["x".toList, "y".toList], .directory),
      (["x".toList, "y".toList, ".scriptmetrics.toml".toList],
        .file (Text.encode "[scriptmetrics".toList)),
      (["x".toList, "package.json".toList], .file libManifest)]
  current := []

/-- The same without the broken file, but with a manifest that holds no settings, and with settings
further up. -/
def mendedSettings : FileTree where
  entries :=
    [(["x".toList], .directory), (["x".toList, "y".toList], .directory),
      (["x".toList, "y".toList, "package.json".toList],
        .file (Text.encode "\x7b\"scriptmetrics\": null\x7d".toList)),
      (["x".toList, "package.json".toList], .file libManifest),
      ([".scriptmetrics.toml".toList], .file [])]
  current := []

theorem mendedSettings_edited :
    FileTree.Edited
      [["x".toList, "y".toList, ".scriptmetrics.toml".toList],
        ["x".toList, "y".toList, "package.json".toList], [".scriptmetrics.toml".toList]]
      brokenSettings mendedSettings := by
  refine FileTree.edited_of_entries rfl (by decide +kernel) ?_ ?_
  · simp only [List.forall_mem_cons, List.not_mem_nil, false_imp_iff, implies_true, and_true]
    exact ⟨⟨by simp, Or.inr ⟨_, rfl⟩⟩, ⟨by simp, Or.inl rfl⟩, ⟨by simp, Or.inl rfl⟩⟩
  · simp only [List.forall_mem_cons, List.not_mem_nil, false_imp_iff, implies_true, and_true]
    exact ⟨⟨by simp, Or.inl rfl⟩, ⟨by simp, Or.inr ⟨_, rfl⟩⟩, ⟨by simp, Or.inr ⟨_, rfl⟩⟩⟩

/-- The settings in the manifest stay in force. -/
theorem load_is_first_usable_mended :
    Unnoticed brokenSettings mendedSettings (tried (Path.ofString "x/y").ascend) ∧
    load mendedSettings (.ofString "x/y") = load brokenSettings (.ofString "x/y") ∧
    (load brokenSettings (.ofString "x/y")).file = some (.ofString "x/package.json") ∧
    (load mendedSettings (.ofString "x/y")).resolvedRoot? = some (.ofString "x/lib") ∧
    ¬ Altered brokenSettings mendedSettings ⟨.ofString "x/package.json", .manifest⟩ := by
  have hunnoticed :
      Unnoticed brokenSettings mendedSettings (tried (Path.ofString "x/y").ascend) := by
    decide +kernel
  obtain ⟨start, ds, hstart, hup, -, -, hframe, hedits⟩ :=
    load_is_first_usable brokenSettings (.ofString "x/y")
  have hnot : brokenSettings.isFile (.ofString "x/y") = false := by decide +kernel
  rw [hnot] at hstart
  rcases hstart with ⟨hfile, -⟩ | ⟨-, rfl⟩
  · cases hfile
  obtain ⟨hbelow, halters⟩ := hedits _ _ mendedSettings_edited
  obtain ⟨hload, hroot⟩ := hframe mendedSettings hbelow (hup.eq_ascend ▸ hunnoticed)
  refine ⟨hunnoticed, hload, by decide +kernel, ?_, fun haltered => ?_⟩
  · rw [hroot]
    decide +kernel
  · obtain ⟨l, hl, hleads⟩ := halters _ haltered
    have hwhere : brokenSettings.locate (.ofString "x/package.json") =
          .ok ["x".toList, "package.json".toList] ∧
        mendedSettings.locate (.ofString "x/package.json") =
          .ok ["x".toList, "package.json".toList] := by
      decide +kernel
    rw [hwhere.1, hwhere.2, or_self] at hleads
    cases hleads
    exact absurd hl (by decide +kernel)

end Settings

end SourceGauge
