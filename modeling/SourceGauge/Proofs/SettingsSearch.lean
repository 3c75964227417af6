import SourceGauge.Proofs.Resolution
import SourceGauge.Settings.Search

/-!
# The directories where settings are looked for

The search goes up along the spelling of a path. In a tree without links the directories it looks
into are therefore those that the path leads through on its way from the current directory, last
first; they are the directories above the start only as far up as the current directory, and
only if the path does not lead back through two dots.
-/

namespace SourceGauge.FileTree

/-- The text of the file at a location, if a file with a text is there. -/
def textAt? (t : FileTree) (l : Location) : Option (List Char) :=
  match t.node? l with
  | some (.file bytes) => Text.decode? bytes
  | _ => none

/-- The locations that a path leads through when no name is a link, from its end back to the
current directory. -/
def passed (t : FileTree) (p : Path) : List Location :=
  p.components.inits.reverse.map (·.foldl lexicalStep t.current)

/-- A location and those above it, up to the top. -/
def upward (l : Location) : List Location := l.inits.reverse

end SourceGauge.FileTree

namespace SourceGauge.Settings

open FileTree (maxPathBytes)

/-- The settings that a directory holds: those of its settings file or else of its manifest. -/
def usableIn (t : FileTree) (d : Location) : Option Section :=
  [Format.toml, .manifest].findSome? fun f => (t.textAt? (d ++ [f.fileName.text])).bind f.decode?

variable {t : FileTree}

/-! ## One directory -/

theorem Candidate.settings?_eq (c : Candidate) :
    c.settings? t = (t.read c.path).toOption.bind c.format.decode? := by
  unfold Candidate.settings?
  cases t.read c.path <;> rfl

theorem validName_fileName (f : Format) : FileTree.ValidName f.fileName.text := by
  cases f <;> decide +kernel

theorem length_encode_fileName (f : Format) : (Text.encode f.fileName.text).length ≤ 19 := by
  cases f <;> decide +kernel

/-- Reading a file under a path that ends in an entry of a directory. -/
theorem read_entry (hfree : t.LinkFree) {p : Path} {d : Location} {name : Name} {links : Nat}
    (hdir : t.isDirectoryAt d = true) (hname : FileTree.ValidName name)
    (h : t.halt p = t.follow links d [name]) : (t.read p).toOption = t.textAt? (d ++ [name]) := by
  rw [hfree.follow_eq, FileTree.advance_name hdir hname] at h
  unfold FileTree.read FileTree.locate FileTree.bytesAt FileTree.textAt?
  rw [h]
  cases hnode : t.node? (d ++ [name]) with
  | none => rfl
  | some n =>
      cases n with
      | directory =>
          simp only [bind, Except.bind, hnode]
          rfl
      | file bytes =>
          simp only [bind, Except.bind, hnode]
          cases Text.decode? bytes <;> rfl
      | link target => exact absurd hnode (hfree.node?_ne_link _ _)

/-- A relative path under which the search looks into a directory: the empty path stands for the
current one. -/
structure Looks (t : FileTree) (p : Path) (d : Location) : Prop where
  relative : p.isAbsolute = false
  room : (Text.encode p.text).length + 20 ≤ maxPathBytes
  isDirectory : t.isDirectoryAt d = true
  leads : p.text = [] ∧ d = t.current ∨ t.locate p = .ok d

theorem Looks.settings?_eq (hfree : t.LinkFree) {p : Path} {d : Location} (h : Looks t p d)
    (f : Format) :
    Candidate.settings? t ⟨p.join f.fileName, f⟩ =
      (t.textAt? (d ++ [f.fileName.text])).bind f.decode? := by
  have hname := validName_fileName f
  have hlength := length_encode_fileName f
  obtain ⟨links, hhalt⟩ :
      ∃ links, t.halt (p.join f.fileName) = t.follow links d [f.fileName.text] := by
    rcases h.leads with ⟨hempty, rfl⟩ | hlocate
    · have hjoin : p.join f.fileName = f.fileName := by
        simp [Path.join, hempty, Path.isAbsolute_of_name hname.noSlash]
      have hfault : FileTree.pathFault? f.fileName = none :=
        FileTree.pathFault?_eq_none_iff.2
          ⟨hname.noNul, hname.filled, Nat.le_trans hlength (by decide)⟩
      refine ⟨FileTree.maxLinks, ?_⟩
      rw [hjoin, FileTree.halt, hfault, Text.splitOn_of_not_mem hname.noSlash, FileTree.startOf,
        Path.isAbsolute_of_name hname.noSlash]
      rfl
    · have hroom := h.room
      have hfault : FileTree.pathFault? (p.join ⟨f.fileName.text⟩) = none :=
        FileTree.pathFault?_join_name (FileTree.locate_eq_ok_iff_follow.1 hlocate).1 hname
          (by omega)
      obtain ⟨left, -, hhalt⟩ := FileTree.halt_join_name hlocate hname.noSlash hfault
      exact ⟨left, hhalt⟩
  rw [Candidate.settings?_eq, read_entry hfree h.isDirectory hname hhalt]

theorem Looks.candidates_eq (hfree : t.LinkFree) {p : Path} {d : Location} (h : Looks t p d) :
    (candidatesIn p).findSome? (Candidate.settings? t) = usableIn t d := by
  simp only [candidatesIn, usableIn, List.map_cons, List.map_nil, List.findSome?_cons,
    List.findSome?_nil, h.settings?_eq hfree]

/-! ## Going up -/

theorem Looks.lexical (hfree : t.LinkFree) {p : Path} {d : Location} (h : Looks t p d) :
    d = FileTree.lexical t.current p := by
  rcases h.leads with ⟨hempty, rfl⟩ | hlocate
  · have hpath : p = ⟨[]⟩ := congrArg Path.mk hempty
    rw [hpath]
    rfl
  · exact hfree.locate_lexical hlocate

theorem Looks.current {p : Path} {d : Location} (h : Looks t p d) :
    t.isDirectoryAt t.current = true := by
  rcases h.leads with ⟨-, rfl⟩ | hlocate
  · exact h.isDirectory
  · obtain ⟨-, hfollow⟩ := FileTree.locate_eq_ok_iff_follow.1 hlocate
    obtain ⟨piece, rest, hpieces⟩ :=
      List.exists_cons_of_ne_nil (Text.splitOn_ne_nil '/' p.text)
    rw [hpieces, FileTree.startOf, h.relative] at hfollow
    exact FileTree.isDirectoryAt_of_follow hfollow

/-- The parent of a path leads to a directory that the path leads through. -/
theorem Looks.parent {p q : Path} {d : Location} (h : Looks t p d)
    (hparent : p.parent? = some q) : ∃ e, Looks t q e := by
  have hrelative := Path.isAbsolute_parent? h.relative hparent
  rcases Path.parent?_cases h.relative hparent with ⟨hempty, -⟩ | ⟨hne, rest, piece, htext, -⟩
  · refine ⟨t.current, hrelative, ?_, h.current, Or.inl ⟨hempty, rfl⟩⟩
    rw [hempty]
    decide
  · rcases h.leads with ⟨hempty, -⟩ | hlocate
    · simp [htext] at hempty
    · obtain ⟨hfault, hfollow⟩ := FileTree.locate_eq_ok_iff_follow.1 hlocate
      obtain ⟨next, more, hnext⟩ := List.exists_cons_of_ne_nil (Text.splitOn_ne_nil '/' rest)
      obtain ⟨hnul, -, hlength⟩ := FileTree.pathFault?_eq_none_iff.1 hfault
      have hstart : FileTree.startOf t.current q = FileTree.startOf t.current p := by
        rw [FileTree.startOf, FileTree.startOf, hrelative, h.relative]
      rw [htext, Text.splitOn_append_cons, hnext, ← hstart] at hfollow
      obtain ⟨e, left, -, hmore⟩ := FileTree.follow_split hfollow
      rw [hmore] at hfollow
      have harrived := hmore []
      rw [List.append_nil, FileTree.follow_nil] at harrived
      have hroom := h.room
      rw [htext] at hnul
      rw [htext, Text.length_encode_append] at hroom hlength
      have hfault' : FileTree.pathFault? q = none :=
        FileTree.pathFault?_eq_none_iff.2
          ⟨fun c hc => hnul c (List.mem_append_left _ hc), hne, by omega⟩
      refine ⟨e, hrelative, by omega, FileTree.isDirectoryAt_of_follow hfollow, Or.inr ?_⟩
      exact FileTree.locate_eq_ok_iff_follow.2 ⟨hfault', harrived⟩

theorem passed_eq_map_ascend {p : Path} (hrel : p.isAbsolute = false) :
    t.passed p = p.ascend.map (FileTree.lexical t.current) := by
  rw [FileTree.passed, ← Path.map_components_ascend hrel, List.map_map]
  rfl

theorem findSome?_flatMap {α β γ : Type} (g : α → List β) (f : β → Option γ) (xs : List α) :
    (xs.flatMap g).findSome? f = xs.findSome? fun a => (g a).findSome? f := by
  induction xs with
  | nil => rfl
  | cons a xs ih =>
      rw [List.flatMap_cons, List.findSome?_append, ih, List.findSome?_cons]
      cases (g a).findSome? f <;> rfl

/-- The candidates in order are the files of the directories that the path leads through. -/
theorem findSome?_candidates (hfree : t.LinkFree) {p : Path} {l : Location}
    (h : Looks t p l) (hp : t.locate p = .ok l) :
    (candidates t p).findSome? (Candidate.settings? t) = (t.passed p).findSome? (usableIn t) := by
  have hstart : searchStart t p = p := by
    simp [searchStart, FileTree.isFile, hp, h.isDirectory]
  have hlooks : ∀ q ∈ p.ascend, ∃ d, Looks t q d :=
    Path.forall_ascend ⟨l, h⟩ fun _ _ ⟨_, hlook⟩ hparent => hlook.parent hparent
  have heach : p.ascend.map (fun q => (candidatesIn q).findSome? (Candidate.settings? t)) =
      p.ascend.map (fun q => usableIn t (FileTree.lexical t.current q)) := by
    refine List.map_congr_left fun q hq => ?_
    obtain ⟨d, hlook⟩ := hlooks q hq
    rw [hlook.candidates_eq hfree, hlook.lexical hfree]
  calc (candidates t p).findSome? (Candidate.settings? t)
      = (p.ascend.map fun q =>
          (candidatesIn q).findSome? (Candidate.settings? t)).findSome? id := by
        rw [candidates, hstart, findSome?_flatMap, List.findSome?_map]
        rfl
    _ = (t.passed p).findSome? (usableIn t) := by
        rw [heach, passed_eq_map_ascend h.relative, List.findSome?_map, List.findSome?_map]
        rfl

theorem load_settings (p : Path) :
    (load t p).settings =
      ((candidates t p).findSome? (Candidate.settings? t)).getD .empty := by
  have hmap := List.map_findSome? (f := fun c => (Candidate.settings? t c).map
    fun s => (⟨s, some c.path⟩ : Config)) (g := Config.settings) (l := candidates t p)
  have hsame : (Option.map Config.settings ∘ fun c => (Candidate.settings? t c).map
      fun s => (⟨s, some c.path⟩ : Config)) = Candidate.settings? t := by
    funext c
    simp [Function.comp_def]
  rw [hsame] at hmap
  rw [← hmap, load]
  cases (candidates t p).findSome? _ <;> rfl

theorem load_file_eq_none_iff (p : Path) :
    (load t p).file = none ↔ (candidates t p).findSome? (Candidate.settings? t) = none := by
  rw [List.findSome?_eq_none_iff, load]
  cases hfound : (candidates t p).findSome? fun c =>
      (c.settings? t).map fun s => (⟨s, some c.path⟩ : Config) with
  | none =>
      rw [List.findSome?_eq_none_iff] at hfound
      simpa [Config.default] using hfound
  | some config =>
      obtain ⟨c, hc, hconfig⟩ := List.exists_of_findSome?_eq_some hfound
      obtain ⟨s, hs, rfl⟩ := Option.map_eq_some_iff.1 hconfig
      simp only [Option.getD_some, reduceCtorEq, false_iff]
      intro hnone
      rw [hnone c hc] at hs
      cases hs

/-! ## Directories above the start -/

section Upward

variable {α : Type} (f : Location → Option α)

theorem upward_append (l : Location) (name : Name) :
    FileTree.upward (l ++ [name]) = (l ++ [name]) :: FileTree.upward l :=
  Path.reverse_inits_append_singleton l name

theorem mem_upward {l d : Location} : d ∈ FileTree.upward l ↔ d <+: l := by
  rw [FileTree.upward, List.mem_reverse, List.mem_inits]

theorem filter_upward_self (l : Location) :
    (FileTree.upward l).filter (l.isPrefixOf ·) = [l] := by
  cases l using List.reverseRecOn with
  | nil => rfl
  | append_singleton front last =>
      rw [upward_append, List.filter_cons_of_pos (by simp), List.cons.injEq,
        List.filter_eq_nil_iff]
      refine ⟨rfl, fun d hd => ?_⟩
      rw [List.isPrefixOf_iff_prefix]
      intro hle
      have hlength := (hle.trans (mem_upward.1 hd)).length_le
      simp only [List.length_append, List.length_singleton] at hlength
      omega

/-- Components that do not lead back. -/
def Onward (cs : List Path.Component) : Prop := ∀ c ∈ cs, c = .current ∨ ∃ name, c = .name name

theorem Onward.isPrefix {cs : List Path.Component} (h : Onward cs) (base : Location) :
    base <+: cs.foldl FileTree.lexicalStep base := by
  induction cs generalizing base with
  | nil => exact List.prefix_refl base
  | cons c cs ih =>
      have hrest : Onward cs := fun d hd => h d (List.mem_cons_of_mem c hd)
      rcases h c (List.mem_cons_self ..) with rfl | ⟨name, rfl⟩
      · exact ih hrest base
      · exact (List.prefix_append base [name]).trans (ih hrest (base ++ [name]))

/-- Without a way back, what a path leads through are the locations above its end, up to where
it sets out. -/
theorem findSome?_passed_onward (base : Location) {cs : List Path.Component} (h : Onward cs) :
    (cs.inits.reverse.map (·.foldl FileTree.lexicalStep base)).findSome? f =
      ((FileTree.upward (cs.foldl FileTree.lexicalStep base)).filter
        (base.isPrefixOf ·)).findSome? f := by
  induction cs using List.reverseRecOn with
  | nil =>
      rw [List.foldl_nil, filter_upward_self]
      rfl
  | append_singleton cs c ih =>
      have hcs : Onward cs := fun d hd => h d (List.mem_append_left _ hd)
      have ih := ih hcs
      have hbase := hcs.isPrefix base
      simp only [Path.reverse_inits_append_singleton, List.map_cons, List.foldl_append,
        List.foldl_cons, List.foldl_nil, List.findSome?_cons, ih]
      rcases h c (by simp) with rfl | ⟨name, rfl⟩
      · -- a dot leads to where the path is already
        obtain ⟨above, habove⟩ :=
          Path.reverse_inits_eq_cons (cs.foldl FileTree.lexicalStep base)
        rw [FileTree.lexicalStep, FileTree.upward, habove,
          List.filter_cons_of_pos (List.isPrefixOf_iff_prefix.2 hbase), List.findSome?_cons]
        cases f (cs.foldl FileTree.lexicalStep base) <;> rfl
      · have hlonger : base <+: cs.foldl FileTree.lexicalStep base ++ [name] :=
          hbase.trans (List.prefix_append _ _)
        rw [FileTree.lexicalStep, upward_append,
          List.filter_cons_of_pos (List.isPrefixOf_iff_prefix.2 hlonger), List.findSome?_cons]

theorem findSome?_filter {p : Location → Bool} {ds : List Location}
    (h : ∀ d ∈ ds, p d = false → f d = none) : (ds.filter p).findSome? f = ds.findSome? f := by
  induction ds with
  | nil => rfl
  | cons d ds ih =>
      have hrest := ih fun e he => h e (List.mem_cons_of_mem d he)
      cases hp : p d with
      | true => rw [List.filter_cons_of_pos hp, List.findSome?_cons, List.findSome?_cons, hrest]
      | false =>
          have hd := h d (List.mem_cons_self ..) hp
          rw [List.filter_cons_of_neg (by simp [hp]), hrest, List.findSome?_cons, hd]

end Upward

theorem onward_of_parent_not_mem {p : Path} (hrel : p.isAbsolute = false)
    (h : Path.Component.parent ∉ p.components) : Onward p.components := by
  intro c hc
  cases c with
  | root => exact absurd hc (Path.root_not_mem_components hrel)
  | current => exact Or.inl rfl
  | parent => exact absurd hc h
  | name name => exact Or.inr ⟨name, rfl⟩

/-! ## Which settings are found -/

/-- The settings are those of the first directory that has any among those that the path leads
through, from its end back to the current directory. They are what a search of all directories
above the start would find if the path does not lead back and nothing lies above the current
directory. The path leaves room for a slash and the longer of the two file names before it gets
longer than any path can be; without it, a file in the start itself could not be opened. -/
theorem load_from_passed_directories (t : FileTree) (p : Path) (l : Location)
    (hfree : t.LinkFree) (hrel : p.isAbsolute = false)
    (hroom : (Text.encode p.text).length + 20 ≤ maxPathBytes)
    (hp : t.locate p = .ok l) (hdir : t.isDirectoryAt l = true) :
    (load t p).settings = ((t.passed p).findSome? (usableIn t)).getD .empty ∧
    ((load t p).file = none ↔ ∀ d ∈ t.passed p, usableIn t d = none) ∧
    (t.passed p).head? = some l ∧ (t.passed p).getLast? = some t.current ∧
    (Path.Component.parent ∉ p.components →
      (load t p).settings =
        (((FileTree.upward l).filter (t.current.isPrefixOf ·)).findSome? (usableIn t)).getD
          .empty ∧
      ((∀ d, d <+: t.current → d ≠ t.current → usableIn t d = none) →
        (load t p).settings = ((FileTree.upward l).findSome? (usableIn t)).getD .empty)) := by
  have hlook : Looks t p l := ⟨hrel, hroom, hdir, Or.inr hp⟩
  have hfound := findSome?_candidates hfree hlook hp
  have hl := hlook.lexical hfree
  rw [load_settings, load_file_eq_none_iff, hfound, List.findSome?_eq_none_iff]
  refine ⟨rfl, Iff.rfl, ?_, ?_, ?_⟩
  · obtain ⟨rest, hrest⟩ := Path.reverse_inits_eq_cons p.components
    rw [FileTree.passed, hrest, hl]
    rfl
  · rw [FileTree.passed, List.getLast?_map, List.getLast?_reverse]
    cases p.components <;> rfl
  · intro hparent
    have honward := onward_of_parent_not_mem hrel hparent
    have hupward : (t.passed p).findSome? (usableIn t) =
        ((FileTree.upward l).filter (t.current.isPrefixOf ·)).findSome? (usableIn t) := by
      rw [hl]
      exact findSome?_passed_onward (usableIn t) t.current honward
    refine ⟨by rw [hupward], fun habove => ?_⟩
    rw [hupward, findSome?_filter]
    -- a location above the end is at or below the current directory, or above it
    intro d hd hnot
    have hcurrent : t.current <+: l := hl ▸ honward.isPrefix t.current
    have hcases := List.prefix_or_prefix_of_prefix (mem_upward.1 hd) hcurrent
    rw [← Bool.not_eq_true, List.isPrefixOf_iff_prefix] at hnot
    rcases hcases with hle | hge
    · refine habove d hle ?_
      rintro rfl
      exact hnot (List.prefix_refl _)
    · exact absurd hge hnot

/-- Settings above the current directory, and others beside the one that is analyzed. -/
def scatteredSettings : FileTree where
  entries :=
    [([".scriptmetrics.toml".toList],
        .file (Text.encode "[scriptmetrics]\nextensions = [\".ts\"]\n".toList)),
      (["w".toList], .directory), (["x".toList], .directory),
      (["x".toList, ".scriptmetrics.toml".toList],
        .file (Text.encode "[scriptmetrics]\nrespect_gitignore = true\n".toList))]
  current := ["w".toList]

/-- A path that goes down one directory, with settings there. -/
theorem load_from_passed_directories_below :
    FileTree.LinkFree { scatteredSettings with current := [] } ∧
    (load { scatteredSettings with current := [] } (.ofString "./x")).settings =
      ((FileTree.upward ["x".toList]).findSome?
        (usableIn { scatteredSettings with current := [] })).getD .empty := by
  have hfree : FileTree.LinkFree { scatteredSettings with current := [] } := by decide +kernel
  obtain ⟨-, -, -, -, honward⟩ :=
    load_from_passed_directories { scatteredSettings with current := [] } (.ofString "./x")
      ["x".toList] hfree (by decide +kernel) (by decide +kernel) (by decide +kernel)
      (by decide +kernel)
  refine ⟨hfree, (honward (by decide +kernel)).2 ?_⟩
  intro d hd hne
  exact absurd (List.prefix_nil.1 hd) hne

/-- Settings in a directory beside the one that is analyzed, and nowhere else. -/
def besideSettings : FileTree where
  entries := scatteredSettings.entries.tail
  current := ["x".toList]

/-- The search does not follow the directories above its start: it stops at the current one, so
that the spelling of the start matters, and it may look into one that is not above. -/
theorem search_is_not_upward :
    (scatteredSettings.LinkFree ∧ besideSettings.LinkFree) ∧
    (scatteredSettings.locate .here = .ok ["w".toList] ∧
      (load scatteredSettings .here).settings ≠
        ((FileTree.upward ["w".toList]).findSome? (usableIn scatteredSettings)).getD .empty) ∧
    (scatteredSettings.locate (.ofString "../w") = .ok ["w".toList] ∧
      (load scatteredSettings (.ofString "../w")).settings ≠
        (load scatteredSettings .here).settings) ∧
    (besideSettings.locate (.ofString "../w") = .ok ["w".toList] ∧
      (load besideSettings (.ofString "../w")).settings ≠
        ((FileTree.upward ["w".toList]).findSome? (usableIn besideSettings)).getD .empty) := by
  decide +kernel

end SourceGauge.Settings
