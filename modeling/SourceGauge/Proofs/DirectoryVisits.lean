import Mathlib.Data.List.Nodup
import Mathlib.Tactic.Ring
import SourceGauge.Discovery.Files
import SourceGauge.Proofs.Resolution

/-!
# Visits of directories

Which directories a visit enters and which files it comes upon, said without the visit: names
lead from the root through directories, none of them excluded, and no link leads back to a
directory on the way. A visit finds what lies so, and its depth bound cuts nothing off: a link
takes away one of the directories that links may still lead to, and between links locations only
get longer.
-/

namespace SourceGauge.Discovery

/-! ## What is to be found -/

/-- The path that leads along names from a root. -/
def under (root : Path) (names : List Name) : Path :=
  names.foldl (fun p name => p.join ⟨name⟩) root

/-- A glob without fault matches the name. -/
def Excluded (o : Options) (name : Name) : Prop :=
  ∃ glob ∈ o.excludes, ∃ pattern, Glob.compile Glob.nameOptions glob = .ok pattern ∧
    pattern.accepts (Text.encode name) = true

/-- Names that lead from the root through directories to a location. The locations on the way,
this one included, stand in `above`, innermost first. -/
inductive Enters (t : FileTree) (o : Options) (root : Path) :
    List Name → Location → List Location → Prop where
  | root {l : Location} (hroot : t.locate root = .ok l) (hdir : t.isDirectoryAt l = true) :
      Enters t o root [] l [l]
  | step {names : List Name} {l : Location} {above : List Location} {name : Name} {m : Location}
      (hway : Enters t o root names l above) (hname : name ∈ t.names l)
      (hleads : t.locate (under root (names ++ [name])) = .ok m)
      (hdir : t.isDirectoryAt m = true) (hexcluded : ¬ Excluded o name)
      (hloop : ∀ target, t.node? (l ++ [name]) = some (.link target) → m ∉ above) :
      Enters t o root (names ++ [name]) m (m :: above)

/-- A file, or a link whose path leads to one. -/
def HoldsFile (t : FileTree) (path : Path) (l : Location) : Prop :=
  (∃ bytes, t.node? l = some (.file bytes)) ∨
    ∃ target m bytes, t.node? l = some (.link target) ∧ t.locate path = .ok m ∧
      t.node? m = some (.file bytes)

/-- A path that discovery is to give. -/
def IsSource (t : FileTree) (o : Options) (root path : Path) : Prop :=
  ∃ names l above name, Enters t o root names l above ∧ name ∈ t.names l ∧
    path = under root (names ++ [name]) ∧ HoldsFile t path (l ++ [name]) ∧
    ∃ ext ∈ o.extensions, ext <:+ name

variable {t : FileTree} {o : Options} {root : Path}

theorem under_append (names : List Name) (name : Name) :
    under root (names ++ [name]) = (under root names).join ⟨name⟩ := by
  simp [under]

theorem isExcluded_iff {name : Name} :
    isExcluded (validExcludes o.excludes) name = true ↔ Excluded o name := by
  unfold isExcluded validExcludes Excluded
  rw [List.any_eq_true]
  constructor
  · rintro ⟨pattern, hpattern, haccepts⟩
    obtain ⟨glob, hglob, hcompile⟩ := List.mem_filterMap.1 hpattern
    refine ⟨glob, hglob, pattern, ?_, haccepts⟩
    cases hresult : Glob.compile Glob.nameOptions glob with
    | error fault =>
        rw [hresult] at hcompile
        cases hcompile
    | ok other =>
        rw [hresult] at hcompile
        cases hcompile
        rfl
  · rintro ⟨glob, hglob, pattern, hcompile, haccepts⟩
    refine ⟨pattern, List.mem_filterMap.2 ⟨glob, hglob, ?_⟩, haccepts⟩
    rw [hcompile]
    rfl

theorem isExcluded_eq_false_iff {name : Name} :
    isExcluded (validExcludes o.excludes) name = false ↔ ¬ Excluded o name := by
  rw [← Bool.not_eq_true, isExcluded_iff]

theorem nameMatches_iff {name : Name} {extensions : List (List Char)} :
    Extension.nameMatches name extensions = true ↔ ∃ ext ∈ extensions, ext <:+ name := by
  simp [Extension.nameMatches]

theorem Enters.locate {names : List Name} {l : Location} {above : List Location}
    (h : Enters t o root names l above) : t.locate (under root names) = .ok l := by
  cases h with
  | root hroot hdir => exact hroot
  | step hway hname hleads hdir hexcluded hloop => exact hleads

theorem Enters.isDirectory {names : List Name} {l : Location} {above : List Location}
    (h : Enters t o root names l above) : t.isDirectoryAt l = true := by
  cases h with
  | root hroot hdir => exact hdir
  | step hway hname hleads hdir hexcluded hloop => exact hdir

/-! ## One entry -/

section Entry

variable {s : Stage} {name : Name}

theorem validName_of_mem_names (hwf : t.WellFormed) {l : Location} (h : name ∈ t.names l) :
    FileTree.ValidName name := by
  obtain ⟨n, hn⟩ := FileTree.mem_names.1 h
  exact hwf.named _ hn name (by simp)

theorem node?_of_mem_names {l : Location} (h : name ∈ t.names l) :
    ∃ n, t.node? (l ++ [name]) = some n := by
  obtain ⟨n, hn⟩ := FileTree.mem_names.1 h
  obtain ⟨node, hnode⟩ := FileTree.exists_lookup_of_mem hn
  refine ⟨node, ?_⟩
  rw [FileTree.node?, if_neg (by simp), hnode]

/-- An entry that is no link is found under its path where it stands. -/
theorem eq_of_locate_entry (hwf : t.WellFormed) {p : Path} {d m : Location} {n : Node}
    (hp : t.locate p = .ok d) (hdir : t.isDirectoryAt d = true) (hname : name ∈ t.names d)
    (hnode : t.node? (d ++ [name]) = some n) (hlink : ∀ target, n ≠ .link target)
    (hm : t.locate (p.join ⟨name⟩) = .ok m) : m = d ++ [name] := by
  have hvalid := validName_of_mem_names hwf hname
  have hfault := (FileTree.locate_eq_ok_iff_follow.1 hm).1
  obtain ⟨left, -, hfollow⟩ := FileTree.halt_join_name hp hvalid.noSlash hfault
  have hadvance : t.advance d [name] = .arrived (d ++ [name]) := by
    rw [FileTree.advance_name hdir hvalid, hnode]
    cases n with
    | directory => rfl
    | file bytes => rfl
    | link target => exact absurd rfl (hlink target)
  rw [FileTree.locate_eq_ok_iff.1 hm, FileTree.follow_of_no_link (by simp [hadvance]),
    hadvance] at hfollow
  cases hfollow
  rfl

theorem entry_file_iff (hwf : t.WellFormed) (hname : name ∈ t.names s.location) :
    (∃ l, s.entry t name = .file l) ↔
      HoldsFile t (s.path.join ⟨name⟩) (s.location ++ [name]) := by
  obtain ⟨n, hn⟩ := node?_of_mem_names hname
  unfold Stage.entry HoldsFile
  rw [hn]
  cases n with
  | directory => simp
  | file bytes => simp
  | link target =>
      cases hlocate : t.locate (s.path.join ⟨name⟩) with
      | error cause => simp
      | ok m =>
          rcases FileTree.solid_of_locate hwf hlocate with hdir | ⟨bytes, hfile⟩
          · have hat : t.isDirectoryAt m = true := FileTree.isDirectoryAt_iff.2 hdir
            simp only [hat, if_true]
            cases s.ancestorAt? m <;> simp [hdir]
          · have hat : t.isDirectoryAt m = false := by
              simp [FileTree.isDirectoryAt, hfile]
            simp [hat, hfile]

theorem ancestorAt?_eq_none_iff {l : Location} :
    s.ancestorAt? l = none ↔ l ∉ s.ancestors.map Prod.snd := by
  simp only [Stage.ancestorAt?, Option.map_eq_none_iff, List.find?_eq_none, decide_eq_true_eq,
    List.mem_map, not_exists, not_and]

theorem entry_directory_iff_of_plain {n : Node} {l : Location}
    (hn : t.node? (s.location ++ [name]) = some n) (hplain : ∀ target, n ≠ .link target) :
    s.entry t name = .directory l ↔ s.location ++ [name] = l ∧ t.isDirectoryAt l = true := by
  unfold Stage.entry
  rw [hn]
  cases n with
  | directory =>
      have hat : t.isDirectoryAt (s.location ++ [name]) = true :=
        FileTree.isDirectoryAt_iff.2 hn
      constructor
      · intro hentry
        cases hentry
        exact ⟨rfl, hat⟩
      · rintro ⟨rfl, -⟩
        rfl
  | file bytes =>
      simp only [reduceCtorEq, false_iff, not_and]
      rintro rfl
      simp [FileTree.isDirectoryAt, hn]
  | link target => exact absurd rfl (hplain target)

theorem entry_directory_iff_of_link {target : Path} {m l : Location}
    (hn : t.node? (s.location ++ [name]) = some (.link target))
    (hm : t.locate (s.path.join ⟨name⟩) = .ok m) :
    s.entry t name = .directory l ↔
      m = l ∧ t.isDirectoryAt m = true ∧ m ∉ s.ancestors.map Prod.snd := by
  unfold Stage.entry
  rw [hn, hm, ← ancestorAt?_eq_none_iff]
  cases hat : t.isDirectoryAt m with
  | false => simp [hat]
  | true => cases hancestor : s.ancestorAt? m <;> simp [hat, hancestor]

/-- The directories that a visit enters are those that are entries under their paths, unless a
link leads back. -/
theorem entry_directory_iff (hwf : t.WellFormed) (hs : t.locate s.path = .ok s.location)
    (hdir : t.isDirectoryAt s.location = true) (hname : name ∈ t.names s.location)
    {l : Location} :
    (s.entry t name = .directory l ∧ ∃ m, t.locate (s.path.join ⟨name⟩) = .ok m) ↔
      t.locate (s.path.join ⟨name⟩) = .ok l ∧ t.isDirectoryAt l = true ∧
        ∀ target, t.node? (s.location ++ [name]) = some (.link target) →
          l ∉ s.ancestors.map Prod.snd := by
  obtain ⟨n, hn⟩ := node?_of_mem_names hname
  cases hlocate : t.locate (s.path.join ⟨name⟩) with
  | error cause => simp
  | ok m =>
      by_cases hlink : ∃ target, n = .link target
      · obtain ⟨target, rfl⟩ := hlink
        rw [entry_directory_iff_of_link hn hlocate]
        constructor
        · rintro ⟨⟨rfl, hat, hloop⟩, -⟩
          exact ⟨rfl, hat, fun _ _ => hloop⟩
        · rintro ⟨hl, hat, hloop⟩
          cases hl
          exact ⟨⟨rfl, hat, hloop target hn⟩, _, rfl⟩
      · have hplain := not_exists.1 hlink
        have hm := eq_of_locate_entry hwf hs hdir hname hn hplain hlocate
        rw [entry_directory_iff_of_plain hn hplain, hm]
        constructor
        · rintro ⟨⟨rfl, hat⟩, -⟩
          refine ⟨rfl, hat, fun target htarget => ?_⟩
          rw [hn] at htarget
          exact absurd (Option.some.inj htarget) (hplain target)
        · rintro ⟨hl, hat, -⟩
          cases hl
          exact ⟨⟨rfl, hat⟩, _, rfl⟩

end Entry

/-! ## Depth -/

theorem length_le_longest {l : Location} {n : Node} (h : (l, n) ∈ t.entries) :
    l.length ≤ longest t := by
  rw [longest, List.foldl_max]
  exact Nat.le_trans (List.le_max?_getD_of_mem (List.mem_map.2 ⟨(l, n), h, rfl⟩))
    (Nat.le_max_right 0 _)

/-- How many locations of the tree are not on the way. -/
def fresh (t : FileTree) (above : List Location) : Nat :=
  ([] :: t.entries.map Prod.fst).countP (· ∉ above)

theorem countP_not_mem_cons_le (m : Location) (above ls : List Location) :
    ls.countP (· ∉ m :: above) ≤ ls.countP (· ∉ above) := by
  refine List.countP_mono_left ?_
  intro l _ hl
  simp only [List.mem_cons, not_or, decide_eq_true_eq] at hl ⊢
  exact hl.2

theorem fresh_cons_le (t : FileTree) (m : Location) (above : List Location) :
    fresh t (m :: above) ≤ fresh t above :=
  countP_not_mem_cons_le m above _

theorem fresh_cons_lt {m : Location} {above : List Location} (hdir : t.isDirectoryAt m = true)
    (hm : m ∉ above) : fresh t (m :: above) < fresh t above := by
  have hmem : m ∈ [] :: t.entries.map Prod.fst := by
    by_cases hnil : m = []
    · simp [hnil]
    · have hentry := FileTree.mem_of_node? hnil (FileTree.isDirectoryAt_iff.1 hdir)
      exact List.mem_cons_of_mem _ (List.mem_map.2 ⟨_, hentry, rfl⟩)
  obtain ⟨before, after, hsplit⟩ := List.append_of_mem hmem
  have hbefore := countP_not_mem_cons_le m above before
  have hafter := countP_not_mem_cons_le m above after
  unfold fresh
  rw [hsplit, List.countP_append, List.countP_append, List.countP_cons_of_neg (by simp),
    List.countP_cons_of_pos (by simpa using hm)]
  omega

/-- What bounds the depth below a location, given the locations on the way. -/
def rank (t : FileTree) (above : List Location) (l : Location) : Nat :=
  fresh t above * (longest t + 1) + (longest t - l.length)

/-- A plain entry is deeper in the tree. -/
theorem rank_lt_of_plain {l : Location} {name : Name} {n : Node} {above : List Location}
    (h : (l ++ [name], n) ∈ t.entries) (m : Location) :
    rank t (m :: above) (l ++ [name]) < rank t above l := by
  have hlength := length_le_longest h
  rw [List.length_append, List.length_singleton] at hlength
  have hfresh := Nat.mul_le_mul_right (longest t + 1) (fresh_cons_le t m above)
  unfold rank
  rw [List.length_append, List.length_singleton]
  omega

/-- A link that does not lead back uses up a location. -/
theorem rank_lt_of_link {l m : Location} {above : List Location} (hdir : t.isDirectoryAt m = true)
    (hm : m ∉ above) : rank t (m :: above) m < rank t above l := by
  have hfresh := Nat.mul_le_mul_right (longest t + 1) (fresh_cons_lt hdir hm)
  rw [Nat.succ_mul] at hfresh
  unfold rank
  omega

theorem rank_le (t : FileTree) (above : List Location) (l : Location) :
    rank t above l ≤ (t.entries.length + 1) * (longest t + 1) + longest t := by
  have hfresh : fresh t above ≤ t.entries.length + 1 :=
    Nat.le_trans List.countP_le_length (by simp)
  have hmul := Nat.mul_le_mul_right (longest t + 1) hfresh
  unfold rank
  omega

theorem Enters.rank_add_length (hwf : t.WellFormed) {names : List Name} {l : Location}
    {above : List Location} (h : Enters t o root names l above) :
    rank t above l + names.length ≤ (t.entries.length + 1) * (longest t + 1) + longest t := by
  induction h with
  | @root l hroot hdir => exact rank_le t [l] l
  | @step names l above name m hway hname hleads hdir hexcluded hloop ih =>
      have hlt : rank t (m :: above) m < rank t above l := by
        obtain ⟨n, hn⟩ := node?_of_mem_names hname
        by_cases hlink : ∃ target, n = .link target
        · obtain ⟨target, rfl⟩ := hlink
          exact rank_lt_of_link hdir (hloop target hn)
        · rw [under_append] at hleads
          have hm := eq_of_locate_entry hwf hway.locate hway.isDirectory hname hn
            (not_exists.1 hlink) hleads
          subst hm
          exact rank_lt_of_plain (FileTree.mem_of_node? (by simp) hn) _
      rw [List.length_append, List.length_singleton]
      omega

theorem depthBound_eq (t : FileTree) :
    depthBound t =
      (t.entries.length + 1) * (longest t + 1) + longest t + t.entries.length + 3 := by
  unfold depthBound
  ring

/-- No way through directories is as long as the bound. -/
theorem Enters.length_lt_depthBound (hwf : t.WellFormed) {names : List Name} {l : Location}
    {above : List Location} (h : Enters t o root names l above) :
    names.length < depthBound t := by
  have hrank := h.rank_add_length hwf
  have hbound := depthBound_eq t
  omega

/-! ## Visits -/

/-- What discovery gives in a directory, from what its visit comes upon. -/
theorem discover_of_isDirectory (hroot : t.isDirectory root = true) :
    ∃ l, t.locate root = .ok l ∧ t.isDirectoryAt l = true ∧ root.text ≠ [] ∧
      ∀ o, discover t o root =
        .ok (Path.sort ((findings t o root l).filterMap Finding.file?),
          excludeNotices o.excludes ++ (findings t o root l).filterMap Finding.notice?) := by
  unfold FileTree.isDirectory at hroot
  cases hlocate : t.locate root with
  | error cause =>
      rw [hlocate] at hroot
      cases hroot
  | ok l =>
      rw [hlocate] at hroot
      have hfault := (FileTree.locate_eq_ok_iff_follow.1 hlocate).1
      refine ⟨l, rfl, hroot, (FileTree.pathFault?_eq_none_iff.1 hfault).2.1, fun o => ?_⟩
      simp only [discover, locateRoot, hlocate, show t.isDirectoryAt l = true from hroot, if_true]

/-- A stage of a visit stands where names lead from the root. -/
structure Reached (t : FileTree) (o : Options) (root : Path) (names : List Name) (s : Stage) :
    Prop where
  path : s.path = under root names
  enters : Enters t o root names s.location (s.ancestors.map Prod.snd)

theorem Reached.locate {names : List Name} {s : Stage} (h : Reached t o root names s) :
    t.locate s.path = .ok s.location := by
  rw [h.path]
  exact h.enters.locate

theorem reached_rootStage {l : Location} (hroot : t.locate root = .ok l)
    (hdir : t.isDirectoryAt l = true) : Reached t o root [] (rootStage t o root l) :=
  ⟨rfl, .root hroot hdir⟩

/-- What a visit finds in an entry: the file itself, or what it finds in the directory. -/
theorem file_mem_visitEntry {patterns : List Glob.Pattern} {deeper : Stage → List Finding}
    {s : Stage} {name : Name} {path : Path} :
    Finding.file path ∈ s.visitEntry t o patterns deeper name ↔
      ((∃ l, s.entry t name = .file l) ∧ path = s.path.join ⟨name⟩ ∧
        Ignore.drops s.layers (s.trail ++ [name]) false = false ∧
        Extension.nameMatches name o.extensions = true) ∨
      ∃ l, (s.entry t name = .directory l ∧ ∃ m, t.locate (s.path.join ⟨name⟩) = .ok m) ∧
        Ignore.drops s.layers (s.trail ++ [name]) true = false ∧
        isExcluded patterns name = false ∧ Finding.file path ∈ deeper (s.enter t o name l) := by
  unfold Stage.visitEntry
  cases hentry : s.entry t name with
  | unreadable cause => simp
  | loop ancestor => simp
  | file l =>
      cases hdrops : Ignore.drops s.layers (s.trail ++ [name]) false <;>
        cases hmatches : Extension.nameMatches name o.extensions <;> simp
  | directory l =>
      cases hdrops : Ignore.drops s.layers (s.trail ++ [name]) true <;>
        cases hexcluded : isExcluded patterns name <;>
        cases hlocate : t.locate (s.path.join ⟨name⟩) <;> simp

theorem file_mem_visit_succ {patterns : List Glob.Pattern} {fuel : Nat} {s : Stage}
    {path : Path} :
    Finding.file path ∈ visit t o patterns (fuel + 1) s ↔
      ∃ name ∈ t.names s.location,
        Finding.file path ∈ s.visitEntry t o patterns (visit t o patterns fuel) name := by
  rw [visit, List.mem_flatMap]

/-- Entering a directory goes one step on the way. -/
theorem Reached.enter {names : List Name} {s : Stage} (h : Reached t o root names s)
    {name : Name} {l : Location} (hname : name ∈ t.names s.location)
    (hleads : t.locate (under root (names ++ [name])) = .ok l)
    (hdir : t.isDirectoryAt l = true)
    (hloop : ∀ target, t.node? (s.location ++ [name]) = some (.link target) →
      l ∉ s.ancestors.map Prod.snd) (hexcluded : ¬ Excluded o name) :
    Reached t o root (names ++ [name]) (s.enter t o name l) := by
  refine ⟨?_, .step h.enters hname hleads hdir hexcluded hloop⟩
  rw [under_append, ← h.path]
  rfl

/-! ## Visits without ignore rules -/

@[simp] theorem drops_nil (entry : Location) (isDirectory : Bool) :
    Ignore.drops [] entry isDirectory = false := rfl

section Plain

variable (hwf : t.WellFormed) (hplain : o.gitignore = false)

include hplain in
theorem layers_enter (s : Stage) (name : Name) (l : Location) :
    (s.enter t o name l).layers = [] := by
  simp [Stage.enter, innerLayers, hplain]

include hwf in
/-- What a visit finds from a stage on, one step unfolded. -/
theorem Reached.file_mem_visit_iff {names : List Name} {s : Stage}
    (h : Reached t o root names s) (hlayers : s.layers = []) {fuel : Nat} {path : Path} :
    Finding.file path ∈ visit t o (validExcludes o.excludes) (fuel + 1) s ↔
      ∃ name ∈ t.names s.location,
        (path = under root (names ++ [name]) ∧ HoldsFile t path (s.location ++ [name]) ∧
          ∃ ext ∈ o.extensions, ext <:+ name) ∨
        ∃ l, t.locate (under root (names ++ [name])) = .ok l ∧ t.isDirectoryAt l = true ∧
          (∀ target, t.node? (s.location ++ [name]) = some (.link target) →
            l ∉ s.ancestors.map Prod.snd) ∧
          ¬ Excluded o name ∧
          Finding.file path ∈ visit t o (validExcludes o.excludes) fuel (s.enter t o name l) := by
  rw [file_mem_visit_succ]
  refine exists_congr fun name => and_congr_right fun hname => ?_
  have hpath : s.path.join ⟨name⟩ = under root (names ++ [name]) := by
    rw [under_append, h.path]
  rw [file_mem_visitEntry, entry_file_iff hwf hname, hlayers, drops_nil, nameMatches_iff]
  refine or_congr ?_ (exists_congr fun l => ?_)
  · rw [hpath]
    constructor
    · rintro ⟨hfile, rfl, -, hmatches⟩
      exact ⟨rfl, hfile, hmatches⟩
    · rintro ⟨rfl, hfile, hmatches⟩
      exact ⟨hfile, rfl, rfl, hmatches⟩
  · rw [entry_directory_iff hwf h.locate h.enters.isDirectory hname, hpath, drops_nil,
      isExcluded_eq_false_iff]
    simp only [and_assoc, true_and]

include hwf hplain in
theorem isSource_of_mem_visit {fuel : Nat} {path : Path} {names : List Name} {s : Stage}
    (h : Reached t o root names s) (hlayers : s.layers = [])
    (hmem : Finding.file path ∈ visit t o (validExcludes o.excludes) fuel s) :
    IsSource t o root path := by
  induction fuel generalizing names s with
  | zero => cases hmem
  | succ fuel ih =>
      obtain ⟨name, hname, ⟨hpath, hfile, hext⟩ | ⟨l, hleads, hdir, hloop, hexcluded, hdeeper⟩⟩ :=
        (h.file_mem_visit_iff hwf hlayers).1 hmem
      · exact ⟨names, s.location, _, name, h.enters, hname, hpath, hfile, hext⟩
      · exact ih (h.enter hname hleads hdir hloop hexcluded) (layers_enter hplain s name l) hdeeper

include hwf hplain in
/-- Every way through directories is visited, with depth to spare. -/
theorem Enters.visited {l₀ : Location} (hroot : t.locate root = .ok l₀)
    (hdir₀ : t.isDirectoryAt l₀ = true) {names : List Name} {l : Location}
    {above : List Location} (h : Enters t o root names l above) :
    ∃ s, Reached t o root names s ∧ s.layers = [] ∧ s.location = l ∧
      s.ancestors.map Prod.snd = above ∧
      ∀ path, Finding.file path ∈ visit t o (validExcludes o.excludes)
          (depthBound t - names.length) s →
        Finding.file path ∈ visit t o (validExcludes o.excludes) (depthBound t)
          (rootStage t o root l₀) := by
  induction h with
  | @root l hl hdir =>
      rw [hroot] at hl
      cases hl
      refine ⟨rootStage t o root l₀, reached_rootStage hroot hdir₀, ?_, rfl, rfl, fun _ => id⟩
      simp [rootStage, innerLayers, hplain]
  | @step names l above name m hway hname hleads hdir hexcluded hloop ih =>
      obtain ⟨s, hreached, hlayers, rfl, rfl, hvisit⟩ := ih
      have hdepth := hway.length_lt_depthBound hwf
      obtain ⟨fuel, hfuel⟩ : ∃ fuel, depthBound t - names.length = fuel + 1 :=
        ⟨depthBound t - names.length - 1, by omega⟩
      have hless : depthBound t - (names ++ [name]).length = fuel := by
        rw [List.length_append, List.length_singleton]
        omega
      refine ⟨s.enter t o name m, hreached.enter hname hleads hdir hloop hexcluded,
        layers_enter hplain s name m, rfl, rfl, fun path hpath => hvisit path ?_⟩
      rw [hless] at hpath
      rw [hfuel, hreached.file_mem_visit_iff hwf hlayers]
      exact ⟨name, hname, Or.inr ⟨m, hleads, hdir, hloop, hexcluded, hpath⟩⟩

include hwf hplain in
/-- A visit of the root comes upon the source files and no others. -/
theorem file_mem_visit_root_iff {l : Location} (hroot : t.locate root = .ok l)
    (hdir : t.isDirectoryAt l = true) {path : Path} :
    Finding.file path ∈ visit t o (validExcludes o.excludes) (depthBound t)
        (rootStage t o root l) ↔ IsSource t o root path := by
  constructor
  · refine isSource_of_mem_visit hwf hplain (reached_rootStage hroot hdir) ?_
    simp [rootStage, innerLayers, hplain]
  · rintro ⟨names, m, above, name, hway, hname, hpath, hfile, hext⟩
    have hdepth := hway.length_lt_depthBound hwf
    obtain ⟨s, hreached, hlayers, rfl, rfl, hvisit⟩ := hway.visited hwf hplain hroot hdir
    obtain ⟨fuel, hfuel⟩ : ∃ fuel, depthBound t - names.length = fuel + 1 :=
      ⟨depthBound t - names.length - 1, by omega⟩
    refine hvisit path ?_
    rw [hfuel, hreached.file_mem_visit_iff hwf hlayers]
    exact ⟨name, hname, Or.inl ⟨hpath, hfile, hext⟩⟩

end Plain

/-! ## No file twice -/

theorem mem_filterMap_file? {found : List Finding} {path : Path} :
    path ∈ found.filterMap Finding.file? ↔ Finding.file path ∈ found := by
  rw [List.mem_filterMap]
  constructor
  · rintro ⟨finding, hmem, hfile⟩
    cases finding with
    | file p =>
        cases hfile
        exact hmem
    | notice n => cases hfile
  · intro hmem
    exact ⟨_, hmem, rfl⟩

theorem nodup_names (t : FileTree) (l : Location) : (t.names l).Nodup := by
  have hall : ∀ (n : Nat) (names : List Name), names.length ≤ n → names.eraseDups.Nodup := by
    intro n
    induction n with
    | zero =>
        intro names hlength
        rw [List.eq_nil_of_length_eq_zero (Nat.le_zero.1 hlength)]
        exact List.nodup_nil
    | succ n ih =>
        intro names hlength
        cases names with
        | nil => exact List.nodup_nil
        | cons name rest =>
            rw [List.eraseDups_cons, List.nodup_cons]
            refine ⟨by simp, ih _ ?_⟩
            exact Nat.le_trans (List.length_filter_le _ rest) (Nat.le_of_succ_le_succ hlength)
  exact hall _ _ (Nat.le_refl _)

section Once

variable (hwf : t.WellFormed) {patterns : List Glob.Pattern}
include hwf

theorem components_join_entry {s : Stage} (hs : s.path.text ≠ []) {name : Name} {l : Location}
    (hname : name ∈ t.names l) :
    (s.path.join ⟨name⟩).components = s.path.components ++ [.name name] := by
  have hvalid := validName_of_mem_names hwf hname
  exact Path.components_join_name hs hvalid.filled hvalid.notDot hvalid.notDots hvalid.noSlash

/-- What is found in an entry lies at or below it. -/
theorem components_of_mem_visitEntry {fuel : Nat} {s : Stage} (hs : s.path.text ≠ [])
    {name : Name} (hname : name ∈ t.names s.location) {path : Path}
    (h : Finding.file path ∈ s.visitEntry t o patterns (visit t o patterns fuel) name) :
    s.path.components ++ [.name name] <+: path.components := by
  induction fuel generalizing s name with
  | zero =>
      rcases file_mem_visitEntry.1 h with ⟨-, hpath, -⟩ | ⟨l, -, -, -, hdeeper⟩
      · rw [hpath, components_join_entry hwf hs hname]
      · cases hdeeper
  | succ fuel ih =>
      rcases file_mem_visitEntry.1 h with ⟨-, hpath, -⟩ | ⟨l, -, -, -, hdeeper⟩
      · rw [hpath, components_join_entry hwf hs hname]
      · obtain ⟨next, hnext, hmem⟩ := file_mem_visit_succ.1 hdeeper
        have hvalid := validName_of_mem_names hwf hname
        have hpath : (s.enter t o name l).path.text ≠ [] :=
          Path.join_name_text_ne_nil s.path hvalid.filled hvalid.noSlash
        have hdeep := ih hpath hnext hmem
        have hcomponents : (s.enter t o name l).path.components =
            s.path.components ++ [.name name] := components_join_entry hwf hs hname
        rw [hcomponents] at hdeep
        exact (List.prefix_append _ _).trans hdeep

omit hwf in
theorem nodup_visitEntry {deeper : Stage → List Finding} {s : Stage} {name : Name}
    (hdeeper : ∀ l, (((deeper (s.enter t o name l)).filterMap Finding.file?).map
      Path.components).Nodup) :
    (((s.visitEntry t o patterns deeper name).filterMap Finding.file?).map
      Path.components).Nodup := by
  unfold Stage.visitEntry
  split
  · exact List.nodup_nil
  · exact List.nodup_nil
  · split
    · exact List.nodup_nil
    split
    · exact List.nodup_singleton _
    · exact List.nodup_nil
  · split
    · exact List.nodup_nil
    split
    · exact List.nodup_nil
    split
    · exact List.nodup_nil
    · exact hdeeper _

/-- A visit comes upon no two files with the same components. -/
theorem nodup_visit {fuel : Nat} {s : Stage} (hs : s.path.text ≠ []) :
    (((visit t o patterns fuel s).filterMap Finding.file?).map Path.components).Nodup := by
  induction fuel generalizing s with
  | zero => exact List.nodup_nil
  | succ fuel ih =>
      rw [visit, List.filterMap_flatMap, List.map_flatMap, List.nodup_flatMap]
      constructor
      · intro name hname
        have hvalid := validName_of_mem_names hwf hname
        exact nodup_visitEntry fun l =>
          ih (Path.join_name_text_ne_nil s.path hvalid.filled hvalid.noSlash)
      · refine (nodup_names t s.location).imp_of_mem fun {a b} ha hb hne => ?_
        intro components hleft hright
        obtain ⟨p, hp, rfl⟩ := List.mem_map.1 hleft
        obtain ⟨q, hq, hpq⟩ := List.mem_map.1 hright
        have hleft := components_of_mem_visitEntry hwf hs ha (mem_filterMap_file?.1 hp)
        have hright := components_of_mem_visitEntry hwf hs hb (mem_filterMap_file?.1 hq)
        rw [hpq] at hright
        have hsame := List.IsPrefix.eq_of_length
          (List.prefix_of_prefix_length_le hleft hright (by simp)) (by simp)
        simp only [List.append_cancel_left_eq, List.cons.injEq, Path.Component.name.injEq,
          and_true] at hsame
        exact hne hsame

end Once

end SourceGauge.Discovery
