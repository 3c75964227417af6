import SourceGauge.Proofs.DirectoryVisits
import SourceGauge.Proofs.PathOrder

/-!
# What discovery gives

Without ignore rules, discovery gives the source files below its root, each once and in strictly
increasing order. The order in which directories list their entries has no part in it.
-/

namespace SourceGauge.Discovery

variable {t other : FileTree} {o : Options} {root : Path}

/-! ## The order of entries -/

/-- Two trees that cannot be told apart but by the order of their entries. -/
structure Alike (t other : FileTree) : Prop where
  node? : ∀ l, t.node? l = other.node? l
  current : t.current = other.current
  names : ∀ l name, name ∈ t.names l ↔ name ∈ other.names l

theorem Alike.symm (h : Alike t other) : Alike other t :=
  ⟨fun l => (h.node? l).symm, h.current.symm, fun l name => (h.names l name).symm⟩

theorem Alike.isDirectoryAt (h : Alike t other) (l : Location) :
    t.isDirectoryAt l = other.isDirectoryAt l := by
  rw [FileTree.isDirectoryAt, FileTree.isDirectoryAt, h.node?]

theorem Alike.locate (h : Alike t other) (p : Path) : t.locate p = other.locate p :=
  FileTree.locate_congr h.node? h.current p

theorem alike_of_perm (hwf : t.WellFormed) (hentries : other.entries.Perm t.entries)
    (hcurrent : other.current = t.current) : Alike t other := by
  have hunique : (other.entries.map Prod.fst).Nodup :=
    (hentries.map Prod.fst).nodup_iff.2 hwf.unique
  refine ⟨fun l => ?_, hcurrent.symm, fun l name => ?_⟩
  · unfold FileTree.node?
    by_cases hl : l = []
    · rw [if_pos hl, if_pos hl]
    · rw [if_neg hl, if_neg hl]
      refine Option.ext fun n => ?_
      rw [lookup_eq_some_iff_mem hwf.unique, lookup_eq_some_iff_mem hunique, hentries.mem_iff]
  · simp only [FileTree.mem_names, hentries.mem_iff]

theorem Alike.wellFormed (h : Alike t other) (hwf : t.WellFormed)
    (hentries : other.entries.Perm t.entries) : other.WellFormed where
  unique := (hentries.map Prod.fst).nodup_iff.2 hwf.unique
  named := fun e he => hwf.named e (hentries.mem_iff.1 he)
  housed := fun e he => by
    rw [← h.isDirectoryAt]
    exact hwf.housed e (hentries.mem_iff.1 he)

theorem Enters.congr (h : Alike t other) {names : List Name} {l : Location}
    {above : List Location} (hway : Enters t o root names l above) :
    Enters other o root names l above := by
  induction hway with
  | root hroot hdir =>
      rw [h.locate] at hroot
      rw [h.isDirectoryAt] at hdir
      exact .root hroot hdir
  | step hway hname hleads hdir hexcluded hloop ih =>
      rw [h.names] at hname
      rw [h.locate] at hleads
      rw [h.isDirectoryAt] at hdir
      refine .step ih hname hleads hdir hexcluded fun target htarget => hloop target ?_
      rw [h.node?]
      exact htarget

theorem IsSource.congr (h : Alike t other) {path : Path} (hsource : IsSource t o root path) :
    IsSource other o root path := by
  obtain ⟨names, l, above, name, hway, hname, hpath, hfile, hext⟩ := hsource
  refine ⟨names, l, above, name, hway.congr h, (h.names l name).1 hname, hpath, ?_, hext⟩
  simpa only [HoldsFile, h.node?, h.locate] using hfile

theorem isSource_congr (h : Alike t other) {path : Path} :
    IsSource t o root path ↔ IsSource other o root path :=
  ⟨.congr h, .congr h.symm⟩

/-! ## The files of a discovery -/

theorem discover_lists (hwf : t.WellFormed) (hroot : t.isDirectory root = true)
    (hdash : root.components ≠ (Path.ofString "-").components) (hplain : o.gitignore = false) :
    ∃ files notices, discover t o root = .ok (files, notices) ∧
      (∀ path, path ∈ files ↔ IsSource t o root path) ∧
      files.Pairwise fun p q => p.byteOrder q = .lt := by
  obtain ⟨l, hlocate, hdir, hne, hdiscover⟩ := discover_of_isDirectory hroot
  have hfindings : findings t o root l =
      visit t o (validExcludes o.excludes) (depthBound t) (rootStage t o root l) := by
    have hnot : isDash root = false := beq_false_of_ne hdash
    simp [findings, hnot]
  refine ⟨_, _, hdiscover o, ?_, ?_⟩
  · intro path
    rw [Path.mem_sort, mem_filterMap_file?, hfindings,
      file_mem_visit_root_iff hwf hplain hlocate hdir]
  · rw [hfindings]
    exact Path.pairwise_lt_sort (nodup_visit hwf hne)

/-- Discovery gives the source files, in strictly increasing order, and whatever order the
directories list their entries in. -/
theorem discover_exact (t : FileTree) (o : Options) (root : Path) (hwf : t.WellFormed)
    (hroot : t.isDirectory root = true)
    (hdash : root.components ≠ (Path.ofString "-").components) (hplain : o.gitignore = false) :
    ∃ files notices, discover t o root = .ok (files, notices) ∧
      (∀ path, path ∈ files ↔ IsSource t o root path) ∧
      (files.Pairwise fun p q => p.byteOrder q = .lt) ∧
      ∀ other : FileTree, other.entries.Perm t.entries → other.current = t.current →
        ∃ others, discover other o root = .ok (files, others) := by
  obtain ⟨files, notices, hdiscover, hfiles, hincreasing⟩ :=
    discover_lists hwf hroot hdash hplain
  refine ⟨files, notices, hdiscover, hfiles, hincreasing, fun other hentries hcurrent => ?_⟩
  have halike := alike_of_perm hwf hentries hcurrent
  have hroot' : other.isDirectory root = true := by
    rw [FileTree.isDirectory, ← halike.locate]
    simp only [← halike.isDirectoryAt]
    exact hroot
  obtain ⟨files', notices', hdiscover', hfiles', hincreasing'⟩ :=
    discover_lists (halike.wellFormed hwf hentries) hroot' hdash hplain
  have hsame : files' = files := by
    refine Path.eq_of_pairwise_lt hincreasing' hincreasing fun path => ?_
    rw [hfiles', hfiles, isSource_congr halike]
  exact ⟨notices', hsame ▸ hdiscover'⟩

/-- A directory with a link to itself, and one that is not to be entered. -/
def linkedTree : FileTree where
  entries :=
    [(["src".toList], .directory), (["src".toList, "b.ts".toList], .file []),
      (["src".toList, "a.js".toList], .link (.ofString "b.ts")),
      (["src".toList, "again".toList], .link (.ofString "../src")),
      (["src".toList, "dist".toList], .directory),
      (["src".toList, "dist".toList, "c.js".toList], .file [])]
  current := []

theorem discover_exact_linked :
    linkedTree.WellFormed ∧ linkedTree.isDirectory (.ofString "src/") = true ∧
    ∀ path, IsSource linkedTree ⟨[".js".toList], ["d*t".toList], false⟩ (.ofString "src/") path ↔
      path = .ofString "src/a.js" := by
  have hwf : linkedTree.WellFormed := by decide +kernel
  have hroot : linkedTree.isDirectory (.ofString "src/") = true := by decide +kernel
  obtain ⟨files, notices, hdiscover, hfiles, -, -⟩ :=
    discover_exact linkedTree ⟨[".js".toList], ["d*t".toList], false⟩ (.ofString "src/") hwf
      hroot (by decide +kernel) rfl
  have hvalue : (discover linkedTree ⟨[".js".toList], ["d*t".toList], false⟩
      (.ofString "src/")).toOption.map Prod.fst = some [.ofString "src/a.js"] := by
    decide +kernel
  rw [hdiscover] at hvalue
  cases hvalue
  refine ⟨hwf, hroot, fun path => ?_⟩
  rw [← hfiles, List.mem_singleton]

/-- A directory whose name is a dash. -/
def dashTree : FileTree where
  entries := [(["-".toList], .directory), (["-".toList, "a.js".toList], .file [])]
  current := []

/-- A root that is a dash with a slash behind it has the components of a lone dash, so that
nothing below it is found. -/
theorem dash_with_slash_holds_no_files :
    dashTree.WellFormed ∧ dashTree.isDirectory (.ofString "-/") = true ∧
    Path.ofString "-/" ≠ .ofString "-" ∧
    IsSource dashTree ⟨[".js".toList], [], false⟩ (.ofString "-/") (.ofString "-/a.js") ∧
    discover dashTree ⟨[".js".toList], [], false⟩ (.ofString "-/") = .ok ([], []) := by
  refine ⟨by decide +kernel, by decide +kernel, by decide +kernel, ?_, by decide +kernel⟩
  refine ⟨[], ["-".toList], [["-".toList]], "a.js".toList,
    .root (by decide +kernel) (by decide +kernel), by decide +kernel, by decide +kernel,
    Or.inl ⟨[], by decide +kernel⟩, ".js".toList, by simp, by decide +kernel⟩

end SourceGauge.Discovery
