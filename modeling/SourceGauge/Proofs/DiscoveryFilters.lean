import SourceGauge.Proofs.FileDiscovery

/-!
# Options as filters

A visit that honours ignore rules, leaves out more directories or looks for fewer extensions goes
the same ways as one that does not, only not all of them. Which directories lie on the way to a
file is told by its path. So what such options do during a visit is what a filter does to the list
that is found.
-/

namespace SourceGauge.Discovery

variable {t : FileTree} {o : Options} {root : Path}

/-- The names that lead from a root to a path below it, without the last. -/
def innerNames (root path : Path) : List Name :=
  (path.components.drop root.components.length).dropLast.filterMap fun
    | .name text => some text
    | _ => none

instance (o : Options) (name : Name) : Decidable (Excluded o name) :=
  decidable_of_iff _ isExcluded_iff

theorem innerNames_of_entry {path : Path} {c : Path.Component}
    (h : path.components = root.components ++ [c]) : innerNames root path = [] := by
  simp [innerNames, h]

theorem innerNames_of_below {child path : Path} {name : Name} {c : Path.Component}
    (hchild : child.components = root.components ++ [.name name])
    (h : child.components ++ [c] <+: path.components) :
    innerNames root path = name :: innerNames child path := by
  obtain ⟨rest, hrest⟩ := h
  have hinner : path.components.drop child.components.length = c :: rest := by
    rw [← hrest, List.append_assoc, List.drop_left]
    rfl
  have houter : path.components.drop root.components.length = .name name :: c :: rest := by
    rw [← hrest, hchild, List.append_assoc, List.append_assoc, List.drop_left]
    rfl
  simp [innerNames, hinner, houter]

theorem excluded_append {globs : List (List Char)} {name : Name} :
    Excluded { o with excludes := o.excludes ++ globs } name ↔
      Excluded o name ∨ Excluded { o with excludes := globs } name := by
  simp only [Excluded, List.mem_append, or_and_right, exists_or]

/-! ## Ignore rules -/

/-- A visit without ignore rules comes upon all that one with them does. -/
theorem file_mem_visit_unlayered {patterns : List Glob.Pattern} {fuel : Nat} {s : Stage}
    {path : Path}
    (h : Finding.file path ∈ visit t { o with gitignore := true } patterns fuel s) :
    Finding.file path ∈
      visit t { o with gitignore := false } patterns fuel { s with layers := [] } := by
  induction fuel generalizing s with
  | zero => cases h
  | succ fuel ih =>
      obtain ⟨name, hname, hentry⟩ := file_mem_visit_succ.1 h
      refine file_mem_visit_succ.2 ⟨name, hname, file_mem_visitEntry.2 ?_⟩
      rcases file_mem_visitEntry.1 hentry with
        ⟨hfile, hpath, -, hmatches⟩ | ⟨l, hdirectory, -, hwanted, hdeeper⟩
      · exact Or.inl ⟨hfile, hpath, rfl, hmatches⟩
      · exact Or.inr ⟨l, hdirectory, rfl, hwanted, ih hdeeper⟩

/-! ## Excluded directories -/

section Excluding

variable (hwf : t.WellFormed) {globs : List (List Char)} {path : Path}
include hwf

/-- What is found inside a directory that is entered lies below its path. -/
theorem below_of_mem_visit {patterns : List Glob.Pattern} {fuel : Nat} {s : Stage}
    (hs : s.path.text ≠ []) (h : Finding.file path ∈ visit t o patterns fuel s) :
    ∃ c, s.path.components ++ [c] <+: path.components := by
  cases fuel with
  | zero => cases h
  | succ fuel =>
      obtain ⟨name, hname, hentry⟩ := file_mem_visit_succ.1 h
      exact ⟨_, components_of_mem_visitEntry hwf hs hname hentry⟩

/-- The step: an entry is treated alike with more globs, unless it is a directory they match. -/
theorem file_mem_visitEntry_excluding {fuel : Nat} {s : Stage} (hs : s.path.text ≠ [])
    {name : Name} (hname : name ∈ t.names s.location)
    (hdeeper : ∀ l, Finding.file path ∈ visit t { o with excludes := o.excludes ++ globs }
        (validExcludes (o.excludes ++ globs)) fuel (s.enter t o name l) ↔
      Finding.file path ∈ visit t o (validExcludes o.excludes) fuel (s.enter t o name l) ∧
        ∀ inner ∈ innerNames (s.path.join ⟨name⟩) path,
          ¬ Excluded { o with excludes := globs } inner) :
    Finding.file path ∈ s.visitEntry t { o with excludes := o.excludes ++ globs }
        (validExcludes (o.excludes ++ globs))
        (visit t { o with excludes := o.excludes ++ globs }
          (validExcludes (o.excludes ++ globs)) fuel) name ↔
      Finding.file path ∈ s.visitEntry t o (validExcludes o.excludes)
          (visit t o (validExcludes o.excludes) fuel) name ∧
        ∀ inner ∈ innerNames s.path path, ¬ Excluded { o with excludes := globs } inner := by
  have hchild := components_join_entry hwf hs hname
  have hvalid := validName_of_mem_names hwf hname
  have hbelow : ∀ l, Finding.file path ∈ visit t o (validExcludes o.excludes) fuel
        (s.enter t o name l) →
      innerNames s.path path = name :: innerNames (s.path.join ⟨name⟩) path := by
    intro l hmem
    obtain ⟨c, hc⟩ := below_of_mem_visit hwf
      (Path.join_name_text_ne_nil s.path hvalid.filled hvalid.noSlash) hmem
    exact innerNames_of_below hchild hc
  have hmore : isExcluded (validExcludes (o.excludes ++ globs)) name = false ↔
      isExcluded (validExcludes o.excludes) name = false ∧
        ¬ Excluded { o with excludes := globs } name := by
    rw [isExcluded_eq_false_iff, ← not_or, ← excluded_append, ← isExcluded_eq_false_iff]
  rw [file_mem_visitEntry, file_mem_visitEntry, hmore]
  constructor
  · rintro (⟨hfile, hpath, hrest⟩ | ⟨l, hdirectory, hkept, ⟨hwanted, hname'⟩, hmem⟩)
    · refine ⟨Or.inl ⟨hfile, hpath, hrest⟩, ?_⟩
      rw [innerNames_of_entry (hpath ▸ hchild)]
      simp
    · obtain ⟨hmem, hinner⟩ := (hdeeper l).1 hmem
      refine ⟨Or.inr ⟨l, hdirectory, hkept, hwanted, hmem⟩, ?_⟩
      rw [hbelow l hmem, List.forall_mem_cons]
      exact ⟨hname', hinner⟩
  · rintro ⟨⟨hfile, hpath, hrest⟩ | ⟨l, hdirectory, hkept, hwanted, hmem⟩, hinner⟩
    · exact Or.inl ⟨hfile, hpath, hrest⟩
    · rw [hbelow l hmem, List.forall_mem_cons] at hinner
      exact Or.inr ⟨l, hdirectory, hkept, ⟨hwanted, hinner.1⟩, (hdeeper l).2 ⟨hmem, hinner.2⟩⟩

/-- More globs take away the files that lie in directories they match. -/
theorem file_mem_visit_excluding {fuel : Nat} {s : Stage} (hs : s.path.text ≠ []) :
    Finding.file path ∈ visit t { o with excludes := o.excludes ++ globs }
        (validExcludes (o.excludes ++ globs)) fuel s ↔
      Finding.file path ∈ visit t o (validExcludes o.excludes) fuel s ∧
        ∀ inner ∈ innerNames s.path path, ¬ Excluded { o with excludes := globs } inner := by
  induction fuel generalizing s with
  | zero => simp [visit]
  | succ fuel ih =>
      rw [file_mem_visit_succ, file_mem_visit_succ, ← exists_and_right]
      simp only [and_assoc]
      refine exists_congr fun name => and_congr_right fun hname => ?_
      have hvalid := validName_of_mem_names hwf hname
      exact file_mem_visitEntry_excluding hwf hs hname fun l =>
        ih (Path.join_name_text_ne_nil s.path hvalid.filled hvalid.noSlash)

end Excluding

/-! ## Extensions -/

/-- More extensions take nothing away. -/
theorem file_mem_visit_of_extensions {patterns : List Glob.Pattern} {exts more : List (List Char)}
    (hmore : ∀ ext ∈ exts, ext ∈ more) {fuel : Nat} {s : Stage} {path : Path}
    (h : Finding.file path ∈ visit t { o with extensions := exts } patterns fuel s) :
    Finding.file path ∈ visit t { o with extensions := more } patterns fuel s := by
  induction fuel generalizing s with
  | zero => cases h
  | succ fuel ih =>
      obtain ⟨name, hname, hentry⟩ := file_mem_visit_succ.1 h
      refine file_mem_visit_succ.2 ⟨name, hname, file_mem_visitEntry.2 ?_⟩
      rcases file_mem_visitEntry.1 hentry with
        ⟨hfile, hpath, hkept, hmatches⟩ | ⟨l, hdirectory, hkept, hwanted, hdeeper⟩
      · obtain ⟨ext, hext, hsuffix⟩ := nameMatches_iff.1 hmatches
        exact Or.inl ⟨hfile, hpath, hkept, nameMatches_iff.2 ⟨ext, hmore ext hext, hsuffix⟩⟩
      · exact Or.inr ⟨l, hdirectory, hkept, hwanted, ih hdeeper⟩

theorem nameMatches_append {name : Name} {exts exts' : List (List Char)} :
    Extension.nameMatches name (exts ++ exts') = true ↔
      Extension.nameMatches name exts = true ∨ Extension.nameMatches name exts' = true := by
  simp only [nameMatches_iff, List.mem_append, or_and_right, exists_or]

/-- A visit for two lists of extensions comes upon what the visits for one of them do. -/
theorem file_mem_visit_extensions {patterns : List Glob.Pattern} {exts exts' : List (List Char)}
    {fuel : Nat} {s : Stage} {path : Path} :
    Finding.file path ∈ visit t { o with extensions := exts ++ exts' } patterns fuel s ↔
      Finding.file path ∈ visit t { o with extensions := exts } patterns fuel s ∨
        Finding.file path ∈ visit t { o with extensions := exts' } patterns fuel s := by
  refine ⟨fun h => ?_, ?_⟩
  · induction fuel generalizing s with
    | zero => cases h
    | succ fuel ih =>
        obtain ⟨name, hname, hentry⟩ := file_mem_visit_succ.1 h
        simp only [file_mem_visit_succ]
        rcases file_mem_visitEntry.1 hentry with
          ⟨hfile, hpath, hkept, hmatches⟩ | ⟨l, hdirectory, hkept, hwanted, hdeeper⟩
        · refine (nameMatches_append.1 hmatches).imp (fun hmatches => ?_) fun hmatches => ?_
          · exact ⟨name, hname, file_mem_visitEntry.2 (Or.inl ⟨hfile, hpath, hkept, hmatches⟩)⟩
          · exact ⟨name, hname, file_mem_visitEntry.2 (Or.inl ⟨hfile, hpath, hkept, hmatches⟩)⟩
        · refine (ih hdeeper).imp (fun hmem => ?_) fun hmem => ?_
          · exact ⟨name, hname,
              file_mem_visitEntry.2 (Or.inr ⟨l, hdirectory, hkept, hwanted, hmem⟩)⟩
          · exact ⟨name, hname,
              file_mem_visitEntry.2 (Or.inr ⟨l, hdirectory, hkept, hwanted, hmem⟩)⟩
  · rintro (h | h)
    · exact file_mem_visit_of_extensions (fun ext => List.mem_append_left _) h
    · exact file_mem_visit_of_extensions (fun ext => List.mem_append_right _) h

/-! ## What is found -/

section Findings

variable {l : Location} {path : Path}

/-- A root that stands for an input stream holds no files under any options; else its visit is
the one to look at. -/
theorem file_mem_findings :
    Finding.file path ∈ findings t o root l ↔ isDash root = false ∧
      Finding.file path ∈ visit t o (validExcludes o.excludes) (depthBound t)
        (rootStage t o root l) := by
  cases hdash : isDash root <;> simp [findings, hdash]

theorem file_mem_findings_unlayered
    (h : Finding.file path ∈ findings t { o with gitignore := true } root l) :
    Finding.file path ∈ findings t { o with gitignore := false } root l := by
  obtain ⟨hdash, hmem⟩ := file_mem_findings.1 h
  exact file_mem_findings.2 ⟨hdash, file_mem_visit_unlayered hmem⟩

theorem file_mem_findings_excluding (hwf : t.WellFormed) (hne : root.text ≠ [])
    {globs : List (List Char)} :
    Finding.file path ∈ findings t { o with excludes := o.excludes ++ globs } root l ↔
      Finding.file path ∈ findings t o root l ∧
        ∀ name ∈ innerNames root path, ¬ Excluded { o with excludes := globs } name := by
  rw [file_mem_findings, file_mem_findings, and_assoc]
  exact and_congr_right fun _ => file_mem_visit_excluding hwf hne

theorem file_mem_findings_extensions {exts exts' : List (List Char)} :
    Finding.file path ∈ findings t { o with extensions := exts ++ exts' } root l ↔
      Finding.file path ∈ findings t { o with extensions := exts } root l ∨
        Finding.file path ∈ findings t { o with extensions := exts' } root l := by
  rw [file_mem_findings, file_mem_findings, file_mem_findings, ← and_or_left]
  exact and_congr_right fun _ => file_mem_visit_extensions

end Findings

/-- Options are filters: honouring ignore rules only takes away, more globs take away the files
in the directories they match, and more extensions add up. -/
theorem discovery_options_are_filters (t : FileTree) (root : Path) (hwf : t.WellFormed)
    (hroot : t.isDirectory root = true) :
    ∃ found : Options → List Path,
      (∀ o, ∃ notices, discover t o root = .ok (found o, notices)) ∧
      (∀ o, (found o).Pairwise fun p q => p.byteOrder q = .lt) ∧
      (∀ o : Options,
        (found { o with gitignore := true }).Sublist (found { o with gitignore := false })) ∧
      (∀ (o : Options) (globs : List (List Char)),
        found { o with excludes := o.excludes ++ globs } = (found o).filter fun path =>
          ∀ name ∈ innerNames root path, ¬ Excluded { o with excludes := globs } name) ∧
      ∀ (o : Options) (exts exts' : List (List Char)) (path : Path),
        path ∈ found { o with extensions := exts ++ exts' } ↔
          path ∈ found { o with extensions := exts } ∨
            path ∈ found { o with extensions := exts' } := by
  obtain ⟨l, -, -, hne, hdiscover⟩ := discover_of_isDirectory hroot
  have hmem : ∀ o path, path ∈ Path.sort ((findings t o root l).filterMap Finding.file?) ↔
      Finding.file path ∈ findings t o root l := by
    intro o path
    rw [Path.mem_sort, mem_filterMap_file?]
  have hsorted : ∀ o, (Path.sort ((findings t o root l).filterMap Finding.file?)).Pairwise
      fun p q => p.byteOrder q = .lt := by
    intro o
    refine Path.pairwise_lt_sort ?_
    unfold findings
    split
    · exact List.nodup_nil
    · exact nodup_visit hwf hne
  refine ⟨fun o => Path.sort ((findings t o root l).filterMap Finding.file?),
    fun o => ⟨_, hdiscover o⟩, hsorted, fun o => ?_, fun o globs => ?_, fun o exts exts' path => ?_⟩
  · refine Path.sublist_of_pairwise_lt (hsorted _) (hsorted _) fun path hpath => ?_
    rw [hmem] at hpath ⊢
    exact file_mem_findings_unlayered hpath
  · refine Path.eq_of_pairwise_lt (hsorted _) ((hsorted _).filter _) fun path => ?_
    rw [List.mem_filter, hmem, hmem, decide_eq_true_eq]
    exact file_mem_findings_excluding hwf hne
  · rw [hmem, hmem, hmem]
    exact file_mem_findings_extensions

/-- A directory with an ignore file that names one of its directories. -/
def ignoringTree : FileTree where
  entries :=
    [(["src".toList], .directory),
      (["src".toList, ".gitignore".toList], .file (Text.encode "gen/\n".toList)),
      (["src".toList, "gen".toList], .directory),
      (["src".toList, "gen".toList, "a.js".toList], .file []),
      (["src".toList, "lib".toList], .directory),
      (["src".toList, "lib".toList, "b.ts".toList], .file [])]
  current := []

/-- An ignored file, which a glob takes away as well, and a file with another extension. -/
theorem discovery_options_are_filters_each :
    ignoringTree.WellFormed ∧ ignoringTree.isDirectory (.ofString "src") = true ∧
    ∃ found : Options → List Path,
      found ⟨[".js".toList], [], false⟩ = [.ofString "src/gen/a.js"] ∧
      found ⟨[".js".toList], [], true⟩ = [] ∧
      found ⟨[".js".toList], [] ++ ["[".toList, "g*".toList], false⟩ = [] ∧
      found ⟨[".js".toList], [] ++ ["[".toList, "lib".toList], false⟩ =
        [.ofString "src/gen/a.js"] ∧
      ∀ path, path ∈ found ⟨[".js".toList] ++ [".ts".toList], [], false⟩ ↔
        path = .ofString "src/gen/a.js" ∨ path = .ofString "src/lib/b.ts" := by
  have hwf : ignoringTree.WellFormed := by decide +kernel
  have hroot : ignoringTree.isDirectory (.ofString "src") = true := by decide +kernel
  obtain ⟨found, hfound, -, -, hglobs, hexts⟩ :=
    discovery_options_are_filters ignoringTree (.ofString "src") hwf hroot
  have hvalue : ∀ o files, (discover ignoringTree o (.ofString "src")).toOption.map Prod.fst =
      some files → found o = files := by
    intro o files h
    obtain ⟨notices, hdiscover⟩ := hfound o
    rw [hdiscover] at h
    exact Option.some.inj h
  have hjs := hvalue ⟨[".js".toList], [], false⟩ [.ofString "src/gen/a.js"] (by decide +kernel)
  have hts := hvalue ⟨[".ts".toList], [], false⟩ [.ofString "src/lib/b.ts"] (by decide +kernel)
  refine ⟨hwf, hroot, found, hjs, hvalue _ _ (by decide +kernel), ?_, ?_, fun path => ?_⟩
  · rw [hglobs ⟨[".js".toList], [], false⟩, hjs]
    decide +kernel
  · rw [hglobs ⟨[".js".toList], [], false⟩, hjs]
    decide +kernel
  · rw [hexts ⟨[], [], false⟩, hjs, hts, List.mem_singleton, List.mem_singleton]

end SourceGauge.Discovery
