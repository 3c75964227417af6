import SourceGauge.Proofs.DirectoryVisits

/-!
# Visits end

A visit is followed without a bound on its depth, entry by entry. Plain directories are entered
whether or not they are being visited already, as happens behind a link to a directory above the
root; only links are checked. That suffices: a link uses up one of finitely many directories, and
between two links locations get longer. So each visit has one finite course, and the visit with a
depth bound takes it.
-/

namespace SourceGauge.Discovery

variable {t : FileTree} {o : Options}

/-! ## Ways down -/

/-- What lies one step below a directory, given the directories on the way to it. Only a link is
checked against the way. -/
inductive Below (t : FileTree) (above : List Location) (l : Location) (name : Name) :
    Location → Prop where
  | plain (hnode : t.node? (l ++ [name]) = some .directory) : Below t above l name (l ++ [name])
  | link {target : Path} {m : Location} (hnode : t.node? (l ++ [name]) = some (.link target))
      (hdir : t.isDirectoryAt m = true) (hfresh : m ∉ above) : Below t above l name m

/-- Directories that lie below one another, innermost first. -/
inductive Way (t : FileTree) (start : Location) : List Location → Prop where
  | start : Way t start [start]
  | step {above : List Location} {l m : Location} {name : Name} (hway : Way t start (l :: above))
      (hbelow : Below t (l :: above) l name m) : Way t start (m :: l :: above)

theorem Below.rank_lt {above : List Location} {l m : Location} {name : Name}
    (h : Below t above l name m) : rank t (m :: above) m < rank t above l := by
  cases h with
  | plain hnode => exact rank_lt_of_plain (FileTree.mem_of_node? (by simp) hnode) _
  | link hnode hdir hfresh => exact rank_lt_of_link hdir hfresh

theorem Way.rank_add_length {start l : Location} {above : List Location}
    (h : Way t start (l :: above)) :
    rank t (l :: above) l + above.length ≤
      (t.entries.length + 1) * (longest t + 1) + longest t := by
  generalize hway : l :: above = way at h
  induction h generalizing l above with
  | start =>
      cases hway
      exact rank_le t [start] start
  | step hway' hbelow ih =>
      cases hway
      have hrank := hbelow.rank_lt
      have hlength := ih rfl
      rw [List.length_cons]
      omega

theorem rank_lt_depthBound (t : FileTree) (above : List Location) (l : Location) :
    rank t above l < depthBound t := by
  have hrank := rank_le t above l
  have hbound := depthBound_eq t
  omega

theorem Way.length_le {start : Location} {way : List Location} (h : Way t start way) :
    way.length ≤ depthBound t := by
  cases way with
  | nil => exact Nat.zero_le _
  | cons l above =>
      have hlength := h.rank_add_length
      have hbound := depthBound_eq t
      rw [List.length_cons]
      omega

/-! ## Courses of visits -/

/-- The directory that a visit enters under a name: it lies below, nothing keeps the visit out,
and its path can be opened. -/
structure Stage.Descends (t : FileTree) (o : Options) (s : Stage) (name : Name) (m : Location) :
    Prop where
  below : Below t (s.ancestors.map Prod.snd) s.location name m
  kept : Ignore.drops s.layers (s.trail ++ [name]) true = false
  wanted : ¬ Excluded o name
  opened : ∃ x, t.locate (s.path.join ⟨name⟩) = .ok x ∧
    ∀ target, t.node? (s.location ++ [name]) = some (.link target) → x = m

/-- The course of a visit through names of a directory: the paths of all entries it looks at, in
order, and what it comes upon. -/
inductive Visits (t : FileTree) (o : Options) :
    Stage → List Name → List Path → List Finding → Prop where
  | done {s : Stage} : Visits t o s [] [] []
  | pass {s : Stage} {name : Name} {names : List Name} {visited : List Path}
      {found : List Finding} (hstays : ∀ m, ¬ s.Descends t o name m)
      (hrest : Visits t o s names visited found) :
      Visits t o s (name :: names) (s.path.join ⟨name⟩ :: visited)
        (s.visitEntry t o (validExcludes o.excludes) (fun _ => []) name ++ found)
  | enter {s : Stage} {name : Name} {names : List Name} {m : Location}
      {visited inner : List Path} {found foundInside : List Finding}
      (hdescends : s.Descends t o name m)
      (hinner : Visits t o (s.enter t o name m) (t.names m) inner foundInside)
      (hrest : Visits t o s names visited found) :
      Visits t o s (name :: names) (s.path.join ⟨name⟩ :: inner ++ visited)
        (foundInside ++ found)

section Entry

variable {s : Stage} {name : Name} {m : Location}

theorem Stage.Descends.entry (h : s.Descends t o name m) : s.entry t name = .directory m := by
  obtain ⟨x, hx, hlink⟩ := h.opened
  cases h.below with
  | plain hnode =>
      have hdir : t.isDirectoryAt (s.location ++ [name]) = true :=
        FileTree.isDirectoryAt_iff.2 hnode
      exact (entry_directory_iff_of_plain hnode (by simp)).2 ⟨rfl, hdir⟩
  | link hnode hdir hfresh =>
      cases hlink _ hnode
      exact (entry_directory_iff_of_link hnode hx).2 ⟨rfl, hdir, hfresh⟩

theorem below_of_entry (hname : name ∈ t.names s.location)
    (h : s.entry t name = .directory m) {x : Location}
    (hx : t.locate (s.path.join ⟨name⟩) = .ok x) :
    Below t (s.ancestors.map Prod.snd) s.location name m ∧
      ∀ target, t.node? (s.location ++ [name]) = some (.link target) → x = m := by
  obtain ⟨n, hn⟩ := node?_of_mem_names hname
  by_cases hlink : ∃ target, n = .link target
  · obtain ⟨target, rfl⟩ := hlink
    obtain ⟨rfl, hdir, hfresh⟩ := (entry_directory_iff_of_link hn hx).1 h
    exact ⟨.link hn hdir hfresh, fun _ _ => rfl⟩
  · have hplain := not_exists.1 hlink
    obtain ⟨rfl, hdir⟩ := (entry_directory_iff_of_plain hn hplain).1 h
    refine ⟨.plain (FileTree.isDirectoryAt_iff.1 hdir), fun target htarget => ?_⟩
    rw [hn] at htarget
    exact absurd (Option.some.inj htarget) (hplain target)

theorem Stage.Descends.visitEntry (h : s.Descends t o name m) (deeper : Stage → List Finding) :
    s.visitEntry t o (validExcludes o.excludes) deeper name = deeper (s.enter t o name m) := by
  obtain ⟨x, hx, -⟩ := h.opened
  have hwanted := isExcluded_eq_false_iff.2 h.wanted
  simp [Stage.visitEntry, h.entry, h.kept, hwanted, hx]

/-- Where a visit goes no deeper, what it comes upon does not depend on what lies deeper. -/
theorem visitEntry_of_stays (hname : name ∈ t.names s.location)
    (h : ∀ m, ¬ s.Descends t o name m) (deeper deeper' : Stage → List Finding) :
    s.visitEntry t o (validExcludes o.excludes) deeper name =
      s.visitEntry t o (validExcludes o.excludes) deeper' name := by
  unfold Stage.visitEntry
  cases hentry : s.entry t name with
  | unreadable cause => rfl
  | loop ancestor => rfl
  | file l => rfl
  | directory m =>
      cases hkept : Ignore.drops s.layers (s.trail ++ [name]) true with
      | true => rfl
      | false =>
          cases hwanted : isExcluded (validExcludes o.excludes) name with
          | true => rfl
          | false =>
              cases hx : t.locate (s.path.join ⟨name⟩) with
              | error cause => rfl
              | ok x =>
                  obtain ⟨hbelow, hlink⟩ := below_of_entry hname hentry hx
                  have hnot := isExcluded_eq_false_iff.1 hwanted
                  exact absurd ⟨hbelow, hkept, hnot, x, hx, hlink⟩ (h m)

theorem Stage.Descends.unique {m' : Location} (h : s.Descends t o name m)
    (h' : s.Descends t o name m') : m = m' :=
  Entry.directory.inj (h.entry.symm.trans h'.entry)

end Entry

/-! ## One course -/

/-- A visit has at most one course. -/
theorem Visits.unique {s : Stage} {names : List Name} {visited visited' : List Path}
    {found found' : List Finding} (h : Visits t o s names visited found)
    (h' : Visits t o s names visited' found') : visited' = visited ∧ found' = found := by
  induction h generalizing visited' found' with
  | done =>
      cases h'
      exact ⟨rfl, rfl⟩
  | pass hstays hrest ih =>
      cases h' with
      | pass hstays' hrest' =>
          obtain ⟨rfl, rfl⟩ := ih hrest'
          exact ⟨rfl, rfl⟩
      | enter hdescends' hinner' hrest' => exact absurd hdescends' (hstays _)
  | enter hdescends hinner hrest ihinner ihrest =>
      cases h' with
      | pass hstays' hrest' => exact absurd hdescends (hstays' _)
      | enter hdescends' hinner' hrest' =>
          cases hdescends.unique hdescends'
          obtain ⟨rfl, rfl⟩ := ihinner hinner'
          obtain ⟨rfl, rfl⟩ := ihrest hrest'
          exact ⟨rfl, rfl⟩

/-- Through some names of a directory, given the courses through the directories below. -/
theorem exists_visits_names {s : Stage} {deeper : Stage → List Finding}
    (hdeeper : ∀ name m, s.Descends t o name m →
      ∃ inner, Visits t o (s.enter t o name m) (t.names m) inner (deeper (s.enter t o name m)))
    (names : List Name) (hnames : ∀ name ∈ names, name ∈ t.names s.location) :
    ∃ visited, Visits t o s names visited
      (names.flatMap (s.visitEntry t o (validExcludes o.excludes) deeper)) := by
  induction names with
  | nil => exact ⟨[], .done⟩
  | cons name names ih =>
      obtain ⟨visited, hrest⟩ := ih fun other hother => hnames other (List.mem_cons_of_mem _ hother)
      have hname := hnames name (List.mem_cons_self ..)
      rw [List.flatMap_cons]
      by_cases hdescends : ∃ m, s.Descends t o name m
      · obtain ⟨m, hm⟩ := hdescends
        obtain ⟨inner, hinner⟩ := hdeeper name m hm
        rw [hm.visitEntry]
        exact ⟨_, .enter hm hinner hrest⟩
      · have hstays := not_exists.1 hdescends
        rw [visitEntry_of_stays hname hstays deeper fun _ => []]
        exact ⟨_, .pass hstays hrest⟩

/-- A visit whose depth bound is above the rank of where it starts takes its whole course. -/
theorem exists_visits {fuel : Nat} {s : Stage}
    (hfuel : rank t (s.ancestors.map Prod.snd) s.location < fuel) :
    ∃ visited, Visits t o s (t.names s.location) visited
      (visit t o (validExcludes o.excludes) fuel s) := by
  induction fuel generalizing s with
  | zero => omega
  | succ fuel ih =>
      refine exists_visits_names (fun name m hdescends => ?_) _ fun _ => id
      have hrank := hdescends.below.rank_lt
      refine ih (s := s.enter t o name m) ?_
      simp only [Stage.enter, List.map_cons]
      omega

/-- Discovery in a directory ends, whatever the links in the tree: unless the root stands for an
input stream, what it gives comes from the one finite course of its visit. The check of links alone
bounds the depth. -/
theorem discovery_ends (t : FileTree) (o : Options) (root : Path)
    (hroot : t.isDirectory root = true) :
    ∃ l found, t.locate root = .ok l ∧
      discover t o root = .ok (Path.sort (found.filterMap Finding.file?),
        excludeNotices o.excludes ++ found.filterMap Finding.notice?) ∧
      (isDash root = true ∧ found = [] ∨
        isDash root = false ∧
          ∃ visited, Visits t o (rootStage t o root l) (t.names l) visited found ∧
            ∀ visited' found', Visits t o (rootStage t o root l) (t.names l) visited' found' →
              visited' = visited ∧ found' = found) ∧
      ∀ way, Way t l way → way.length ≤ depthBound t := by
  obtain ⟨l, hlocate, -, -, hdiscover⟩ := discover_of_isDirectory hroot
  refine ⟨l, findings t o root l, hlocate, hdiscover o, ?_, fun way hway => hway.length_le⟩
  cases hdash : isDash root with
  | true => exact Or.inl ⟨rfl, by simp [findings, hdash]⟩
  | false =>
      obtain ⟨visited, hvisits⟩ : ∃ visited, Visits t o (rootStage t o root l) (t.names l) visited
          (findings t o root l) := by
        rw [findings, hdash, if_neg Bool.false_ne_true]
        exact exists_visits (rank_lt_depthBound t _ _)
      exact Or.inr ⟨rfl, visited, hvisits, fun visited' found' h => hvisits.unique h⟩

/-- A directory with a link to the one above it. -/
def climbingTree : FileTree where
  entries :=
    [(["a".toList], .directory), (["a".toList, "x.js".toList], .file []),
      (["a".toList, "b".toList], .directory),
      (["a".toList, "b".toList, "up".toList], .link (.ofString ".."))]
  current := []

/-- Behind a link to the directory above the root, the visit enters the root once more and then
meets the link again. -/
theorem discovery_ends_above_root :
    climbingTree.isDirectory (.ofString "a/b") = true ∧
    Way climbingTree ["a".toList, "b".toList]
      [["a".toList, "b".toList], ["a".toList], ["a".toList, "b".toList]] ∧
    ∃ visited found, Visits climbingTree ⟨[".js".toList], [], false⟩
        (rootStage climbingTree ⟨[".js".toList], [], false⟩ (.ofString "a/b")
          ["a".toList, "b".toList]) ["up".toList] visited found ∧
      Path.sort (found.filterMap Finding.file?) = [.ofString "a/b/up/x.js"] ∧
      found.filterMap Finding.notice? =
        [.loop (.ofString "a/b/up/b/up") (.ofString "a/b/up")] := by
  have hroot : climbingTree.isDirectory (.ofString "a/b") = true := by decide +kernel
  have hup : climbingTree.node? (["a".toList, "b".toList] ++ ["up".toList]) =
      some (.link (.ofString "..")) := by decide +kernel
  have hdown : climbingTree.node? (["a".toList] ++ ["b".toList]) = some .directory := by
    decide +kernel
  refine ⟨hroot, ?_, ?_⟩
  · exact .step (.step .start (.link hup (by decide +kernel) (by decide +kernel))) (.plain hdown)
  · obtain ⟨l, found, hlocate, hdiscover, hcourse, -⟩ :=
      discovery_ends climbingTree ⟨[".js".toList], [], false⟩ (.ofString "a/b") hroot
    have hl : climbingTree.locate (.ofString "a/b") = .ok ["a".toList, "b".toList] := by
      decide +kernel
    have hvalue : discover climbingTree ⟨[".js".toList], [], false⟩ (.ofString "a/b") =
        .ok ([.ofString "a/b/up/x.js"],
          [.loop (.ofString "a/b/up/b/up") (.ofString "a/b/up")]) := by
      decide +kernel
    rw [hl] at hlocate
    cases hlocate
    rw [hdiscover] at hvalue
    obtain ⟨hfiles, hnotices⟩ := Prod.mk.inj (Except.ok.inj hvalue)
    rcases hcourse with ⟨hdash, -⟩ | ⟨-, visited, hvisits, -⟩
    · exact absurd hdash (by decide +kernel)
    · exact ⟨visited, found, hvisits, hfiles, hnotices⟩

end SourceGauge.Discovery
