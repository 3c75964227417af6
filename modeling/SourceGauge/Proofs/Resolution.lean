import SourceGauge.FileTree.Write
import SourceGauge.Proofs.PathParts

/-!
# Where paths lead

Resolution of a path is a walk along its pieces. A walk along two runs of pieces is the walk along
the first, taken up where it stopped; so an entry of a directory is reached through every path
that leads to the directory. What a path leads to depends only on the nodes of the tree, and
filling a file turns no other path.
-/

namespace SourceGauge

/-- Where no key repeats, looking up is being in the list. -/
theorem lookup_eq_some_iff_mem {α β : Type} [BEq α] [LawfulBEq α] {entries : List (α × β)}
    (hunique : (entries.map Prod.fst).Nodup) {a : α} {b : β} :
    entries.lookup a = some b ↔ (a, b) ∈ entries := by
  rw [List.lookup_eq_some_iff]
  constructor
  · rintro ⟨before, after, rfl, -⟩
    exact List.mem_append_right before (List.mem_cons_self ..)
  · intro h
    obtain ⟨before, after, rfl⟩ := List.append_of_mem h
    refine ⟨before, after, rfl, fun e he => ?_⟩
    rw [List.map_append, List.map_cons, List.nodup_append] at hunique
    have hne := hunique.2.2 e.1 (List.mem_map_of_mem he) a (List.mem_cons_self ..)
    exact bne_iff_ne.2 (Ne.symm hne)

namespace FileTree

variable {t : FileTree}

/-! ## Nodes after a change -/

theorem lookup_replace (entries : List (Location × Node)) (l m : Location) (n : Node) :
    (entries.map fun e => if e.1 = l then (l, n) else e).lookup m =
      if m = l then (entries.lookup l).map fun _ => n else entries.lookup m := by
  induction entries with
  | nil => simp
  | cons e rest ih =>
      obtain ⟨k, node⟩ := e
      by_cases hk : k = l
      · subst hk
        by_cases hm : m = k
        · subst hm
          simp
        · simp [List.lookup_cons, hm, beq_false_of_ne hm, ih]
      · by_cases hm : m = l
        · subst hm
          have hbeq : (m == k) = false := beq_false_of_ne (Ne.symm hk)
          simp [List.lookup_cons, hk, hbeq, ih]
        · simp only [List.map_cons, hk, if_false, hm, List.lookup_cons, ih]

theorem isSome_lookup (entries : List (Location × Node)) (l : Location) :
    (entries.lookup l).isSome = entries.any (·.1 = l) := by
  induction entries with
  | nil => rfl
  | cons e rest ih =>
      obtain ⟨k, node⟩ := e
      by_cases hk : k = l
      · subst hk
        simp
      · have hbeq : (l == k) = false := beq_false_of_ne (Ne.symm hk)
        simp [List.lookup_cons, hk, hbeq, ih]

theorem mem_of_lookup {entries : List (Location × Node)} {l : Location} {n : Node}
    (h : entries.lookup l = some n) : (l, n) ∈ entries := by
  obtain ⟨before, after, hentries, -⟩ := List.lookup_eq_some_iff.1 h
  rw [hentries]
  simp

theorem exists_lookup_of_mem {entries : List (Location × Node)} {l : Location} {n : Node}
    (h : (l, n) ∈ entries) : ∃ node, entries.lookup l = some node := by
  rw [← Option.isSome_iff_exists, isSome_lookup, List.any_eq_true]
  exact ⟨_, h, by simp⟩

/-- Putting a node changes the tree at its location only. The top is always a directory. -/
theorem node?_put {l : Location} (hl : l ≠ []) (n : Node) (m : Location) :
    (t.put l n).node? m = if m = l then some n else t.node? m := by
  unfold put node?
  by_cases hm : m = []
  · subst hm
    rw [if_pos rfl, if_pos rfl, if_neg (Ne.symm hl)]
  · rw [if_neg hm, if_neg hm]
    have hsome := isSome_lookup t.entries l
    cases hany : t.entries.any (·.1 = l) with
    | true =>
        rw [hany, Option.isSome_iff_exists] at hsome
        obtain ⟨old, hold⟩ := hsome
        simp only [if_true, lookup_replace, hold, Option.map_some]
    | false =>
        rw [hany, Option.isSome_eq_false_iff, Option.isNone_iff_eq_none] at hsome
        simp only [Bool.false_eq_true, if_false, List.lookup_append, List.lookup_cons,
          List.lookup_nil]
        by_cases hml : m = l
        · subst hml
          simp [hsome]
        · have hbeq : (m == l) = false := beq_false_of_ne hml
          simp [hml, hbeq]

theorem current_put (l : Location) (n : Node) : (t.put l n).current = t.current := by
  unfold put
  split <;> rfl

/-! ## Walks along pieces -/

/-- Takes up a walk that stopped, with more pieces to go. -/
def Halt.resume (t : FileTree) (more : List Name) : Halt → Halt
  | .arrived l => t.advance l more
  | .link directory target rest => .link directory target (rest ++ more)
  | .missing directory name rest => .missing directory name (rest ++ more)
  | .failed cause => .failed cause

theorem advance_append (l : Location) (pieces more : List Name) :
    t.advance l (pieces ++ more) = (t.advance l pieces).resume t more := by
  induction pieces generalizing l with
  | nil => rfl
  | cons piece rest ih =>
      simp only [List.cons_append, advance]
      split
      · rfl
      split
      · exact ih l
      split
      · exact ih l.dropLast
      split
      · rfl
      split
      · rfl
      · rfl
      · exact ih (l ++ [piece])

/-- A walk is the same in two trees with the same nodes. -/
theorem advance_congr {other : FileTree} (h : ∀ l, t.node? l = other.node? l) (l : Location)
    (pieces : List Name) : t.advance l pieces = other.advance l pieces := by
  induction pieces generalizing l with
  | nil => rfl
  | cons piece rest ih =>
      simp only [advance, isDirectoryAt, h, ih]
      rfl

theorem follow_congr {other : FileTree} (h : ∀ l, t.node? l = other.node? l) (links : Nat)
    (l : Location) (pieces : List Name) :
    t.follow links l pieces = other.follow links l pieces := by
  induction links generalizing l pieces with
  | zero =>
      rw [follow, follow, advance_congr h]
  | succ links ih =>
      rw [follow, follow, advance_congr h]
      simp only [ih]

theorem locate_congr {other : FileTree} (h : ∀ l, t.node? l = other.node? l)
    (hcurrent : t.current = other.current) (p : Path) : t.locate p = other.locate p := by
  unfold locate halt
  rw [hcurrent]
  simp only [follow_congr h]

theorem follow_of_no_link {l : Location} {pieces : List Name}
    (h : ∀ directory target rest, t.advance l pieces ≠ .link directory target rest) (links : Nat) :
    t.follow links l pieces = t.advance l pieces := by
  rw [follow]
  split
  · rename_i directory target rest hlink
    exact absurd hlink (h directory target rest)
  · rfl

theorem follow_nil (links : Nat) (l : Location) : t.follow links l [] = .arrived l := by
  rw [follow, advance]

theorem follow_append_of_arrived {l m : Location} {pieces : List Name}
    (h : t.advance l pieces = .arrived m) (links : Nat) (more : List Name) :
    t.follow links l (pieces ++ more) = t.follow links m more := by
  rw [follow, advance_append, h, follow]
  rfl

theorem follow_of_link {l directory : Location} {target : Path} {pieces rest : List Name}
    (h : t.advance l pieces = .link directory target rest) (links : Nat) :
    t.follow (links + 1) l pieces =
      t.follow links (startOf directory target) (Text.splitOn '/' target.text ++ rest) := by
  rw [follow, h]

/-- A walk that arrives is cut anywhere: its first part arrives as well, and whatever comes next
is walked from there, with the links that are left. -/
theorem follow_split {links : Nat} {l m : Location} {pieces rest : List Name}
    (h : t.follow links l (pieces ++ rest) = .arrived m) :
    ∃ x, ∃ left ≤ links, ∀ more, t.follow links l (pieces ++ more) = t.follow left x more := by
  induction links generalizing l pieces with
  | zero =>
      cases ha : t.advance l pieces with
      | arrived x => exact ⟨x, 0, Nat.le_refl 0, follow_append_of_arrived ha 0⟩
      | link directory target tail => rw [follow, advance_append, ha] at h; cases h
      | missing directory name tail => rw [follow, advance_append, ha] at h; cases h
      | failed cause => rw [follow, advance_append, ha] at h; cases h
  | succ links ih =>
      cases ha : t.advance l pieces with
      | arrived x => exact ⟨x, links + 1, Nat.le_refl _, follow_append_of_arrived ha _⟩
      | link directory target tail =>
          have hresume : ∀ more,
              t.advance l (pieces ++ more) = .link directory target (tail ++ more) := by
            intro more
            rw [advance_append, ha]
            rfl
          rw [follow_of_link (hresume rest), ← List.append_assoc] at h
          obtain ⟨x, left, hleft, hmore⟩ := ih h
          refine ⟨x, left, Nat.le_succ_of_le hleft, fun more => ?_⟩
          rw [follow_of_link (hresume more), ← List.append_assoc]
          exact hmore more
      | missing directory name tail => rw [follow, advance_append, ha] at h; cases h
      | failed cause => rw [follow, advance_append, ha] at h; cases h

/-! ## Well-formed trees -/

/-- What may be the name of an entry. -/
structure ValidName (name : Name) : Prop where
  filled : name ≠ []
  notDot : name ≠ ['.']
  notDots : name ≠ ['.', '.']
  noSlash : '/' ∉ name
  noNul : ∀ c ∈ name, c.toNat ≠ 0
  short : (Text.encode name).length ≤ maxNameBytes

/-- What holds of the tables that stand for file trees. -/
structure WellFormed (t : FileTree) : Prop where
  /-- A location has one node. -/
  unique : (t.entries.map Prod.fst).Nodup
  named : ∀ e ∈ t.entries, ∀ name ∈ e.1, ValidName name
  /-- An entry is an entry of a directory. -/
  housed : ∀ e ∈ t.entries, t.isDirectoryAt e.1.dropLast = true

instance (name : Name) : Decidable (ValidName name) :=
  decidable_of_iff (name ≠ [] ∧ name ≠ ['.'] ∧ name ≠ ['.', '.'] ∧ '/' ∉ name ∧
    name.all (fun c => decide (c.toNat ≠ 0)) = true ∧ (Text.encode name).length ≤ maxNameBytes)
    ⟨fun h => ⟨h.1, h.2.1, h.2.2.1, h.2.2.2.1, by simpa using h.2.2.2.2.1, h.2.2.2.2.2⟩,
      fun h => ⟨h.filled, h.notDot, h.notDots, h.noSlash, by simpa using h.noNul, h.short⟩⟩

instance (t : FileTree) : Decidable t.WellFormed :=
  decidable_of_iff ((t.entries.map Prod.fst).Nodup ∧
    (∀ e ∈ t.entries, ∀ name ∈ e.1, ValidName name) ∧
    ∀ e ∈ t.entries, t.isDirectoryAt e.1.dropLast = true)
    ⟨fun h => ⟨h.1, h.2.1, h.2.2⟩, fun h => ⟨h.unique, h.named, h.housed⟩⟩

theorem mem_of_node? {l : Location} {n : Node} (hl : l ≠ []) (h : t.node? l = some n) :
    (l, n) ∈ t.entries := by
  rw [node?, if_neg hl] at h
  exact mem_of_lookup h

theorem isDirectoryAt_iff {l : Location} :
    t.isDirectoryAt l = true ↔ t.node? l = some .directory := by
  simp [isDirectoryAt]

/-- Something stands at the location that is not a link. -/
def Solid (t : FileTree) (l : Location) : Prop :=
  t.node? l = some .directory ∨ ∃ bytes, t.node? l = some (.file bytes)

theorem WellFormed.dropLast_isDirectory (hwf : t.WellFormed) {l : Location}
    (h : t.isDirectoryAt l = true) : t.isDirectoryAt l.dropLast = true := by
  by_cases hl : l = []
  · subst hl
    exact h
  · exact hwf.housed _ (mem_of_node? hl (isDirectoryAt_iff.1 h))

theorem isDirectoryAt_of_advance {l m : Location} {piece : Name} {rest : List Name}
    (h : t.advance l (piece :: rest) = .arrived m) : t.isDirectoryAt l = true := by
  rw [advance] at h
  by_contra hdir
  rw [Bool.not_eq_true] at hdir
  simp [hdir] at h

/-- A walk that arrives has set out from a directory. -/
theorem isDirectoryAt_of_follow {links : Nat} {l m : Location} {piece : Name} {rest : List Name}
    (h : t.follow links l (piece :: rest) = .arrived m) : t.isDirectoryAt l = true := by
  by_contra hdir
  rw [Bool.not_eq_true] at hdir
  rw [follow] at h
  simp [advance, hdir] at h

theorem solid_of_advance (hwf : t.WellFormed) {l m : Location} {pieces : List Name}
    (hl : t.Solid l) (h : t.advance l pieces = .arrived m) : t.Solid m := by
  induction pieces generalizing l with
  | nil =>
      cases h
      exact hl
  | cons piece rest ih =>
      have hdir := isDirectoryAt_of_advance h
      rw [advance] at h
      simp only [hdir, Bool.not_true, Bool.false_eq_true, if_false] at h
      split at h
      · exact ih hl h
      split at h
      · exact ih (Or.inl (isDirectoryAt_iff.1 (hwf.dropLast_isDirectory hdir))) h
      split at h
      · cases h
      split at h
      · cases h
      · cases h
      · rename_i n hlink hnode
        refine ih ?_ h
        cases n with
        | directory => exact Or.inl hnode
        | file bytes => exact Or.inr ⟨bytes, hnode⟩
        | link target => exact absurd rfl (hlink target)

theorem solid_of_follow (hwf : t.WellFormed) {links : Nat} {l m : Location} {pieces : List Name}
    (hne : pieces ≠ []) (h : t.follow links l pieces = .arrived m) : t.Solid m := by
  have hplain : ∀ l pieces, pieces ≠ [] → t.advance l pieces = .arrived m → t.Solid m := by
    intro l pieces hne h
    obtain ⟨piece, rest, rfl⟩ := List.exists_cons_of_ne_nil hne
    exact solid_of_advance hwf (Or.inl (isDirectoryAt_iff.1 (isDirectoryAt_of_advance h))) h
  induction links generalizing l pieces with
  | zero =>
      rw [follow] at h
      split at h
      · cases h
      · exact hplain l pieces hne h
  | succ links ih =>
      rw [follow] at h
      split at h
      · refine ih ?_ h
        simp [Text.splitOn_ne_nil]
      · exact hplain l pieces hne h

theorem locate_eq_ok_iff {p : Path} {l : Location} :
    t.locate p = .ok l ↔ t.halt p = .arrived l := by
  unfold locate
  cases t.halt p <;> simp

theorem halt_eq_arrived_iff {p : Path} {l : Location} :
    t.halt p = .arrived l ↔ pathFault? p = none ∧
      t.follow maxLinks (startOf t.current p) (Text.splitOn '/' p.text) = .arrived l := by
  unfold halt
  cases pathFault? p <;> simp

theorem locate_eq_ok_iff_follow {p : Path} {l : Location} :
    t.locate p = .ok l ↔ pathFault? p = none ∧
      t.follow maxLinks (startOf t.current p) (Text.splitOn '/' p.text) = .arrived l := by
  rw [locate_eq_ok_iff, halt_eq_arrived_iff]

/-- A path leads to a directory or a file. -/
theorem solid_of_locate (hwf : t.WellFormed) {p : Path} {l : Location} (h : t.locate p = .ok l) :
    t.Solid l :=
  solid_of_follow hwf (Text.splitOn_ne_nil '/' p.text) (locate_eq_ok_iff_follow.1 h).2

/-! ## Entries under their paths -/

theorem pathFault?_eq_none_iff {p : Path} :
    pathFault? p = none ↔ (∀ c ∈ p.text, c.toNat ≠ 0) ∧ p.text ≠ [] ∧
      (Text.encode p.text).length ≤ maxPathBytes := by
  unfold pathFault?
  split
  · rename_i hnul
    simp only [List.any_eq_true, decide_eq_true_eq] at hnul
    obtain ⟨c, hc, hzero⟩ := hnul
    simp only [reduceCtorEq, false_iff, not_and]
    intro hall
    exact absurd hzero (hall c hc)
  split
  · simp_all
  split
  · simp_all
  · simp_all

theorem pathFault?_join_name {p : Path} {name : Name} (hp : pathFault? p = none)
    (hname : ValidName name)
    (hroom : (Text.encode p.text).length + 1 + (Text.encode name).length ≤ maxPathBytes) :
    pathFault? (p.join ⟨name⟩) = none := by
  obtain ⟨hnul, hne, -⟩ := pathFault?_eq_none_iff.1 hp
  obtain ⟨s, hs, htext⟩ := Path.join_name_text hne hname.noSlash
  have hslash : '/'.toNat ≠ 0 := by decide
  have hwithin : (∀ c ∈ s, c.toNat ≠ 0) ∧ (Text.encode s).length ≤ (Text.encode p.text).length := by
    rcases hs with hs | hs
    · exact ⟨hs ▸ hnul, by rw [hs]⟩
    · rw [hs] at hnul
      refine ⟨fun c hc => hnul c (List.mem_append_left _ hc), ?_⟩
      rw [hs, Text.length_encode_append]
      omega
  refine pathFault?_eq_none_iff.2 ?_
  rw [htext, Text.length_encode_append, Text.length_encode_slash]
  refine ⟨?_, by simp, by omega⟩
  intro c hc
  rcases List.mem_append.1 hc with hc | hc
  · exact hwithin.1 c hc
  · rcases List.mem_cons.1 hc with rfl | hc
    · exact hslash
    · exact hname.noNul c hc

theorem startOf_join_name {p : Path} {name : Name} (hp : p.text ≠ []) (hslash : '/' ∉ name)
    (directory : Location) : startOf directory (p.join ⟨name⟩) = startOf directory p := by
  have habsolute : (p.join ⟨name⟩).isAbsolute = p.isAbsolute := by
    obtain ⟨s, hs, htext⟩ := Path.join_name_text hp hslash
    rcases hs with hs | hs
    · rw [hs] at hp
      obtain ⟨c, cs, hcs⟩ := List.exists_cons_of_ne_nil hp
      simp [Path.isAbsolute, htext, hs, hcs]
    · cases s <;> simp [Path.isAbsolute, htext, hs]
  rw [startOf, startOf, habsolute]

/-- An entry of a directory is looked up from there, whichever path leads to the directory. -/
theorem halt_join_name {p : Path} {name : Name} {d : Location} (hp : t.locate p = .ok d)
    (hslash : '/' ∉ name) (hfault : pathFault? (p.join ⟨name⟩) = none) :
    ∃ left ≤ maxLinks, t.halt (p.join ⟨name⟩) = t.follow left d [name] := by
  obtain ⟨hfault', hfollow⟩ := locate_eq_ok_iff_follow.1 hp
  have hne := (pathFault?_eq_none_iff.1 hfault').2.1
  obtain ⟨front, tail, hpieces, htail, hjoin⟩ := Path.splitOn_join_name hne hslash
  rw [hpieces] at hfollow
  obtain ⟨x, left, hleft, hmore⟩ := follow_split hfollow
  have hx : x = d := by
    rw [hmore tail, follow] at hfollow
    rcases htail with rfl | rfl
    · cases hfollow
      rfl
    · cases hdir : t.isDirectoryAt x with
      | true =>
          simp only [advance, hdir] at hfollow
          cases hfollow
          rfl
      | false =>
          simp only [advance, hdir] at hfollow
          cases hfollow
  refine ⟨left, hleft, ?_⟩
  rw [halt, hfault, startOf_join_name hne hslash, hjoin, hmore [name], hx]

theorem advance_name {d : Location} {name : Name} (hdir : t.isDirectoryAt d = true)
    (hname : ValidName name) :
    t.advance d [name] =
      match t.node? (d ++ [name]) with
      | none => .missing d name []
      | some (.link target) => .link d target []
      | some _ => .arrived (d ++ [name]) := by
  have hidle : Path.isIdle name = false := by
    simp [Path.isIdle, hname.filled, hname.notDot]
  have hshort : ¬ maxNameBytes < (Text.encode name).length := Nat.not_lt.2 hname.short
  rcases hnode : t.node? (d ++ [name]) with _ | (_ | _ | _) <;>
    simp only [advance, hdir, hidle, hname.notDots, hshort, hnode, Bool.not_true,
      Bool.false_eq_true, if_false]

/-! ## Trees without links -/

/-- A walk that meets no link leads where the spelling says. -/
theorem advance_lexical {l m : Location} {pieces : List Name}
    (h : t.advance l pieces = .arrived m) :
    m = ((pieces.filter (!Path.isIdle ·)).map Path.componentOf).foldl lexicalStep l := by
  induction pieces generalizing l with
  | nil =>
      cases h
      rfl
  | cons piece rest ih =>
      rw [advance] at h
      split at h
      · cases h
      split at h
      · rename_i hidle
        simpa [hidle] using ih h
      rename_i hidle
      split at h
      · rename_i hdots
        subst hdots
        have := ih h
        simpa [hidle, Path.componentOf, lexicalStep] using this
      rename_i hdots
      split at h
      · cases h
      split at h
      · cases h
      · cases h
      · have := ih h
        simpa [hidle, Path.componentOf, hdots, lexicalStep] using this

/-- No entry is a symbolic link. -/
def LinkFree (t : FileTree) : Prop := ∀ e ∈ t.entries, ∀ target, e.2 ≠ .link target

instance (t : FileTree) : Decidable t.LinkFree :=
  decidable_of_iff (t.entries.all fun e => match e.2 with | .link _ => false | _ => true) (by
    unfold LinkFree
    rw [List.all_eq_true]
    refine forall₂_congr fun e _ => ?_
    cases e.2 <;> simp)

theorem LinkFree.node?_ne_link (hfree : t.LinkFree) (l : Location) (target : Path) :
    t.node? l ≠ some (.link target) := by
  intro h
  by_cases hl : l = []
  · subst hl
    cases h
  · exact hfree _ (mem_of_node? hl h) target rfl

theorem LinkFree.advance_ne_link (hfree : t.LinkFree) (l : Location) (pieces : List Name)
    (directory : Location) (target : Path) (rest : List Name) :
    t.advance l pieces ≠ .link directory target rest := by
  induction pieces generalizing l with
  | nil => simp [advance]
  | cons piece tail ih =>
      rw [advance]
      split
      · simp
      split
      · exact ih l
      split
      · exact ih l.dropLast
      split
      · simp
      split
      · simp
      · rename_i hlink
        exact absurd hlink (hfree.node?_ne_link _ _)
      · exact ih (l ++ [piece])

theorem LinkFree.follow_eq (hfree : t.LinkFree) (links : Nat) (l : Location)
    (pieces : List Name) : t.follow links l pieces = t.advance l pieces :=
  follow_of_no_link (hfree.advance_ne_link l pieces) links

theorem startOf_eq_lexical (directory : Location) (p : Path) :
    startOf directory p = p.openingComponent.foldl lexicalStep directory := by
  cases habsolute : p.isAbsolute with
  | true =>
      obtain ⟨rest, htext⟩ : ∃ rest, p.text = '/' :: rest := by
        simpa [Path.isAbsolute, List.head?_eq_some_iff] using habsolute
      simp [startOf, habsolute, Path.openingComponent, Path.opening, htext, lexicalStep]
  | false =>
      rw [startOf, habsolute, if_neg Bool.false_ne_true, Path.openingComponent]
      rcases Path.opening_of_relative habsolute with hopening | htext | ⟨rest, htext⟩
      · simp [hopening]
      · simp [Path.opening, htext, lexicalStep]
      · simp [Path.opening, htext, lexicalStep]

theorem LinkFree.locate_lexical (hfree : t.LinkFree) {p : Path} {l : Location}
    (h : t.locate p = .ok l) : l = lexical t.current p := by
  obtain ⟨-, hfollow⟩ := locate_eq_ok_iff_follow.1 h
  rw [hfree.follow_eq] at hfollow
  rw [advance_lexical hfollow, lexical, Path.components_eq, List.foldl_append]
  rw [startOf_eq_lexical]
  rfl

/-! ## Filling a file -/

/-- Where a walk stops once there is a file at a location that held a file or nothing. -/
def Halt.fill (l : Location) : Halt → Halt
  | .missing directory name rest =>
      if directory ++ [name] = l then
        if rest.isEmpty then .arrived l else .failed .notDirectory
      else .missing directory name rest
  | halt => halt

/-- A location where a file may be put: it is not the top, and no directory or link is there. -/
def Fillable (t : FileTree) (l : Location) : Prop :=
  l ≠ [] ∧ (t.node? l = none ∨ ∃ bytes, t.node? l = some (.file bytes))

section Fill

variable {l : Location} {bytes : List UInt8}

theorem Fillable.isDirectoryAt (h : t.Fillable l) : t.isDirectoryAt l = false := by
  rcases h.2 with hnone | ⟨old, hfile⟩
  · simp [FileTree.isDirectoryAt, hnone]
  · simp [FileTree.isDirectoryAt, hfile]

theorem isDirectoryAt_put_file (hl : t.Fillable l) (m : Location) :
    (t.put l (.file bytes)).isDirectoryAt m = t.isDirectoryAt m := by
  unfold isDirectoryAt
  rw [node?_put hl.1]
  by_cases hm : m = l
  · subst hm
    rcases hl.2 with hnone | ⟨old, hfile⟩
    · simp [hnone]
    · simp [hfile]
  · rw [if_neg hm]

theorem advance_put_file (hl : t.Fillable l) (m : Location) (pieces : List Name) :
    (t.put l (.file bytes)).advance m pieces = (t.advance m pieces).fill l := by
  induction pieces generalizing m with
  | nil => rfl
  | cons piece rest ih =>
      simp only [advance, isDirectoryAt_put_file hl, ih, node?_put hl.1]
      split
      · rfl
      split
      · rfl
      split
      · rfl
      split
      · rfl
      by_cases hm : m ++ [piece] = l
      · have hfile := hl.isDirectoryAt
        rw [if_pos hm, hm]
        rcases hl.2 with hnone | ⟨old, hold⟩
        · cases rest with
          | nil => simp [hnone, Halt.fill, hm, advance]
          | cons next rest => simp [hnone, Halt.fill, hm, advance, hfile]
        · simp [hold]
      · rw [if_neg hm]
        split
        · simp [Halt.fill, hm]
        · rfl
        · rfl

theorem Halt.fill_eq_link_iff {halt : Halt} {directory : Location} {target : Path}
    {rest : List Name} :
    halt.fill l = .link directory target rest ↔ halt = .link directory target rest := by
  cases halt with
  | missing d name tail =>
      simp only [Halt.fill]
      split
      · split <;> simp
      · simp
  | arrived x => rfl
  | link d other tail => rfl
  | failed cause => rfl

theorem follow_put_file (hl : t.Fillable l) (links : Nat) (m : Location) (pieces : List Name) :
    (t.put l (.file bytes)).follow links m pieces = (t.follow links m pieces).fill l := by
  -- where no link is met, the walks are plain ones
  have hplain : ∀ links m pieces,
      (∀ directory target rest, t.advance m pieces ≠ .link directory target rest) →
      (t.put l (.file bytes)).follow links m pieces = (t.follow links m pieces).fill l := by
    intro links m pieces hlink
    rw [follow_of_no_link hlink, follow_of_no_link, advance_put_file hl]
    intro directory target rest
    rw [advance_put_file hl, ne_eq, Halt.fill_eq_link_iff]
    exact hlink directory target rest
  induction links generalizing m pieces with
  | zero =>
      by_cases hlink : ∃ directory target rest, t.advance m pieces = .link directory target rest
      · obtain ⟨directory, target, rest, hlink⟩ := hlink
        rw [follow, follow, advance_put_file hl, hlink]
        rfl
      · exact hplain 0 m pieces (by simpa using hlink)
  | succ links ih =>
      by_cases hlink : ∃ directory target rest, t.advance m pieces = .link directory target rest
      · obtain ⟨directory, target, rest, hlink⟩ := hlink
        have hlink' : (t.put l (.file bytes)).advance m pieces = .link directory target rest := by
          rw [advance_put_file hl, hlink]
          rfl
        rw [follow_of_link hlink, follow_of_link hlink']
        exact ih _ _
      · exact hplain (links + 1) m pieces (by simpa using hlink)

/-- Filling a file changes the course of no path that does not miss it. -/
theorem halt_put_file (hl : t.Fillable l) (p : Path) :
    (t.put l (.file bytes)).halt p = (t.halt p).fill l := by
  unfold halt
  rw [current_put]
  cases pathFault? p with
  | some cause => rfl
  | none => exact follow_put_file hl maxLinks _ _

/-- Writing through a path fills the file where the path stops, or the entry that it misses. -/
theorem fileTarget_cases {p : Path} (h : t.fileTarget p = .ok l) :
    t.halt p = .arrived l ∧ t.isDirectoryAt l = false ∨
      ∃ directory name, t.halt p = .missing directory name [] ∧ l = directory ++ [name] := by
  unfold fileTarget at h
  split at h
  · split at h
    · cases h
    · split at h <;> cases h
  · cases hhalt : t.halt p with
    | arrived x =>
        simp only [hhalt] at h
        split at h
        · cases h
        · rename_i hdir
          cases h
          exact Or.inl ⟨rfl, by simpa using hdir⟩
    | missing directory name rest =>
        cases rest with
        | nil =>
            simp only [hhalt] at h
            cases h
            exact Or.inr ⟨directory, name, rfl, rfl⟩
        | cons next rest =>
            simp only [hhalt] at h
            cases h
    | link directory target rest =>
        simp only [hhalt] at h
        cases h
    | failed cause =>
        simp only [hhalt] at h
        cases h

theorem missing_of_advance {m directory : Location} {name : Name} {pieces rest : List Name}
    (h : t.advance m pieces = .missing directory name rest) :
    t.node? (directory ++ [name]) = none := by
  induction pieces generalizing m with
  | nil => cases h
  | cons piece tail ih =>
      rw [advance] at h
      split at h
      · cases h
      split at h
      · exact ih h
      split at h
      · exact ih h
      split at h
      · cases h
      split at h
      · rename_i hnone
        cases h
        exact hnone
      · cases h
      · exact ih h

theorem missing_of_follow {links : Nat} {m directory : Location} {name : Name}
    {pieces rest : List Name} (h : t.follow links m pieces = .missing directory name rest) :
    t.node? (directory ++ [name]) = none := by
  induction links generalizing m pieces with
  | zero =>
      rw [follow] at h
      split at h
      · cases h
      · exact missing_of_advance h
  | succ links ih =>
      rw [follow] at h
      split at h
      · exact ih h
      · exact missing_of_advance h

theorem missing_of_halt {p : Path} {directory : Location} {name : Name} {rest : List Name}
    (h : t.halt p = .missing directory name rest) : t.node? (directory ++ [name]) = none := by
  unfold halt at h
  split at h
  · cases h
  · exact missing_of_follow h

theorem ne_nil_of_fileTarget {p : Path} (h : t.fileTarget p = .ok l) : l ≠ [] := by
  rcases fileTarget_cases h with ⟨-, hdir⟩ | ⟨directory, name, -, rfl⟩
  · intro hl
    rw [hl] at hdir
    cases hdir
  · simp

theorem fillable_of_fileTarget (hwf : t.WellFormed) {p : Path} (h : t.fileTarget p = .ok l) :
    t.Fillable l := by
  refine ⟨ne_nil_of_fileTarget h, ?_⟩
  rcases fileTarget_cases h with ⟨hhalt, hdir⟩ | ⟨directory, name, hhalt, rfl⟩
  · rcases solid_of_locate hwf (locate_eq_ok_iff.2 hhalt) with hdirectory | hfile
    · rw [isDirectoryAt_iff.2 hdirectory] at hdir
      cases hdir
    · exact Or.inr hfile
  · exact Or.inl (missing_of_halt hhalt)

/-- Behind a write the path leads to what was written. -/
theorem locate_put_fileTarget (hwf : t.WellFormed) {p : Path} (h : t.fileTarget p = .ok l) :
    (t.put l (.file bytes)).locate p = .ok l := by
  rw [locate_eq_ok_iff, halt_put_file (fillable_of_fileTarget hwf h)]
  rcases fileTarget_cases h with ⟨hhalt, -⟩ | ⟨directory, name, hhalt, rfl⟩
  · rw [hhalt]
    rfl
  · simp [hhalt, Halt.fill]

end Fill

end FileTree

end SourceGauge
