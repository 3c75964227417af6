import Mathlib.Data.List.Basic
import Mathlib.Data.List.Pairwise
import Mathlib.Tactic.SplitIfs
import SourceGauge.Path
import SourceGauge.Text.Basic

/-!
# The order of paths

Paths compare component by component and names by their bytes. That is the order of the
characters, since UTF-8 keeps it. Sorting by it gives strictly increasing paths where no two
have the same components, and there is one such list with given members.
-/

namespace SourceGauge

namespace Text

/-- The bytes of a text as numbers. -/
def byteValues (s : List Char) : List Nat := (encode s).map UInt8.toNat

theorem byteValues_cons (c : Char) (s : List Char) :
    byteValues (c :: s) = byteValues [c] ++ byteValues s := by
  simp [byteValues, encode]

theorem compareLex_append_left (start xs ys : List Nat) :
    List.compareLex compare (start ++ xs) (start ++ ys) = List.compareLex compare xs ys := by
  induction start with
  | nil => rfl
  | cons x start ih =>
      have hself : compare x x = .eq := Nat.compare_eq_eq.2 rfl
      rw [List.cons_append, List.cons_append, List.compareLex_cons_cons, ih, hself]
      rfl

/-- The number of a character in digits to base 64, behind a mark that tells how many there are. -/
theorem byteValues_singleton (c : Char) :
    byteValues [c] =
      if c.toNat ≤ 127 then [c.toNat]
      else if c.toNat ≤ 2047 then [c.toNat / 64 + 192, c.toNat % 64 + 128]
      else if c.toNat ≤ 65535 then
        [c.toNat / 4096 + 224, c.toNat / 64 % 64 + 128, c.toNat % 64 + 128]
      else
        [c.toNat / 262144 + 240, c.toNat / 4096 % 64 + 128, c.toNat / 64 % 64 + 128,
          c.toNat % 64 + 128] := by
  have hvalid : c.toNat < 1114112 := by
    rcases c.valid with h | h <;> simp only [Char.toNat] <;> omega
  have hval : c.val.toNat = c.toNat := rfl
  simp only [byteValues, encode, List.flatMap_cons, List.flatMap_nil, List.append_nil,
    String.utf8EncodeChar, hval]
  split
  · simp
    omega
  split
  · simp
    omega
  split
  · simp
    omega
  · simp
    omega

/-- The bytes of a smaller character are smaller where they first differ, whatever follows. -/
theorem compareLex_byteValues_of_lt {c d : Char} (h : c.toNat < d.toNat) (xs ys : List Nat) :
    List.compareLex compare (byteValues [c] ++ xs) (byteValues [d] ++ ys) = .lt := by
  rw [byteValues_singleton, byteValues_singleton]
  -- with more bytes the first is larger, and digits to one base compare as their numbers do
  split_ifs <;>
    simp only [List.cons_append, List.nil_append, List.compareLex_cons_cons,
      Ordering.then_eq_lt, Nat.compare_eq_lt, Nat.compare_eq_eq] <;>
    omega

theorem byteValues_singleton_ne_nil (c : Char) : byteValues [c] ≠ [] := by
  rw [byteValues_singleton]
  split_ifs <;> simp

/-- UTF-8 keeps the order of the characters. -/
theorem compareLex_byteValues (s t : List Char) :
    List.compareLex compare (byteValues s) (byteValues t) =
      List.compareLex compare (s.map Char.toNat) (t.map Char.toNat) := by
  induction s generalizing t with
  | nil =>
      cases t with
      | nil => rfl
      | cons d t =>
          obtain ⟨x, xs, hx⟩ := List.exists_cons_of_ne_nil (byteValues_singleton_ne_nil d)
          rw [byteValues_cons, hx]
          rfl
  | cons c s ih =>
      rw [byteValues_cons c s]
      cases t with
      | nil =>
          obtain ⟨x, xs, hx⟩ := List.exists_cons_of_ne_nil (byteValues_singleton_ne_nil c)
          rw [hx]
          rfl
      | cons d t =>
          rw [byteValues_cons d t, List.map_cons, List.map_cons, List.compareLex_cons_cons]
          rcases Nat.lt_trichotomy c.toNat d.toNat with hlt | heq | hgt
          · rw [compareLex_byteValues_of_lt hlt, Nat.compare_eq_lt.2 hlt]
            rfl
          · have hcd : c = d := Char.toNat_inj.1 heq
            rw [hcd, compareLex_append_left, ih, Nat.compare_eq_eq.2 rfl]
            rfl
          · have hswap : List.compareLex compare (byteValues [c] ++ byteValues s)
                (byteValues [d] ++ byteValues t) =
                (List.compareLex compare (byteValues [d] ++ byteValues t)
                  (byteValues [c] ++ byteValues s)).swap := Std.OrientedCmp.eq_swap
            rw [hswap, compareLex_byteValues_of_lt hgt, Nat.compare_eq_gt.2 hgt]
            rfl

end Text

namespace Path

/-- A component as bytes, behind a number for its kind. -/
def Component.byteKey : Component → List Nat
  | .root => [0]
  | .current => [1]
  | .parent => [2]
  | .name text => 3 :: Text.byteValues text

/-- Paths compared component by component and byte by byte. -/
def byteOrder (p q : Path) : Ordering :=
  List.compareLex (List.compareLex compare) (p.components.map Component.byteKey)
    (q.components.map Component.byteKey)

theorem compareLex_byteKey (a b : Component) :
    List.compareLex compare a.byteKey b.byteKey = List.compareLex compare a.key b.key := by
  cases a <;> cases b <;> try rfl
  simp only [Component.byteKey, Component.key, List.compareLex_cons_cons,
    Text.compareLex_byteValues]

theorem byteOrder_eq (p q : Path) :
    p.byteOrder q = List.compareLex (List.compareLex compare) p.key q.key := by
  unfold byteOrder key
  generalize p.components = as
  generalize q.components = bs
  induction as generalizing bs with
  | nil => cases bs <;> rfl
  | cons a as ih =>
      cases bs with
      | nil => rfl
      | cons b bs =>
          simp only [List.map_cons, List.compareLex_cons_cons, compareLex_byteKey, ih]

theorem Component.key_injective : Function.Injective Component.key := by
  intro a b h
  cases a <;> cases b <;> try simp_all [Component.key]
  rename_i s t
  exact List.map_injective_iff.2 (fun _ _ => Char.toNat_inj.1) h

/-- Paths that compare equal have the same components. -/
theorem components_eq_of_byteOrder {p q : Path} (h : p.byteOrder q = .eq) :
    p.components = q.components := by
  rw [byteOrder_eq] at h
  have hkey : p.key = q.key := Std.LawfulEqCmp.eq_of_compare h
  exact List.map_injective_iff.2 Component.key_injective hkey

theorem le_iff {p q : Path} : p.le q = true ↔ (p.byteOrder q).isLE = true := by
  rw [le, byteOrder_eq]

theorem byteOrder_lt_trans {p q r : Path} (hpq : p.byteOrder q = .lt) (hqr : q.byteOrder r = .lt) :
    p.byteOrder r = .lt := by
  rw [byteOrder_eq] at *
  exact Std.TransCmp.lt_trans hpq hqr

/-! ## Sorting -/

theorem mem_sort {ps : List Path} {p : Path} : p ∈ sort ps ↔ p ∈ ps :=
  (List.mergeSort_perm ps le).mem_iff

theorem pairwise_le_sort (ps : List Path) : (sort ps).Pairwise fun p q => p.le q = true := by
  refine List.pairwise_mergeSort ?_ ?_ ps
  · intro p q r hpq hqr
    exact Std.TransCmp.isLE_trans hpq hqr
  · intro p q
    have hswap : List.compareLex (List.compareLex compare) q.key p.key =
        (List.compareLex (List.compareLex compare) p.key q.key).swap := Std.OrientedCmp.eq_swap
    rw [le, le, hswap]
    cases List.compareLex (List.compareLex compare) p.key q.key <;> rfl

/-- Paths whose components differ are sorted strictly. -/
theorem pairwise_lt_sort {ps : List Path} (h : (ps.map components).Nodup) :
    (sort ps).Pairwise fun p q => p.byteOrder q = .lt := by
  have hnodup : ((sort ps).map components).Nodup :=
    ((List.mergeSort_perm ps le).map components).nodup_iff.2 h
  have hne : (sort ps).Pairwise fun p q => p.components ≠ q.components :=
    List.pairwise_map.1 hnodup
  refine ((pairwise_le_sort ps).and hne).imp ?_
  rintro p q ⟨hle, hne⟩
  rw [le_iff] at hle
  cases horder : p.byteOrder q with
  | lt => rfl
  | eq => exact absurd (components_eq_of_byteOrder horder) hne
  | gt =>
      rw [horder] at hle
      cases hle

/-- There is one strictly increasing list with given members. -/
theorem eq_of_pairwise_lt {ps qs : List Path} (hps : ps.Pairwise fun p q => p.byteOrder q = .lt)
    (hqs : qs.Pairwise fun p q => p.byteOrder q = .lt) (h : ∀ p, p ∈ ps ↔ p ∈ qs) : ps = qs := by
  have hself : ∀ p : Path, p.byteOrder p ≠ .lt := by
    intro p
    have hrefl : List.compareLex (List.compareLex compare) p.key p.key = .eq :=
      Std.ReflCmp.compare_self
    rw [byteOrder_eq, hrefl]
    simp
  have hnodup : ∀ rs : List Path, rs.Pairwise (fun p q => p.byteOrder q = .lt) → rs.Nodup := by
    intro rs hrs
    refine hrs.imp ?_
    rintro p q hlt rfl
    exact hself p hlt
  refine List.Perm.eq_of_pairwise ?_ hps hqs
    ((List.perm_ext_iff_of_nodup (hnodup ps hps) (hnodup qs hqs)).2 h)
  intro p q _ _ hpq hqp
  exact absurd (byteOrder_lt_trans hpq hqp) (hself p)

theorem sublist_of_pairwise_lt {ps qs : List Path}
    (hps : ps.Pairwise fun p q => p.byteOrder q = .lt)
    (hqs : qs.Pairwise fun p q => p.byteOrder q = .lt) (h : ∀ p ∈ ps, p ∈ qs) :
    ps.Sublist qs := by
  have hfilter : ps = qs.filter (· ∈ ps) := by
    refine eq_of_pairwise_lt hps (hqs.filter _) fun p => ?_
    rw [List.mem_filter, decide_eq_true_eq]
    exact ⟨fun hp => ⟨h p hp, hp⟩, And.right⟩
  rw [hfilter]
  exact List.filter_sublist

end Path

end SourceGauge
