import Mathlib.Data.List.DropRight
import SourceGauge.Text.Basic
import SourceGauge.Text.Search

/-!
# Facts about trimming, searching and splitting

Trimming is described by what it leaves and what it takes away, searching by the prefix and
infix relations on lists, and splitting by the two round trips with joining.
-/

namespace SourceGauge.Text

/-! ## Runs of a class -/

/-- A run ends before the first character outside the class, wherever the run is cut off. -/
theorem dropWhile_run {p : Char → Bool} {run rest : List Char} (hrun : ∀ c ∈ run, p c = true)
    (hrest : rest.head?.any p = false) : (run ++ rest).dropWhile p = rest := by
  rw [List.dropWhile_append_of_pos hrun]
  cases rest with
  | nil => rfl
  | cons c cs =>
      have hc : p c = false := hrest
      simp [hc]

theorem takeWhile_run {p : Char → Bool} {run rest : List Char} (hrun : ∀ c ∈ run, p c = true)
    (hrest : rest.head?.any p = false) : (run ++ rest).takeWhile p = run := by
  rw [List.takeWhile_append_of_pos hrun]
  cases rest with
  | nil => simp
  | cons c cs =>
      have hc : p c = false := hrest
      simp [hc]

/-! ## Trimming -/

/-- No character of the class stands at either end. -/
def Bare (p : Char → Bool) (s : List Char) : Prop :=
  (∀ c, s.head? = some c → p c = false) ∧ (∀ c, s.getLast? = some c → p c = false)

theorem trimBy_eq_rdropWhile (p : Char → Bool) (s : List Char) :
    trimBy p s = (s.dropWhile p).rdropWhile p := rfl

/-- Trimming cuts a text into a margin, what is kept, and another margin. -/
theorem trimBy_decomposition (p : Char → Bool) (s : List Char) :
    ∃ left right, s = left ++ trimBy p s ++ right ∧
      (∀ c ∈ left, p c = true) ∧ (∀ c ∈ right, p c = true) := by
  refine ⟨s.takeWhile p, (s.dropWhile p).rtakeWhile p, ?_, ?_, ?_⟩
  · rw [trimBy_eq_rdropWhile, List.append_assoc, List.rdropWhile_append_rtakeWhile,
      List.takeWhile_append_dropWhile]
  · intro c hc
    exact List.mem_takeWhile_imp hc
  · intro c hc
    exact List.mem_rtakeWhile_imp hc

theorem bare_trimBy (p : Char → Bool) (s : List Char) : Bare p (trimBy p s) := by
  constructor
  · intro c hc
    obtain ⟨tail, htail⟩ : trimBy p s <+: s.dropWhile p := List.rdropWhile_prefix p _
    have hhead : (s.dropWhile p).head? = some c := by
      rw [← htail, List.head?_append, hc]
      rfl
    have hnot := List.head?_dropWhile_not p s
    rw [hhead] at hnot
    simpa using hnot
  · intro c hc
    have hne : trimBy p s ≠ [] := by
      intro hnil
      rw [hnil] at hc
      cases hc
    have hlast : ¬ p ((trimBy p s).getLast hne) := List.rdropWhile_last_not p (s.dropWhile p) hne
    have hc' : (trimBy p s).getLast hne = c := by
      rw [List.getLast?_eq_some_getLast hne] at hc
      exact Option.some.inj hc
    rw [hc'] at hlast
    simpa using hlast

/-- What is bare already stays as it is. -/
theorem trimBy_of_bare {p : Char → Bool} {s : List Char} (h : Bare p s) : trimBy p s = s := by
  rw [trimBy_eq_rdropWhile, dropWhile_of_head h.1, List.rdropWhile_eq_self_iff]
  intro hne
  have hlast := h.2 _ (List.getLast?_eq_some_getLast hne)
  simp [hlast]

/-- A text without a left margin loses only its right margin. -/
theorem trimBy_right_only {p : Char → Bool} {s : List Char}
    (h : ∀ c, s.head? = some c → p c = false) :
    ∃ right, s = trimBy p s ++ right ∧ ∀ c ∈ right, p c = true := by
  refine ⟨s.rtakeWhile p, ?_, fun c hc => List.mem_rtakeWhile_imp hc⟩
  rw [trimBy_eq_rdropWhile, dropWhile_of_head h, List.rdropWhile_append_rtakeWhile]

/-- Whatever is bare between two margins is what trimming leaves of the three. -/
theorem trimBy_eq_of_bare {p : Char → Bool} {left middle right : List Char} (hm : Bare p middle)
    (hl : ∀ c ∈ left, p c = true) (hr : ∀ c ∈ right, p c = true) :
    trimBy p (left ++ middle ++ right) = middle := by
  have hback : (right.reverse ++ middle.reverse).dropWhile p = middle.reverse := by
    rw [List.dropWhile_append_of_pos (by simpa using hr)]
    apply dropWhile_of_head
    intro c hc
    exact hm.2 c (by simpa using hc)
  unfold trimBy
  rw [List.append_assoc, List.dropWhile_append_of_pos hl]
  cases middle with
  | nil =>
      have hnone : ([] ++ right).dropWhile p = [] := by simpa using hr
      rw [hnone]
      rfl
  | cons c cs =>
      have hfront : (c :: cs ++ right).dropWhile p = c :: cs ++ right := by
        apply dropWhile_of_head
        intro d hd
        exact hm.1 d hd
      rw [hfront, List.reverse_append, hback, List.reverse_reverse]

/-! ## Occurrences -/

theorem occursIn_iff (needle s : List Char) : occursIn needle s = true ↔ needle <:+: s := by
  induction s with
  | nil => simp [occursIn]
  | cons c cs ih => simp [occursIn, ih, List.infix_cons_iff]

/-- A text without characters of the class cannot reach into a left margin. -/
theorem infix_margin_append {p : Char → Bool} {needle left : List Char} (s : List Char)
    (hne : needle ≠ []) (hneedle : ∀ c ∈ needle, p c = false) (hleft : ∀ c ∈ left, p c = true) :
    needle <:+: left ++ s ↔ needle <:+: s := by
  induction left with
  | nil => rfl
  | cons c cs ih =>
      have hcs : ∀ d ∈ cs, p d = true := fun d hd => hleft d (List.mem_cons_of_mem c hd)
      rw [List.cons_append, List.infix_cons_iff, ih hcs, or_iff_right]
      intro hpre
      obtain ⟨d, ds, rfl⟩ := List.exists_cons_of_ne_nil hne
      have hcd : d = c := (List.cons_prefix_cons.1 hpre).1
      have hd := hneedle d (List.mem_cons_self ..)
      rw [hcd, hleft c (List.mem_cons_self ..)] at hd
      cases hd

/-- Nor can it reach into a right margin. -/
theorem infix_append_margin {p : Char → Bool} {needle right : List Char} (s : List Char)
    (hne : needle ≠ []) (hneedle : ∀ c ∈ needle, p c = false) (hright : ∀ c ∈ right, p c = true) :
    needle <:+: s ++ right ↔ needle <:+: s := by
  have hmirror := @infix_margin_append p needle.reverse right.reverse s.reverse
    (by simpa using hne) (by simpa using hneedle) (by simpa using hright)
  rw [← List.reverse_append, List.reverse_infix, List.reverse_infix] at hmirror
  exact hmirror

/-- A text without characters of the class does not reach into a margin behind a text. -/
theorem prefix_of_prefix_append_margin {p : Char → Bool} {needle s right : List Char}
    (hn : ∀ c ∈ needle, p c = false) (hr : ∀ c ∈ right, p c = true)
    (h : needle <+: s ++ right) : needle <+: s := by
  rcases List.prefix_or_prefix_of_prefix h (List.prefix_append s right) with hpre | hpre
  · exact hpre
  · obtain ⟨tail, rfl⟩ := hpre
    have htail : tail <+: right := (List.prefix_append_right_inj s).1 h
    cases tail with
    | nil => simp
    | cons c cs =>
        have hc := hr c (htail.mem (List.mem_cons_self ..))
        rw [hn c (by simp)] at hc
        cases hc

/-- Trimming loses no occurrence of a text that has no character of the class. -/
theorem infix_trimBy_iff {p : Char → Bool} {needle : List Char} (s : List Char)
    (hne : needle ≠ []) (hneedle : ∀ c ∈ needle, p c = false) :
    needle <:+: trimBy p s ↔ needle <:+: s := by
  obtain ⟨left, right, hs, hleft, hright⟩ := trimBy_decomposition p s
  have hinner := infix_append_margin (left ++ trimBy p s) hne hneedle hright
  have houter := infix_margin_append (trimBy p s) hne hneedle hleft
  rw [← hs] at hinner
  rw [hinner, houter]

/-- `needle` stands behind `start` in the text, and nowhere earlier. -/
def FirstAfter (needle start s : List Char) : Prop :=
  start ++ needle <+: s ∧ ∀ other, other ++ needle <+: s → start.length ≤ other.length

theorem before?_eq_none_iff (needle s : List Char) :
    before? needle s = none ↔ ¬ needle <:+: s := by
  induction s with
  | nil => cases needle <;> simp [before?]
  | cons c cs ih =>
      by_cases hpre : needle <+: c :: cs
      · simp [before?, hpre, List.infix_cons_iff]
      · simp [before?, hpre, List.infix_cons_iff, ih]

theorem firstAfter_of_before? {needle s start : List Char} (h : before? needle s = some start) :
    FirstAfter needle start s := by
  induction s generalizing start with
  | nil =>
      cases needle with
      | nil =>
          have hstart : [] = start := by simpa [before?] using h
          subst hstart
          exact ⟨List.prefix_rfl, fun other _ => Nat.zero_le _⟩
      | cons d ds => simp [before?] at h
  | cons c cs ih =>
      by_cases hpre : needle <+: c :: cs
      · have hstart : [] = start := by simpa [before?, hpre] using h
        subst hstart
        exact ⟨hpre, fun other _ => Nat.zero_le _⟩
      · simp only [before?, List.isPrefixOf_iff_prefix, hpre, if_false,
          Option.map_eq_some_iff] at h
        obtain ⟨tail, htail, rfl⟩ := h
        obtain ⟨hhere, hfirst⟩ := ih htail
        refine ⟨List.cons_prefix_cons.2 ⟨rfl, hhere⟩, ?_⟩
        intro other hother
        cases other with
        | nil => exact absurd hother hpre
        | cons d ds =>
            have hds := hfirst ds (List.cons_prefix_cons.1 hother).2
            simpa using hds

/-- There is only one place where a text occurs first. -/
theorem FirstAfter.unique {needle s start other : List Char} (h : FirstAfter needle start s)
    (h' : FirstAfter needle other s) : start = other := by
  have hlen : start.length = other.length := Nat.le_antisymm (h.2 other h'.1) (h'.2 start h.1)
  have hstart : start <+: s := (List.prefix_append start needle).trans h.1
  have hother : other <+: s := (List.prefix_append other needle).trans h'.1
  exact (List.prefix_of_prefix_length_le hstart hother hlen.le).eq_of_length hlen

theorem before?_eq_some_iff (needle s start : List Char) :
    before? needle s = some start ↔ FirstAfter needle start s := by
  constructor
  · exact firstAfter_of_before?
  · intro h
    cases hb : before? needle s with
    | none =>
        have hoccurs : needle <:+: s := by
          obtain ⟨tail, htail⟩ := h.1
          exact ⟨start, tail, htail⟩
        exact absurd hoccurs ((before?_eq_none_iff needle s).1 hb)
    | some other => rw [(firstAfter_of_before? hb).unique h]

/-- Before its first occurrence a text does not occur. -/
theorem FirstAfter.absent_before {needle s start : List Char} (h : FirstAfter needle start s)
    (hne : needle ≠ []) : ¬ needle <:+: start := by
  intro hinside
  obtain ⟨x, y, hxy⟩ := hinside
  have hx : x ++ needle <+: s := by
    refine List.IsPrefix.trans ?_ ((List.prefix_append start needle).trans h.1)
    exact ⟨y, hxy⟩
  have hlen := h.2 x hx
  have hpos := List.length_pos_of_ne_nil hne
  rw [← hxy] at hlen
  simp only [List.length_append] at hlen
  omega

/-- More text at the end does not move the first occurrence. -/
theorem FirstAfter.append {needle start s : List Char} (h : FirstAfter needle start s)
    (t : List Char) : FirstAfter needle start (s ++ t) := by
  refine ⟨h.1.trans (List.prefix_append s t), ?_⟩
  intro other hother
  by_cases hlt : other.length < start.length
  · have hlen := h.1.length_le
    have hshort : (other ++ needle).length ≤ s.length := by
      simp only [List.length_append] at hlen ⊢
      omega
    exact h.2 other (List.prefix_of_prefix_length_le hother (List.prefix_append s t) hshort)
  · omega

theorem before?_append_of_infix {needle s : List Char} (h : needle <:+: s) (t : List Char) :
    before? needle (s ++ t) = before? needle s := by
  cases hb : before? needle s with
  | none => exact absurd h ((before?_eq_none_iff needle s).1 hb)
  | some start =>
      rw [before?_eq_some_iff] at hb ⊢
      exact hb.append t

/-! ## Lines -/

theorem splitOn_of_not_mem {separator : Char} {s : List Char} (h : separator ∉ s) :
    splitOn separator s = [s] := by
  induction s with
  | nil => rfl
  | cons c cs ih =>
      rw [List.mem_cons, not_or] at h
      rw [splitOn_cons_of_ne (Ne.symm h.1), ih h.2]
      rfl

/-- A line has only characters of the text. -/
theorem mem_of_mem_lines {s line : List Char} {c : Char} (hline : line ∈ lines s)
    (hc : c ∈ line) : c ∈ s := by
  unfold lines at hline
  induction s generalizing line with
  | nil => simp_all
  | cons d ds ih =>
      by_cases hd : d = '\n'
      · subst hd
        rw [splitOn_cons_self] at hline
        rcases List.mem_cons.1 hline with rfl | hline
        · cases hc
        · exact List.mem_cons_of_mem _ (ih hline hc)
      · obtain ⟨piece, pieces, hs⟩ := List.exists_cons_of_ne_nil (splitOn_ne_nil '\n' ds)
        rw [splitOn_cons_of_ne hd, hs] at hline
        rw [hs] at ih
        rcases List.mem_cons.1 hline with rfl | hline
        · rcases List.mem_cons.1 hc with rfl | hc
          · exact List.mem_cons_self ..
          · exact List.mem_cons_of_mem _ (ih (List.mem_cons_self ..) hc)
        · exact List.mem_cons_of_mem _ (ih (List.mem_cons_of_mem piece hline) hc)

theorem intercalate_cons_cons (separator : Char) (s t : List Char) (rest : List (List Char)) :
    List.intercalate [separator] (s :: t :: rest) =
      s ++ separator :: List.intercalate [separator] (t :: rest) := by
  simp

theorem intercalate_append (separator : Char) {ss ts : List (List Char)} (hs : ss ≠ [])
    (ht : ts ≠ []) :
    List.intercalate [separator] (ss ++ ts) =
      List.intercalate [separator] ss ++ separator :: List.intercalate [separator] ts := by
  induction ss with
  | nil => exact absurd rfl hs
  | cons s rest ih =>
      cases rest with
      | nil =>
          obtain ⟨t, ts, rfl⟩ := List.exists_cons_of_ne_nil ht
          simp
      | cons next rest =>
          rw [List.cons_append, List.cons_append, intercalate_cons_cons, intercalate_cons_cons,
            ← List.cons_append, ih (by simp)]
          simp

/-- Joined texts are split where they were joined. -/
theorem splitOn_intercalate {separator : Char} {ss : List (List Char)} (hne : ss ≠ [])
    (h : ∀ s ∈ ss, separator ∉ s) :
    splitOn separator (List.intercalate [separator] ss) = ss := by
  induction ss with
  | nil => exact absurd rfl hne
  | cons s rest ih =>
      have hs : splitOn separator s = [s] := splitOn_of_not_mem (h s (List.mem_cons_self ..))
      cases rest with
      | nil => simpa using hs
      | cons next rest =>
          have hrest := ih (by simp) (fun l hl => h l (List.mem_cons_of_mem s hl))
          rw [intercalate_cons_cons, splitOn_append_cons, hs, hrest]
          rfl

theorem intercalate_splitOn (separator : Char) (s : List Char) :
    List.intercalate [separator] (splitOn separator s) = s := by
  induction s with
  | nil => rfl
  | cons c cs ih =>
      obtain ⟨piece, pieces, hs⟩ := List.exists_cons_of_ne_nil (splitOn_ne_nil separator cs)
      rw [hs] at ih
      by_cases hc : c = separator
      · subst hc
        rw [splitOn_cons_self, hs, intercalate_cons_cons, ih]
        rfl
      · rw [splitOn_cons_of_ne hc, hs]
        cases pieces with
        | nil => simpa using ih
        | cons next rest =>
            rw [intercalate_cons_cons] at ih
            simp only [List.headD_cons, List.tail_cons]
            rw [intercalate_cons_cons, List.cons_append, ih]

theorem lines_unlines {ls : List (List Char)} (hne : ls ≠ []) (h : ∀ line ∈ ls, '\n' ∉ line) :
    lines (unlines ls) = ls :=
  splitOn_intercalate hne h

theorem unlines_lines (s : List Char) : unlines (lines s) = s :=
  intercalate_splitOn '\n' s

/-- Behind the line feed that closes the last line there is an empty line. -/
theorem lines_closed {ls : List (List Char)} (h : ∀ line ∈ ls, '\n' ∉ line) :
    lines (ls.flatMap (· ++ ['\n'])) = ls ++ [[]] := by
  induction ls with
  | nil => rfl
  | cons line rest ih =>
      have hline : splitOn '\n' line = [line] :=
        splitOn_of_not_mem (h line (List.mem_cons_self ..))
      have hrest := ih fun l hl => h l (List.mem_cons_of_mem line hl)
      rw [lines] at hrest ⊢
      rw [List.flatMap_cons, List.append_assoc, List.singleton_append, splitOn_append_cons, hline,
        hrest]
      rfl

@[simp] theorem unlines_singleton (line : List Char) : unlines [line] = line := by
  simp [unlines]

theorem unlines_cons_cons (line next : List Char) (rest : List (List Char)) :
    unlines (line :: next :: rest) = line ++ '\n' :: unlines (next :: rest) :=
  intercalate_cons_cons '\n' line next rest

/-! ## Bytes -/

theorem length_encode_append (s rest : List Char) :
    (encode (s ++ rest)).length = (encode s).length + (encode rest).length := by
  simp [encode]

theorem length_encode_slash (rest : List Char) :
    (encode ('/' :: rest)).length = (encode rest).length + 1 := by
  have hslash : (encode ['/']).length = 1 := by decide
  rw [← List.singleton_append, length_encode_append, hslash, Nat.add_comm]

end SourceGauge.Text
