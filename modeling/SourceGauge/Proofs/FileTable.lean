import Mathlib.Algebra.Order.Ring.Nat
import Mathlib.Data.List.Forall2
import Mathlib.Data.List.GetD
import SourceGauge.Proofs.DisplayWidth
import SourceGauge.Proofs.NumberTokens
import SourceGauge.Report.Text

/-!
# The shape of the table of files

What a line and a block of lines show is said apart from how they are drawn: texts filled with
blanks to the widths of their columns. The table of files shows each file in a block of its own,
and all its lines are of one width.
-/

namespace SourceGauge.Report

/-! ## What a line shows -/

/-- A text with blanks at the side it is not set to. -/
inductive SetTo : Alignment → List Char → List Char → Prop
  | left (text : List Char) (k : Nat) : SetTo .left text (text ++ List.replicate k ' ')
  | right (text : List Char) (k : Nat) : SetTo .right text (List.replicate k ' ' ++ text)

/-- Cells of the given widths, each with its text whole. -/
inductive CellsShow : List Nat → List (Alignment × List Char) → List (List Char) → Prop
  | nil : CellsShow [] [] []
  | cons {w : Nat} {side : Alignment} {text cell : List Char} {widths : List Nat}
      {fields : List (Alignment × List Char)} {cells : List (List Char)}
      (hset : SetTo side text cell) (hwidth : Text.width cell = w)
      (hcells : CellsShow widths fields cells) :
      CellsShow (w :: widths) ((side, text) :: fields) (cell :: cells)

def framed (cell : List Char) : List Char := ' ' :: cell ++ [' ']

/-- A line that shows the texts in columns of the given widths, between bars. -/
def LineShows (widths : List Nat) (fields : List (Alignment × List Char)) (line : List Char) :
    Prop :=
  ∃ cells, CellsShow widths fields cells ∧
    line = '│' :: List.intercalate ['┆'] (cells.map framed) ++ ['│']

/-- The numerals of a file, in the order of the columns. -/
def figures (f : FileMetrics) : List (List Char) :=
  [Text.decimal f.lines, Text.decimal f.emptyLines, Text.decimal f.commentLines,
    f.commenting.ratioText, Text.decimal f.logicalLines, Text.decimal f.complexity]

/-- A block of lines that shows a file: the lines of its path, and its numerals on the first. -/
def BlockShows (widths : List Nat) (f : FileMetrics) (block : List (List Char)) : Prop :=
  ∃ name names first rest, Text.lines f.path.display = name :: names ∧ block = first :: rest ∧
    LineShows widths ((.left, name) :: (figures f).map fun text => (.right, text)) first ∧
    List.Forall₂
      (fun name line =>
        LineShows widths ((.left, name) :: (figures f).map fun _ => (.right, [])) line)
      names rest

section Lines

variable {widths : List Nat} {fields : List (Alignment × List Char)} {cells : List (List Char)}
  {line : List Char}

/-! ## Widths of lines -/

/-- The width of a line over columns of the given widths. -/
def lineWidth (widths : List Nat) : Nat := (widths.map (· + 3)).sum + 1

theorem CellsShow.map_width (h : CellsShow widths fields cells) :
    cells.map Text.width = widths := by
  induction h with
  | nil => rfl
  | cons _ hwidth _ ih => rw [List.map_cons, hwidth, ih]

/-- The blanks around a cell keep its glyphs within it. -/
theorem widthAfter_framed_append (g : Text.Glyph) (cell rest : List Char) :
    Text.widthAfter g (framed cell ++ rest) = Text.width cell + 2 + Text.width rest := by
  rw [framed, List.cons_append, List.cons_append, Text.widthAfter_blank_cons, List.append_assoc,
    List.singleton_append, Text.width, Text.widthAfter_append_blank, ← Text.width]
  omega

theorem widthAfter_cells (g : Text.Glyph) (hne : cells ≠ []) :
    Text.widthAfter g (List.intercalate ['┆'] (cells.map framed) ++ ['│']) =
      ((cells.map Text.width).map (· + 3)).sum := by
  have hbar : Text.width ['│'] = 1 := by decide +kernel
  have hdashed : Text.standsAlone '┆' = true := by decide +kernel
  induction cells generalizing g with
  | nil => exact absurd rfl hne
  | cons cell cells ih =>
      cases cells with
      | nil =>
          rw [List.map_singleton, List.intercalate_singleton, widthAfter_framed_append, hbar]
          rfl
      | cons next cells =>
          have hrest := ih ⟨'┆', false, []⟩ (List.cons_ne_nil next cells)
          let rest := List.intercalate ['┆'] ((next :: cells).map framed) ++ ['│']
          have hjoin : List.intercalate ['┆'] ((cell :: next :: cells).map framed) ++ ['│'] =
              framed cell ++ '┆' :: rest := by
            simp [rest]
          have hbetween : Text.width ('┆' :: rest) = 1 + Text.widthAfter ⟨'┆', false, []⟩ rest :=
            Text.widthAfter_cons_of_standsAlone hdashed _ rest
          rw [hjoin, widthAfter_framed_append, hbetween, hrest]
          simp only [List.map_cons, List.sum_cons]
          omega

theorem LineShows.width_eq (h : LineShows widths fields line) (hne : widths ≠ []) :
    Text.width line = lineWidth widths := by
  obtain ⟨cells, hcells, rfl⟩ := h
  have hbar : Text.standsAlone '│' = true := by decide +kernel
  have hcellsNe : cells ≠ [] := by
    rintro rfl
    exact hne hcells.map_width.symm
  rw [List.cons_append, Text.width, Text.widthAfter_cons_of_standsAlone hbar,
    widthAfter_cells _ hcellsNe, hcells.map_width, lineWidth, Nat.add_comm]

theorem length_intercalate_singleton {α : Type} (separator : α) {parts : List (List α)}
    (hne : parts ≠ []) :
    (List.intercalate [separator] parts).length + 1 =
      (parts.map fun part => part.length + 1).sum := by
  induction parts with
  | nil => exact absurd rfl hne
  | cons part parts ih =>
      cases parts with
      | nil => simp
      | cons next parts =>
          rw [List.intercalate_cons_cons, List.map_cons, List.sum_cons, ← ih (by simp)]
          simp only [List.length_append, List.length_singleton]
          omega

theorem mem_intercalate_singleton {α : Type} {separator x : α} {parts : List (List α)}
    (h : x ∈ List.intercalate [separator] parts) : x = separator ∨ ∃ part ∈ parts, x ∈ part := by
  induction parts with
  | nil => simp at h
  | cons part parts ih =>
      cases parts with
      | nil => exact .inr ⟨part, by simp, by simpa using h⟩
      | cons next parts =>
          rw [List.intercalate_cons_cons, List.mem_append, List.mem_append,
            List.mem_singleton] at h
          rcases h with (h | h) | h
          · exact .inr ⟨part, List.mem_cons_self .., h⟩
          · exact .inl h
          · rcases ih h with h | ⟨other, hother, h⟩
            · exact .inl h
            · exact .inr ⟨other, List.mem_cons_of_mem part hother, h⟩

theorem mem_rule {left fill cross right c : Char}
    (h : c ∈ rule left fill cross right widths) : c ∈ [left, fill, cross, right] := by
  rw [rule, List.cons_append, List.mem_cons, List.mem_append, List.mem_singleton] at h
  rcases h with rfl | h | rfl
  · simp
  · rcases mem_intercalate_singleton h with rfl | ⟨part, hpart, hc⟩
    · simp
    · obtain ⟨w, -, rfl⟩ := List.mem_map.1 hpart
      simp [List.eq_of_mem_replicate hc]
  · simp

theorem length_rule (left fill cross right : Char) (hne : widths ≠ []) :
    (rule left fill cross right widths).length = lineWidth widths := by
  have hlength := length_intercalate_singleton cross
    (show widths.map (fun w => List.replicate (w + 2) fill) ≠ [] by simpa using hne)
  rw [List.map_map] at hlength
  have hparts : (fun part : List Char => part.length + 1) ∘
      (fun w => List.replicate (w + 2) fill) = fun w => w + 3 := by
    funext w
    simp
  rw [hparts] at hlength
  rw [rule, lineWidth, ← hlength]
  simp

theorem width_rule {left fill cross right : Char}
    (halone : [left, fill, cross, right].all Text.standsAlone = true) (hne : widths ≠ []) :
    Text.width (rule left fill cross right widths) = lineWidth widths := by
  rw [← length_rule left fill cross right hne]
  exact Text.widthAfter_eq_length (fun c hc => List.all_eq_true.1 halone c (mem_rule hc)) _

/-! ## Line feeds -/

theorem SetTo.mem {side : Alignment} {text cell : List Char} (h : SetTo side text cell) {c : Char}
    (hc : c ∈ cell) : c ∈ text ∨ c = ' ' := by
  cases h with
  | left k =>
      exact (List.mem_append.1 hc).imp_right List.eq_of_mem_replicate
  | right k =>
      exact (List.mem_append.1 hc).symm.imp_right List.eq_of_mem_replicate

theorem CellsShow.mem (h : CellsShow widths fields cells) {cell : List Char} (hcell : cell ∈ cells)
    {c : Char} (hc : c ∈ cell) : c = ' ' ∨ ∃ field ∈ fields, c ∈ field.2 := by
  induction h with
  | nil => cases hcell
  | cons hset _ _ ih =>
      rcases List.mem_cons.1 hcell with rfl | hcell
      · rcases hset.mem hc with hc | hc
        · exact .inr ⟨_, List.mem_cons_self .., hc⟩
        · exact .inl hc
      · rcases ih hcell with hc | ⟨field, hfield, hc⟩
        · exact .inl hc
        · exact .inr ⟨field, List.mem_cons_of_mem _ hfield, hc⟩

theorem LineShows.lineFeed_not_mem (h : LineShows widths fields line)
    (hfields : ∀ field ∈ fields, '\n' ∉ field.2) : '\n' ∉ line := by
  obtain ⟨cells, hcells, rfl⟩ := h
  intro hmem
  rw [List.cons_append, List.mem_cons, List.mem_append] at hmem
  rcases hmem with hmem | hmem | hmem
  · exact absurd hmem (by decide)
  · rcases mem_intercalate_singleton hmem with hmem | ⟨part, hpart, hmem⟩
    · exact absurd hmem (by decide)
    · obtain ⟨cell, hcell, rfl⟩ := List.mem_map.1 hpart
      have hblank : '\n' ∈ cell := by simpa [framed] using hmem
      rcases hcells.mem hcell hblank with hfeed | ⟨field, hfield, hfeed⟩
      · exact absurd hfeed (by decide)
      · exact hfields field hfield hfeed
  · exact absurd hmem (by decide)

theorem lineFeed_not_mem_rule {left fill cross right : Char}
    (h : '\n' ∉ [left, fill, cross, right]) : '\n' ∉ rule left fill cross right widths :=
  fun hmem => h (mem_rule hmem)

end Lines

/-! ## Columns -/

section Columns

variable {widths : List Nat} {header row : Row} {rows : List Row}

theorem Cell.width_line_le (c : Cell) (index : Nat) :
    Text.width (c.lines.getD index []) ≤ c.width := by
  rw [Cell.width, List.foldl_max]
  by_cases hindex : index < c.lines.length
  · have hline : c.lines.getD index [] ∈ c.lines := by
      rw [List.getD_eq_getElem _ _ hindex]
      exact List.getElem_mem hindex
    exact Nat.le_trans (List.le_max?_getD_of_mem (List.mem_map_of_mem hline))
      (Nat.le_max_right 0 _)
  · rw [List.getD_eq_default _ _ (Nat.le_of_not_lt hindex)]
    exact Nat.zero_le _

theorem setTo_paddedLine (c : Cell) (w index : Nat) :
    SetTo c.alignment (c.lines.getD index []) (c.paddedLine w index) := by
  obtain ⟨lines, alignment⟩ := c
  cases alignment with
  | left => exact .left _ _
  | right => exact .right _ _

theorem width_paddedLine {c : Cell} {w : Nat} (h : c.width ≤ w) (index : Nat) :
    Text.width (c.paddedLine w index) = w := by
  have hline := Nat.le_trans (c.width_line_le index) h
  obtain ⟨lines, alignment⟩ := c
  cases alignment with
  | left =>
      rw [Cell.paddedLine, Text.width_append_blanks]
      exact Nat.add_sub_cancel' hline
  | right =>
      rw [Cell.paddedLine, Text.width_blanks_append]
      exact Nat.sub_add_cancel hline

/-- Every cell of the row has room in its column. -/
def Fits (widths : List Nat) (row : Row) : Prop :=
  List.Forall₂ (fun c w => c.width ≤ w) row widths

theorem lineShows_rowLine (h : Fits widths row) (index : Nat) :
    LineShows widths (row.map fun c => (c.alignment, c.lines.getD index []))
      (rowLine widths row index) := by
  refine ⟨List.zipWith (fun w c => c.paddedLine w index) widths row, ?_, ?_⟩
  · induction h with
    | nil => exact .nil
    | cons hc _ ih => exact .cons (setTo_paddedLine ..) (width_paddedLine hc index) ih
  · rw [List.map_zipWith]
    rfl

/-- The widths with room for one more row. -/
def widened (widths : List Nat) (row : Row) : List Nat :=
  List.zipWith max widths (row.map Cell.width)

theorem columnWidths_eq (header : Row) (rows : List Row) :
    columnWidths header rows = rows.foldl widened (header.map Cell.width) := rfl

theorem length_widened (hrow : row.length = widths.length) :
    (widened widths row).length = widths.length := by
  rw [widened, List.length_zipWith, List.length_map, hrow, Nat.min_self]

theorem Fits.widened {other : Row} (h : Fits widths other) (hrow : row.length = widths.length) :
    Fits (widened widths row) other := by
  induction h generalizing row with
  | nil => exact .nil
  | cons hc _ ih =>
      obtain ⟨c, row, rfl⟩ := List.exists_cons_of_length_eq_add_one hrow
      exact .cons (Nat.le_trans hc (Nat.le_max_left ..)) (ih (by simpa using hrow))

theorem fits_widened (hrow : row.length = widths.length) : Fits (widened widths row) row := by
  induction row generalizing widths with
  | nil =>
      rw [widened, List.map_nil, List.zipWith_nil_right]
      exact .nil
  | cons c row ih =>
      obtain ⟨w, widths, rfl⟩ := List.exists_cons_of_length_eq_add_one hrow.symm
      exact .cons (Nat.le_max_right ..) (ih (by simpa using hrow))

/-- Each row widens the columns to its cells, and later rows do not narrow them. -/
theorem fits_foldl_widened (hrows : ∀ row ∈ rows, row.length = widths.length) :
    (∀ other, Fits widths other → Fits (rows.foldl widened widths) other) ∧
      ∀ row ∈ rows, Fits (rows.foldl widened widths) row := by
  induction rows generalizing widths with
  | nil => exact ⟨fun other h => h, fun row hrow => absurd hrow (by simp)⟩
  | cons row rows ih =>
      have hrow : row.length = widths.length := hrows row (List.mem_cons_self ..)
      obtain ⟨hkeep, hfits⟩ := @ih (widened widths row) fun r hr => by
        rw [length_widened hrow, hrows r (List.mem_cons_of_mem row hr)]
      refine ⟨fun other h => hkeep other (h.widened hrow), fun r hr => ?_⟩
      rcases List.mem_cons.1 hr with rfl | hr
      · exact hkeep r (fits_widened hrow)
      · exact hfits r hr

theorem fits_columnWidths (hrows : ∀ row ∈ rows, row.length = header.length) :
    ∀ row ∈ header :: rows, Fits (columnWidths header rows) row := by
  obtain ⟨hkeep, hfits⟩ := @fits_foldl_widened (header.map Cell.width) rows fun row hrow => by
    rw [List.length_map, hrows row hrow]
  have hheader : Fits (header.map Cell.width) header := by
    rw [Fits, List.forall₂_map_right_iff, List.forall₂_same]
    exact fun c _ => Nat.le_refl c.width
  intro row hrow
  rw [columnWidths_eq]
  rcases List.mem_cons.1 hrow with rfl | hrow
  · exact hkeep row hheader
  · exact hfits row hrow

theorem exists_cell_of_foldl_widened {k w : Nat}
    (h : (rows.foldl widened widths)[k]? = some w) :
    widths[k]? = some w ∨ ∃ row ∈ rows, ∃ c, row[k]? = some c ∧ c.width = w := by
  induction rows generalizing widths with
  | nil => exact .inl h
  | cons row rows ih =>
      rcases ih h with h | ⟨other, hother, hcell⟩
      · obtain ⟨x, y, hx, hy, hmax⟩ := List.getElem?_zipWith_eq_some.1 h
        rw [List.getElem?_map, Option.map_eq_some_iff] at hy
        obtain ⟨c, hc, rfl⟩ := hy
        rcases Nat.le_total c.width x with hle | hle
        · rw [Nat.max_eq_left hle] at hmax
          exact .inl (hmax ▸ hx)
        · rw [Nat.max_eq_right hle] at hmax
          exact .inr ⟨row, List.mem_cons_self .., c, hc, hmax⟩
      · exact .inr ⟨other, List.mem_cons_of_mem row hother, hcell⟩

/-- A column is no wider than its widest cell. -/
theorem exists_cell_of_columnWidths {k w : Nat} (h : (columnWidths header rows)[k]? = some w) :
    ∃ row ∈ header :: rows, ∃ c, row[k]? = some c ∧ c.width = w := by
  rw [columnWidths_eq] at h
  rcases exists_cell_of_foldl_widened h with h | ⟨row, hrow, hcell⟩
  · rw [List.getElem?_map, Option.map_eq_some_iff] at h
    exact ⟨header, List.mem_cons_self .., h⟩
  · exact ⟨row, List.mem_cons_of_mem header hrow, hcell⟩

end Columns

/-! ## Blocks -/

theorem exists_left_of_mem {α β : Type} {R : α → β → Prop} {as : List α} {bs : List β}
    (h : List.Forall₂ R as bs) {b : β} (hb : b ∈ bs) : ∃ a ∈ as, R a b := by
  induction h with
  | nil => cases hb
  | cons hab _ ih =>
      rcases List.mem_cons.1 hb with rfl | hb
      · exact ⟨_, List.mem_cons_self .., hab⟩
      · obtain ⟨a, ha, hr⟩ := ih hb
        exact ⟨a, List.mem_cons_of_mem _ ha, hr⟩

theorem rowHeight_fileRow (f : FileMetrics) :
    rowHeight (fileRow f) = (Text.lines f.path.display).length := by
  have hlength := Text.length_lines f.path.display
  simp only [rowHeight, fileRow, Cell.ofText, Cell.ofNumeral, List.map_cons, List.map_nil,
    List.foldl_cons, List.foldl_nil, List.length_singleton]
  omega

theorem blockShows_rowLines {widths : List Nat} {f : FileMetrics} (h : Fits widths (fileRow f)) :
    BlockShows widths f (rowLines widths (fileRow f)) := by
  obtain ⟨name, names, hlines⟩ : ∃ name names, Text.lines f.path.display = name :: names :=
    List.exists_cons_of_ne_nil (Text.splitOn_ne_nil '\n' _)
  have hheight : rowHeight (fileRow f) = names.length + 1 := by
    rw [rowHeight_fileRow, hlines, List.length_cons]
  refine ⟨name, names, rowLine widths (fileRow f) 0,
    (List.range names.length).map fun j => rowLine widths (fileRow f) (j + 1), hlines, ?_, ?_, ?_⟩
  · rw [rowLines, hheight, List.range_succ_eq_map, List.map_cons, List.map_map]
    rfl
  · have hfirst := lineShows_rowLine h 0
    rwa [show (fileRow f).map (fun c => (c.alignment, c.lines.getD 0 [])) =
      (.left, name) :: (figures f).map fun text => (.right, text) by
        simp [fileRow, figures, Cell.ofText, Cell.ofNumeral, hlines]] at hfirst
  · rw [List.forall₂_map_right_iff, List.forall₂_iff_get]
    refine ⟨by simp, fun j hj _ => ?_⟩
    have hnext := lineShows_rowLine h (j + 1)
    rw [show (fileRow f).map (fun c => (c.alignment, c.lines.getD (j + 1) [])) =
      (.left, names.get ⟨j, hj⟩) :: (figures f).map fun _ => (.right, []) by
        simp [fileRow, figures, Cell.ofText, Cell.ofNumeral, hlines, hj]] at hnext
    simpa using hnext

theorem lineFeed_not_mem_decimal (n : Nat) : '\n' ∉ Text.decimal n :=
  fun h => absurd (Text.isDigit_of_mem_decimal h) (by decide)

theorem lineFeed_not_mem_ratioText (x : Binary64) : '\n' ∉ x.ratioText := by
  have hsign : ∀ negative, '\n' ∉ Binary64.signText negative := by decide
  have hfixed : ∀ places n, '\n' ∉ Text.fixedPoint places n := by
    intro places n
    simp only [Text.fixedPoint, Text.paddedDecimal, List.mem_append, List.mem_cons, not_or]
    exact ⟨lineFeed_not_mem_decimal _, by decide,
      fun h => absurd (List.eq_of_mem_replicate h) (by decide), lineFeed_not_mem_decimal _⟩
  rw [Binary64.ratioText]
  cases Binary64.divNat (Binary64.roundAway (Binary64.mulNat x 100)) 100 with
  | finite s m e =>
      rw [Binary64.fixed, List.mem_append, not_or]
      exact ⟨hsign s, hfixed _ _⟩
  | infinity s =>
      rw [Binary64.fixed, List.mem_append, not_or]
      exact ⟨hsign s, by decide⟩
  | nan => decide

theorem lineFeed_not_mem_figures {f : FileMetrics} {text : List Char} (h : text ∈ figures f) :
    '\n' ∉ text := by
  simp only [figures, List.mem_cons, List.not_mem_nil, or_false] at h
  rcases h with rfl | rfl | rfl | rfl | rfl | rfl
  case inr.inr.inr.inl => exact lineFeed_not_mem_ratioText _
  all_goals exact lineFeed_not_mem_decimal _

namespace BlockShows

variable {widths : List Nat} {f : FileMetrics} {block : List (List Char)}

theorem length_eq (h : BlockShows widths f block) :
    block.length = 1 + f.path.display.count '\n' := by
  obtain ⟨name, names, first, rest, hlines, rfl, -, hrest⟩ := h
  rw [Nat.add_comm, ← Text.length_lines, hlines, List.length_cons, List.length_cons,
    hrest.length_eq]

theorem exists_fields (h : BlockShows widths f block) {line : List Char} (hline : line ∈ block) :
    ∃ fields, LineShows widths fields line ∧ ∀ field ∈ fields, '\n' ∉ field.2 := by
  obtain ⟨name, names, first, rest, hlines, rfl, hfirst, hrest⟩ := h
  have hname : ∀ other ∈ name :: names, '\n' ∉ other := fun other hother =>
    Text.not_mem_of_mem_splitOn (hlines ▸ hother)
  rcases List.mem_cons.1 hline with rfl | hline
  · refine ⟨_, hfirst, fun field hfield => ?_⟩
    rcases List.mem_cons.1 hfield with rfl | hfield
    · exact hname name (List.mem_cons_self ..)
    · obtain ⟨text, htext, rfl⟩ := List.mem_map.1 hfield
      exact lineFeed_not_mem_figures htext
  · obtain ⟨other, hother, hshows⟩ := exists_left_of_mem hrest hline
    refine ⟨_, hshows, fun field hfield => ?_⟩
    rcases List.mem_cons.1 hfield with rfl | hfield
    · exact hname other (List.mem_cons_of_mem name hother)
    · obtain ⟨text, -, rfl⟩ := List.mem_map.1 hfield
      simp

end BlockShows

/-! ## The table -/

def titles : List String :=
  ["File", "Lines", "Empty", "Comments", "Commenting", "Logical", "Complexity"]

/-- A table that shows the files in blocks of their own, with a dashed rule between neighbours. -/
def TableShows (widths : List Nat) (files : List FileMetrics) (table : List (List Char)) : Prop :=
  ∃ header blocks,
    table = rule '┌' '─' '┬' '┐' widths :: header :: rule '╞' '═' '╪' '╡' widths ::
      List.intercalate [rule '├' '╌' '┼' '┤' widths] blocks ++ [rule '└' '─' '┴' '┘' widths] ∧
    LineShows widths (titles.map fun title => (.left, title.toList)) header ∧
    List.Forall₂ (BlockShows widths) files blocks

namespace TableShows

variable {widths : List Nat} {files : List FileMetrics} {table : List (List Char)}

theorem length_eq (h : TableShows widths files table) (hne : files ≠ []) :
    table.length = files.length + 3 +
      (files.map fun f => 1 + f.path.display.count '\n').sum := by
  obtain ⟨header, blocks, rfl, -, hblocks⟩ := h
  have hblocksNe : blocks ≠ [] := by
    rintro rfl
    exact hne (List.forall₂_nil_right_iff.1 hblocks)
  have hsum : (blocks.map fun block => block.length + 1).sum =
      files.length + (files.map fun f => 1 + f.path.display.count '\n').sum := by
    clear hne hblocksNe
    induction hblocks with
    | nil => rfl
    | cons hblock _ ih =>
        simp only [List.map_cons, List.sum_cons, List.length_cons, hblock.length_eq, ih]
        omega
  have hbody := length_intercalate_singleton (rule '├' '╌' '┼' '┤' widths) hblocksNe
  simp only [List.length_append, List.length_cons, List.length_nil]
  omega

theorem widths_ne_nil (h : TableShows widths files table) : widths ≠ [] := by
  obtain ⟨header, blocks, -, ⟨cells, hcells, -⟩, -⟩ := h
  rintro rfl
  cases hcells

/-- Every line of a table is drawn over the same columns. -/
theorem line_eq (h : TableShows widths files table) {line : List Char} (hline : line ∈ table) :
    Text.width line = lineWidth widths ∧ '\n' ∉ line := by
  have hne := h.widths_ne_nil
  obtain ⟨header, blocks, rfl, hheader, hblocks⟩ := h
  have hrule : ∀ left fill cross right,
      [left, fill, cross, right].all Text.standsAlone = true → '\n' ∉ [left, fill, cross, right] →
      Text.width (rule left fill cross right widths) = lineWidth widths ∧
        '\n' ∉ rule left fill cross right widths :=
    fun _ _ _ _ halone hfeed => ⟨width_rule halone hne, lineFeed_not_mem_rule hfeed⟩
  simp only [List.cons_append, List.mem_cons, List.mem_append, List.not_mem_nil, or_false] at hline
  rcases hline with rfl | rfl | rfl | hline | rfl
  · exact hrule _ _ _ _ (by decide +kernel) (by decide)
  · refine ⟨hheader.width_eq hne, hheader.lineFeed_not_mem ?_⟩
    decide +kernel
  · exact hrule _ _ _ _ (by decide +kernel) (by decide)
  · rcases mem_intercalate_singleton hline with rfl | ⟨block, hblock, hline⟩
    · exact hrule _ _ _ _ (by decide +kernel) (by decide)
    · obtain ⟨f, -, hshows⟩ := exists_left_of_mem hblocks hblock
      obtain ⟨fields, hfields, hfeed⟩ := hshows.exists_fields hline
      exact ⟨hfields.width_eq hne, hfields.lineFeed_not_mem hfeed⟩
  · exact hrule _ _ _ _ (by decide +kernel) (by decide)

end TableShows

theorem tableShows_fileTableLines {files : List FileMetrics} (hne : files ≠ []) :
    TableShows (columnWidths fileHeader (files.map fileRow)) files (fileTableLines files) := by
  have hfits : ∀ row ∈ fileHeader :: files.map fileRow,
      Fits (columnWidths fileHeader (files.map fileRow)) row := by
    refine fits_columnWidths fun row hrow => ?_
    obtain ⟨f, -, rfl⟩ := List.mem_map.1 hrow
    rfl
  generalize hwidths : columnWidths fileHeader (files.map fileRow) = widths at hfits ⊢
  refine ⟨rowLine widths fileHeader 0, (files.map fileRow).map (rowLines widths), ?_, ?_, ?_⟩
  · have hheader : rowLines widths fileHeader = [rowLine widths fileHeader 0] := rfl
    rw [fileTableLines, if_neg (by simpa using hne), tableLines, hwidths, hheader, bodyLines,
      List.cons_append, List.singleton_append]
  · exact lineShows_rowLine (hfits fileHeader (List.mem_cons_self ..)) 0
  · rw [List.forall₂_map_right_iff, List.forall₂_map_right_iff, List.forall₂_same]
    intro f hf
    exact blockShows_rowLines (hfits _ (List.mem_cons_of_mem _ (List.mem_map_of_mem hf)))

/-- The table of files is rectangular, shows every file whole and in its turn, and has no column
wider than what stands in it. -/
theorem fileTable_rectangular (files : List FileMetrics) (hne : files ≠ []) :
    ∃ widths table, Text.lines (fileTable files) = table ++ [[]] ∧
      TableShows widths files table ∧
      table.length = files.length + 3 +
        (files.map fun f => 1 + f.path.display.count '\n').sum ∧
      (∃ w, ∀ line ∈ table, Text.width line = w) ∧
      ∀ k w : Nat, widths[k]? = some w →
        ∃ row ∈ fileHeader :: files.map fileRow, ∃ c : Cell, row[k]? = some c ∧ c.width = w := by
  have hshows := tableShows_fileTableLines hne
  refine ⟨_, fileTableLines files, ?_, hshows, hshows.length_eq hne,
    ⟨_, fun line hline => (hshows.line_eq hline).1⟩, fun k w => exists_cell_of_columnWidths⟩
  exact Text.lines_closed fun line hline => (hshows.line_eq hline).2

/-- Two files, one under a path of two lines with wide characters and a combining mark. -/
def listedFiles : List FileMetrics :=
  [⟨.ofString "語彙\ne\u0301.ts", 12, 1, 2, .ratio 2 12, 12, 5, 3⟩,
    ⟨.ofString "src/b.js", 1000, 10, 0, .ratio 0 1000, 1000, 800, 97⟩]

theorem fileTable_rectangular_listed :
    listedFiles ≠ [] ∧ ∃ widths table, Text.lines (fileTable listedFiles) = table ++ [[]] ∧
      TableShows widths listedFiles table ∧ table.length = 8 ∧
      ∃ w, ∀ line ∈ table, Text.width line = w := by
  have hne : listedFiles ≠ [] := List.cons_ne_nil _ _
  obtain ⟨widths, table, hlines, hshows, hlength, hwidth, -⟩ :=
    fileTable_rectangular listedFiles hne
  have height : listedFiles.length + 3 +
      (listedFiles.map fun f => 1 + f.path.display.count '\n').sum = 8 := by
    decide +kernel
  exact ⟨hne, widths, table, hlines, hshows, hlength.trans height, hwidth⟩

end SourceGauge.Report
