import Mathlib.Data.List.Forall2
import SourceGauge.Proofs.CountRatios
import SourceGauge.Proofs.JsonRoundTrip
import SourceGauge.Report.Document

/-!
# The data in the JSON document

The text of the document is a JSON text, and its value shows the totals and the records that it
was made from, member by member. A value shows only one set of data, so different data have
different texts.
-/

namespace SourceGauge

namespace Json

/-! ## What a value shows -/

/-- A numeral of the count. -/
def ShowsCount (n : Nat) (v : Json) : Prop :=
  ∃ token, v = number token ∧ Digits token ∧ Text.digitsValue token = n

def ShowsText (text : List Char) (v : Json) : Prop := v = string (some text)

/-- The token that is written for a datum; only finite data have one. -/
inductive ShowsLevel : Binary64 → Json → Prop where
  | finite (negative : Bool) (significand : Nat) (exponent : Int) :
      ShowsLevel (.finite negative significand exponent)
        (number (finiteToken negative significand exponent))
  | infinity (negative : Bool) : ShowsLevel (.infinity negative) null
  | nan : ShowsLevel .nan null

/-- An array with one value for each description, in order. -/
def ShowsList (items : List (Json → Prop)) (v : Json) : Prop :=
  ∃ values, v = array values ∧ List.Forall₂ (fun shows value => shows value) items values

/-- An object with exactly these members, in order. -/
def ShowsFields (fields : List (String × (Json → Prop))) (v : Json) : Prop :=
  ∃ members, v = object members ∧
    List.Forall₂ (fun field member => member.1 = some field.1.toList ∧ field.2 member.2)
      fields members

theorem showsCount_ofNat (n : Nat) : ShowsCount n (ofNat n) :=
  ⟨Text.decimal n, rfl, digits_decimal n, Text.digitsValue_decimal n⟩

theorem showsLevel_ofBinary64 (x : Binary64) : ShowsLevel x (ofBinary64 x) := by
  cases x with
  | finite negative significand exponent => exact .finite negative significand exponent
  | infinity negative => exact .infinity negative
  | nan => exact .nan

theorem showsFields_ofFields {shown : List (String × (Json → Prop))}
    {fields : List (String × Json)}
    (h : List.Forall₂ (fun s f => f.1 = s.1 ∧ s.2 f.2) shown fields) :
    ShowsFields shown (ofFields fields) := by
  refine ⟨_, rfl, ?_⟩
  rw [List.forall₂_map_right_iff]
  apply h.imp
  rintro s f ⟨hname, hvalue⟩
  exact ⟨by rw [hname], hvalue⟩

/-! ## A value shows only one thing -/

theorem exists_showsCount_iff {n n' : Nat} :
    (∃ v, ShowsCount n v ∧ ShowsCount n' v) ↔ n = n' := by
  constructor
  · rintro ⟨v, ⟨token, rfl, -, hn⟩, token', htoken, -, hn'⟩
    cases htoken
    exact hn.symm.trans hn'
  · rintro rfl
    exact ⟨_, showsCount_ofNat n, showsCount_ofNat n⟩

theorem exists_showsText_iff {s s' : List Char} :
    (∃ v, ShowsText s v ∧ ShowsText s' v) ↔ s = s' := by
  simp [ShowsText]

theorem forall₂_meet {R : α → γ → Prop} {S : β → γ → Prop} {as : List α} {bs : List β}
    {cs : List γ} (h : List.Forall₂ R as cs) (h' : List.Forall₂ S bs cs) :
    List.Forall₂ (fun a b => ∃ c, R a c ∧ S b c) as bs := by
  induction h generalizing bs with
  | nil =>
      cases h'
      exact .nil
  | cons hac hrest ih =>
      cases h' with
      | cons hbc hrest' => exact .cons ⟨_, hac, hbc⟩ (ih hrest')

theorem ShowsList.common {items items' : List (Json → Prop)} {v : Json}
    (h : ShowsList items v) (h' : ShowsList items' v) :
    List.Forall₂ (fun shows shows' => ∃ w, shows w ∧ shows' w) items items' := by
  obtain ⟨values, rfl, hvalues⟩ := h
  obtain ⟨values', hsame, hvalues'⟩ := h'
  cases hsame
  exact forall₂_meet hvalues hvalues'

/-- Two descriptions of one object have the same names, and a common value under each. -/
theorem ShowsFields.common {fields fields' : List (String × (Json → Prop))} {v : Json}
    (h : ShowsFields fields v) (h' : ShowsFields fields' v) :
    List.Forall₂ (fun a b => a.1 = b.1 ∧ ∃ w, a.2 w ∧ b.2 w) fields fields' := by
  obtain ⟨members, rfl, hmembers⟩ := h
  obtain ⟨members', hsame, hmembers'⟩ := h'
  cases hsame
  apply (forall₂_meet hmembers hmembers').imp
  rintro a b ⟨member, ⟨hname, hvalue⟩, hname', hvalue'⟩
  have hnames := Option.some.inj (hname.symm.trans hname')
  exact ⟨String.toList_inj.1 hnames, member.2, hvalue, hvalue'⟩

/-! ## Texts of shown values -/

theorem printable_ofFields {fields : List (String × Json)} (h : ∀ f ∈ fields, Printable f.2) :
    Printable (ofFields fields) := by
  apply Printable.object
  · intro m hm
    obtain ⟨f, -, rfl⟩ := List.mem_map.1 hm
    exact ⟨_, rfl⟩
  · intro m hm
    obtain ⟨f, hf, rfl⟩ := List.mem_map.1 hm
    exact h f hf

theorem printable_ofNat (n : Nat) : Printable (ofNat n) := .number (isNumber_decimal n)

theorem printable_ofBinary64 (x : Binary64) : Printable (ofBinary64 x) := by
  cases x with
  | finite negative significand exponent => exact .number (isNumber_finiteToken ..)
  | infinity negative => exact .null
  | nan => exact .null

end Json

namespace Report

open Json

/-- The eight members of a record. -/
def ShowsFile (f : FileMetrics) : Json → Prop :=
  ShowsFields
    [("cyclomatic_complexity", ShowsCount f.complexity),
      ("file_path", ShowsText f.path.text),
      ("level_of_commenting", ShowsLevel f.commenting),
      ("logical_lines", ShowsCount f.logicalLines),
      ("num_comment_lines", ShowsCount f.commentLines),
      ("num_empty_lines", ShowsCount f.emptyLines),
      ("num_lines", ShowsCount f.lines),
      ("physical_lines", ShowsCount f.physicalLines)]

/-- The seven totals and their level of commenting. -/
def ShowsTotals (t : Totals) : Json → Prop :=
  ShowsFields
    [("level_of_commenting", ShowsLevel t.commenting),
      ("total_comment_lines", ShowsCount t.commentLines),
      ("total_cyclomatic_complexity", ShowsCount t.complexity),
      ("total_empty_lines", ShowsCount t.emptyLines),
      ("total_files", ShowsCount t.files),
      ("total_lines", ShowsCount t.lines),
      ("total_logical_lines", ShowsCount t.logicalLines),
      ("total_physical_lines", ShowsCount t.physicalLines)]

/-- The totals, behind the records if there are any to show. -/
def ShowsDocument (t : Totals) : Option (List FileMetrics) → Json → Prop
  | none => ShowsFields [("summary", ShowsTotals t)]
  | some fs => ShowsFields [("files", ShowsList (fs.map ShowsFile)), ("summary", ShowsTotals t)]

theorem showsFile_fileValue (f : FileMetrics) : ShowsFile f (fileValue f) := by
  apply showsFields_ofFields
  simp only [List.forall₂_cons, List.forall₂_nil_left_iff, showsCount_ofNat, showsLevel_ofBinary64,
    and_self, true_and, and_true]
  rfl

theorem showsTotals_totalsValue (t : Totals) : ShowsTotals t (totalsValue t) := by
  apply showsFields_ofFields
  simp only [List.forall₂_cons, List.forall₂_nil_left_iff, showsCount_ofNat, showsLevel_ofBinary64,
    and_self]

theorem showsDocument_documentValue (t : Totals) (files : Option (List FileMetrics)) :
    ShowsDocument t files (documentValue t files) := by
  have htotals := showsTotals_totalsValue t
  cases files with
  | none => exact showsFields_ofFields (.cons ⟨rfl, htotals⟩ .nil)
  | some fs =>
      have hfiles : ShowsList (fs.map ShowsFile) (.array (fs.map fileValue)) := by
        refine ⟨_, rfl, ?_⟩
        rw [List.forall₂_map_left_iff, List.forall₂_map_right_iff, List.forall₂_same]
        intro f _
        exact showsFile_fileValue f
      exact showsFields_ofFields (.cons ⟨rfl, hfiles⟩ (.cons ⟨rfl, htotals⟩ .nil))

theorem printable_fileValue (f : FileMetrics) : Printable (fileValue f) := by
  apply printable_ofFields
  simp only [List.forall_mem_cons, printable_ofNat, printable_ofBinary64, true_and]
  exact ⟨.string f.path.text, List.forall_mem_nil _⟩

theorem printable_totalsValue (t : Totals) : Printable (totalsValue t) := by
  apply printable_ofFields
  simp only [List.forall_mem_cons, printable_ofNat, printable_ofBinary64, true_and]
  exact List.forall_mem_nil _

theorem printable_documentValue (t : Totals) (files : Option (List FileMetrics)) :
    Printable (documentValue t files) := by
  have htotals := printable_totalsValue t
  cases files with
  | none =>
      apply printable_ofFields
      simpa using htotals
  | some fs =>
      have hfiles : Printable (.array (fs.map fileValue)) := by
        apply Printable.array
        intro item hitem
        obtain ⟨f, -, rfl⟩ := List.mem_map.1 hitem
        exact printable_fileValue f
      apply printable_ofFields
      simpa using And.intro hfiles htotals

/-! ## The data of a text -/

/-- The path and the counters of a record, without the level. -/
def counters (f : FileMetrics) : Path × List Nat :=
  (f.path, [f.lines, f.emptyLines, f.commentLines, f.physicalLines, f.logicalLines, f.complexity])

theorem eq_of_showsTotals {t t' : Totals} (h : ∃ v, ShowsTotals t v ∧ ShowsTotals t' v) :
    t = t' := by
  obtain ⟨v, h, h'⟩ := h
  have hcommon := ShowsFields.common h h'
  simp only [List.forall₂_cons, exists_showsCount_iff, true_and] at hcommon
  obtain ⟨-, hcomments, hcomplexity, hempty, hfiles, hlines, hlogical, hphysical, -⟩ := hcommon
  cases t
  cases t'
  rw [Totals.mk.injEq]
  exact ⟨hfiles, hlines, hempty, hcomments, hphysical, hlogical, hcomplexity⟩

theorem counters_eq_of_showsFile {f f' : FileMetrics} (h : ∃ v, ShowsFile f v ∧ ShowsFile f' v) :
    counters f = counters f' := by
  obtain ⟨v, h, h'⟩ := h
  have hcommon := ShowsFields.common h h'
  simp only [List.forall₂_cons, exists_showsCount_iff, exists_showsText_iff, true_and] at hcommon
  obtain ⟨hcomplexity, hpath, -, hlogical, hcomments, hempty, hlines, hphysical, -⟩ := hcommon
  have hpath : f.path = f'.path := congrArg Path.mk hpath
  rw [counters, counters, hpath, hlines, hempty, hcomments, hphysical, hlogical, hcomplexity]

theorem counters_eq_of_showsList {fs fs' : List FileMetrics}
    (h : ∃ v, ShowsList (fs.map ShowsFile) v ∧ ShowsList (fs'.map ShowsFile) v) :
    fs.map counters = fs'.map counters := by
  obtain ⟨v, h, h'⟩ := h
  have hcommon := h.common h'
  rw [List.forall₂_map_left_iff, List.forall₂_map_right_iff] at hcommon
  rw [← List.forall₂_eq_eq_eq, List.forall₂_map_left_iff, List.forall₂_map_right_iff]
  exact hcommon.imp fun _ _ => counters_eq_of_showsFile

/-- A document shows one set of data. -/
theorem ShowsDocument.unique {t t' : Totals} {files files' : Option (List FileMetrics)} {v : Json}
    (h : ShowsDocument t files v) (h' : ShowsDocument t' files' v) :
    t = t' ∧ files.map (·.map counters) = files'.map (·.map counters) := by
  -- With records on one side only, the first names differ.
  rcases files with _ | fs <;> rcases files' with _ | fs' <;>
    have hcommon := ShowsFields.common h h' <;>
    simp only [List.forall₂_cons, true_and] at hcommon
  · exact ⟨eq_of_showsTotals hcommon.1, rfl⟩
  · exact absurd hcommon.1.1 (by decide)
  · exact absurd hcommon.1.1 (by decide)
  · exact ⟨eq_of_showsTotals hcommon.2.1, congrArg some (counters_eq_of_showsList hcommon.1)⟩

/-- The text of the document is read in full and shows the data that it was made from; the level of
counts in 64 bits is a number. Texts of different totals, or of records that differ in a path or a
counter, are different. -/
theorem document_shows_its_data (t : Totals) (files : Option (List FileMetrics)) :
    (∃ v, parse? (document t files) = some v ∧ ShowsDocument t files v) ∧
    (t.commentLines < UInt64.size → t.lines < UInt64.size →
      ∃ negative significand exponent,
        t.commenting = .finite negative significand exponent) ∧
    ∀ t' files', document t files = document t' files' →
      t = t' ∧ files.map (·.map counters) = files'.map (·.map counters) := by
  have hreads : ∀ t files, parse? (document t files) = some (documentValue t files) :=
    fun t files => parse?_pretty (printable_documentValue t files)
  refine ⟨⟨_, hreads t files, showsDocument_documentValue t files⟩, Binary64.ratio_finite, ?_⟩
  intro t' files' hsame
  have hvalue := hreads t files
  rw [hsame, hreads t' files', Option.some.injEq] at hvalue
  apply ShowsDocument.unique (showsDocument_documentValue t files)
  rw [← hvalue]
  exact showsDocument_documentValue t' files'

/-- A record of two lines under any name. -/
def twoLines (name : List Char) (level : Binary64) : FileMetrics :=
  ⟨⟨name⟩, 2, 0, 1, level, 1, 0, 1⟩

/-- A line feed in a name is not taken for the two characters that it is written with, nor is the
null character left as it is; records that differ only in a level without a number show the same. -/
theorem document_shows_its_data_odd_names :
    (∃ v, parse? (document ⟨1, 2, 0, 1, 1, 0, 1⟩
        (some [twoLines ['"', '\\', '\x00'] (.ratio 1 2)])) = some v ∧
      ShowsDocument ⟨1, 2, 0, 1, 1, 0, 1⟩
        (some [twoLines ['"', '\\', '\x00'] (.ratio 1 2)]) v) ∧
    (∃ negative significand exponent,
      (⟨1, 2, 0, 1, 1, 0, 1⟩ : Totals).commenting = .finite negative significand exponent) ∧
    document ⟨1, 2, 0, 1, 1, 0, 1⟩ (some [twoLines ['\n'] (.ratio 1 2)]) ≠
      document ⟨1, 2, 0, 1, 1, 0, 1⟩ (some [twoLines ['\\', 'n'] (.ratio 1 2)]) ∧
    document ⟨1, 2, 0, 1, 1, 0, 1⟩ (some [twoLines ['\n'] .nan]) =
      document ⟨1, 2, 0, 1, 1, 0, 1⟩ (some [twoLines ['\n'] (.infinity true)]) ∧
    counters (twoLines ['\n'] .nan) = counters (twoLines ['\n'] (.infinity true)) := by
  have hodd := document_shows_its_data ⟨1, 2, 0, 1, 1, 0, 1⟩
    (some [twoLines ['"', '\\', '\x00'] (.ratio 1 2)])
  have hfeed := document_shows_its_data ⟨1, 2, 0, 1, 1, 0, 1⟩
    (some [twoLines ['\n'] (.ratio 1 2)])
  have hlevel := document_shows_its_data ⟨1, 2, 0, 1, 1, 0, 1⟩ (some [twoLines ['\n'] .nan])
  have hsame : document ⟨1, 2, 0, 1, 1, 0, 1⟩ (some [twoLines ['\n'] .nan]) =
      document ⟨1, 2, 0, 1, 1, 0, 1⟩ (some [twoLines ['\n'] (.infinity true)]) := rfl
  refine ⟨hodd.1, hodd.2.1 (by decide) (by decide), ?_, hsame, ?_⟩
  · intro h
    exact absurd (hfeed.2.2 _ _ h).2 (by decide)
  · simpa using (hlevel.2.2 _ _ hsame).2

end Report

end SourceGauge
