import SourceGauge.Proofs.Stripping

/-!
# Line totals

A source is counted twice: in one pass over its lines, and by a separate count for each field of
its record. The two agree, and the columns account for every line: only a line with code before
a comment is in two of them.
-/

namespace SourceGauge

namespace Line

/-! ## The columns of one line -/

/-- A line that holds code and no comment. -/
def Kind.isCode : Kind → Bool
  | code _ => true
  | blank | blockComment | continuation | inlineComment _ => false

/-- An inline comment with code before it. -/
def Kind.isCommentedCode : Kind → Bool
  | inlineComment (some _) => true
  | blank | blockComment | continuation | inlineComment none | code _ => false

/-- The line counts both as a comment and as code. -/
def Kind.isDouble (kind : Kind) : Bool := kind.isComment && kind.code?.isSome

theorem Kind.isDouble_eq (kind : Kind) : kind.isDouble = kind.isCommentedCode := by
  rcases kind with _ | _ | _ | (_ | part) | text <;> rfl

/-- A line is blank, a comment or plain code, and only one of them. -/
theorem Kind.column_eq_one (kind : Kind) :
    (if kind = .blank then 1 else 0) + (if kind.isComment then 1 else 0) +
      (if kind.isCode then 1 else 0) = 1 := by
  rcases kind with _ | _ | _ | part | text <;> rfl

theorem Kind.code_column (kind : Kind) :
    kind.code?.toList.length =
      (if kind.isCode then 1 else 0) + (if kind.isCommentedCode then 1 else 0) := by
  rcases kind with _ | _ | _ | (_ | part) | text <;> rfl

/-! ## The columns of a run of lines -/

theorem length_eq_columns (kinds : List Kind) :
    kinds.length =
      kinds.countP (· = .blank) + kinds.countP Kind.isComment + kinds.countP Kind.isCode := by
  induction kinds with
  | nil => rfl
  | cons kind kinds ih =>
      have hkind := kind.column_eq_one
      simp only [List.length_cons, List.countP_cons, decide_eq_true_eq]
      omega

theorem length_portions (kinds : List Kind) :
    (kinds.filterMap Kind.code?).length =
      kinds.countP Kind.isCode + kinds.countP Kind.isCommentedCode := by
  induction kinds with
  | nil => rfl
  | cons kind kinds ih =>
      have hkind := kind.code_column
      have hsplit : ((kind :: kinds).filterMap Kind.code?).length =
          kind.code?.toList.length + (kinds.filterMap Kind.code?).length := by
        rw [List.filterMap_cons]
        cases kind.code? with
        | none => simp
        | some part => simp [Nat.add_comm]
      simp only [hsplit, List.countP_cons]
      omega

theorem countP_isDouble (kinds : List Kind) :
    kinds.countP Kind.isDouble = kinds.countP Kind.isCommentedCode := by
  rw [funext Kind.isDouble_eq]

theorem Count.ofSource_eq (source : List Char) :
    Count.ofSource source =
      ⟨(classifyAll source).length, (classifyAll source).countP (· = .blank),
        (classifyAll source).countP Kind.isComment, (codePortions source).length⟩ := by
  rw [Count.ofSource, Count.foldl_addLine]
  simp only [Count.zero, Nat.zero_add]
  rfl

end Line

theorem Scan.logicalSum_eq_sum (codes : List (List Char)) :
    Scan.logicalSum codes = (codes.map Scan.logicalCount).sum := by
  induction codes with
  | nil => rfl
  | cons code codes ih => rw [Scan.logicalSum, List.map_cons, List.sum_cons, ih]

namespace FileMetrics

/-- The count in one pass and the record of a source agree on lines, blank lines and comment lines.
There is one more line than line feeds. Every line is in one column, and a second time in the code
column if it has code before a comment. The logical lines have one summand for each line that
carries code. -/
theorem line_totals_add_up (path : Path) (source : List Char) :
    (Line.Count.ofSource source).lines = (ofSource path source).lines ∧
    (Line.Count.ofSource source).blank = (ofSource path source).emptyLines ∧
    (Line.Count.ofSource source).comments = (ofSource path source).commentLines ∧
    (Line.Count.ofSource source).lines = source.count '\n' + 1 ∧
    (Line.Count.ofSource source).lines =
      (Line.Count.ofSource source).blank + (Line.Count.ofSource source).comments +
        (Line.classifyAll source).countP Line.Kind.isCode ∧
    (Line.Count.ofSource source).code =
      (Line.classifyAll source).countP Line.Kind.isCode +
        (Line.classifyAll source).countP Line.Kind.isCommentedCode ∧
    (Line.Count.ofSource source).blank + (Line.Count.ofSource source).comments +
        (Line.Count.ofSource source).code =
      (Line.Count.ofSource source).lines +
        (Line.classifyAll source).countP Line.Kind.isDouble ∧
    (ofSource path source).logicalLines =
      ((Line.codePortions source).map Scan.logicalCount).sum ∧
    (Line.codePortions source).length = (Line.Count.ofSource source).code := by
  have hlines : (Line.classifyAll source).length = source.count '\n' + 1 := by
    rw [Line.classifyAll, Line.length_classifyFrom, Text.length_lines]
  have hcolumns := Line.length_eq_columns (Line.classifyAll source)
  have hcode : (Line.codePortions source).length = _ :=
    Line.length_portions (Line.classifyAll source)
  rw [Line.Count.ofSource_eq, Line.countP_isDouble]
  refine ⟨rfl, rfl, rfl, hlines, hcolumns, hcode, ?_, Scan.logicalSum_eq_sum _, rfl⟩
  dsimp only
  omega

/-- A source with a line of each kind, one of them in two columns. -/
example : Line.Count.ofSource "/* a\n*/\n\n* b\nif (c) // d\n// e\nf()".toList = ⟨7, 1, 5, 2⟩ := by
  decide

end FileMetrics

end SourceGauge
