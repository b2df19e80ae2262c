import PathQuery.Proofs.Statement.Placeholders
import PathQuery.Statement.Insert
/-!
# What the statements of an insert carry

Rows are inserted by one statement or by one statement to a row. Both are statements for some of the rows: behind the
names of the fields stands a group of placeholders for each row, and the values are those of the rows, one row after
the other. All rows are as long as the list of fields, so that a group starts as many rows' values into the list as
there are groups in front of it.
-/

namespace PathQuery

open Text (joinWith repeated)

/-! ### Rows one after the other -/

/-- In rows of one length, a value stands behind the values of all rows before its own. -/
theorem getElem?_flatten_rows {rows : List Row} {width : Nat} (hwidth : ∀ row ∈ rows, row.length = width)
    {r j : Nat} {row : Row} {v : Value} (hrow : rows[r]? = some row) (hv : row[j]? = some v) :
    rows.flatten[r * width + j]? = some v := by
  induction rows generalizing r with
  | nil => cases hrow
  | cons first rest ih =>
    obtain ⟨hfirst, hrest⟩ := List.forall_mem_cons.1 hwidth
    cases r with
    | zero =>
      cases hrow
      have hlt : j < row.length := (List.getElem?_eq_some_iff.1 hv).1
      rw [List.flatten_cons, Nat.zero_mul, Nat.zero_add, List.getElem?_append_left hlt]
      exact hv
    | succ r =>
      have hplace : (r + 1) * width + j = first.length + (r * width + j) := by
        rw [hfirst, Nat.succ_mul]
        omega
      rw [List.flatten_cons, hplace, List.getElem?_append_right (Nat.le_add_right _ _), Nat.add_sub_cancel_left]
      exact ih hrest hrow

/-- The placeholder behind some text of a statement is bound to a value: it is the one that comes after as many values
as there are placeholders in the text. -/
def Sql.Binds (sql : Sql) (front : String) (v : Value) : Prop :=
  (∃ back, sql.text = front ++ Sql.placeholder ++ back) ∧ sql.params[marks front]? = some v

namespace Insert

variable (i : Insert) (backend : Backend)

/-- The statement that inserts some rows. -/
def statement (rows : List Row) : Sql :=
  ⟨i.head backend ++ joinWith ", " (repeated rows.length i.rowText), rows.flatten⟩

/-- A statement up to a placeholder: that for a column, in the group of a row. The columns are named in front of the
groups, in the order of the placeholders in a group. -/
def upTo (r j : Nat) : String :=
  "INSERT INTO " ++ backend.quoteName i.table ++ " (" ++ joinWith ", " (i.fields.map backend.quoteName) ++
    ") VALUES " ++ joinWith "" (repeated r (i.rowText ++ ", ")) ++ "(" ++
    joinWith "" (repeated j (Sql.placeholder ++ ", "))

/-- In the group of each row, the placeholder for each column is bound to the row's value in that column. -/
def Carries (rows : List Row) (sql : Sql) : Prop :=
  ∀ r row j v, rows[r]? = some row → row[j]? = some v → sql.Binds (i.upTo backend r j) v

/-! ### One statement -/

variable {i backend}

theorem upTo_eq (r j : Nat) :
    i.upTo backend r j = i.head backend ++ joinWith "" (repeated r (i.rowText ++ ", ")) ++ "(" ++
      joinWith "" (repeated j (Sql.placeholder ++ ", ")) :=
  rfl

theorem statements_of_bulk (hrows : i.rows ≠ []) (hbulk : backend.features.bulkInsert = true) :
    i.statements backend = [i.statement backend i.rows] := by
  have hsome : ¬ i.rows.isEmpty := by simpa using hrows
  rw [statements, if_neg hsome, if_pos hbulk, statement]

theorem statements_of_single (hbulk : backend.features.bulkInsert = false) :
    i.statements backend = i.rows.map fun row => i.statement backend [row] := by
  have hone : ∀ row : Row, i.statement backend [row] = ⟨i.head backend ++ i.rowText, row⟩ := by
    intro row
    simp [statement, repeated]
  simp only [hone]
  cases hrows : i.rows with
  | nil => simp [statements, hrows]
  | cons row rest => simp [statements, hrows, hbulk]

theorem marks_rowText (i : Insert) : marks i.rowText = i.fields.length := by
  have hopen : Clean "(" := by decide
  have hclose : IsGap ")" := by decide
  rw [rowText, hclose.append_marks, hopen.marks_append, marks_placeholders]

section Statement

variable (hnames : ∀ name ∈ i.table :: i.fields, Clean (backend.quoteName name))

include hnames

theorem head_clean : Clean (i.head backend) := by
  obtain ⟨htable, hfields⟩ := List.forall_mem_cons.1 hnames
  have hlist : Clean (joinWith ", " (i.fields.map backend.quoteName)) := by
    apply clean_joinWith (by decide)
    intro part hpart
    obtain ⟨field, hfield, rfl⟩ := List.mem_map.1 hpart
    exact hfields field hfield
  have hfront : Clean ("INSERT INTO " ++ backend.quoteName i.table ++ " (") :=
    clean_append.2 ⟨clean_append.2 ⟨by decide, htable⟩, by decide⟩
  show Clean ("INSERT INTO " ++ backend.quoteName i.table ++ " (" ++
    joinWith ", " (i.fields.map backend.quoteName) ++ ") VALUES ")
  exact clean_append.2 ⟨clean_append.2 ⟨hfront, hlist⟩, by decide⟩

/-- In front of a placeholder stand those of the rows before and those of the columns before. -/
theorem marks_upTo (r j : Nat) : marks (i.upTo backend r j) = r * i.fields.length + j := by
  have hgap : IsGap ", " := by decide
  have hopen : IsGap "(" := by decide
  have hone : marks (Sql.placeholder ++ ", ") = 1 := by decide
  have hrow : (i.rowText ++ ", ").toList.head? ≠ some 's' := by
    rw [rowText, String.append_assoc, String.append_assoc]
    exact hopen.head_append (by decide) _
  have hcolumns : ("(" ++ joinWith "" (repeated j (Sql.placeholder ++ ", "))).toList.head? ≠ some 's' :=
    hopen.head_append (by decide) _
  rw [upTo_eq, String.append_assoc, String.append_assoc, (head_clean hnames).marks_append, marks_append hcolumns,
    marks_repeated hrow, hgap.append_marks, marks_rowText, hopen.1.marks_append, marks_repeated (by decide), hone,
    Nat.mul_one]

variable {rows : List Row} (hwidth : ∀ row ∈ rows, row.length = i.fields.length)

include hwidth

theorem statement_balanced : (i.statement backend rows).Balanced := by
  have hgroups : ∀ f ∈ rows.map (Sql.mk i.rowText), f.Balanced := by
    intro f hf
    obtain ⟨row, hrow, rfl⟩ := List.mem_map.1 hf
    rw [Sql.Balanced, marks_rowText, hwidth row hrow]
  have hlaid : Laid (rows.map (Sql.mk i.rowText)) (i.statement backend rows).text := by
    have htexts : (rows.map (Sql.mk i.rowText)).map Sql.text = repeated rows.length i.rowText := by
      rw [List.map_map, repeated, ← List.map_const']
      rfl
    rw [statement, ← htexts]
    exact ((LaidAll.of_balanced hgroups).joinWith (by decide) (by decide)).behind (head_clean hnames)
  rw [Sql.Balanced, hlaid.count, List.flatMap_map]
  show (rows.flatMap fun row => row).length = rows.flatten.length
  rw [List.flatMap_id']

theorem statement_carries : i.Carries backend rows (i.statement backend rows) := by
  intro r row j v hrow hv
  have hr : r < rows.length := (List.getElem?_eq_some_iff.1 hrow).1
  have hj : j < i.fields.length := by
    rw [← hwidth row (List.mem_of_getElem? hrow)]
    exact (List.getElem?_eq_some_iff.1 hv).1
  constructor
  · obtain ⟨later, hlater⟩ := Text.joinWith_repeated ", " i.rowText hr
    obtain ⟨right, hright⟩ := Text.joinWith_repeated ", " Sql.placeholder hj
    have hgroup : i.rowText =
        "(" ++ joinWith "" (repeated j (Sql.placeholder ++ ", ")) ++ Sql.placeholder ++ (right ++ ")") := by
      rw [rowText, Sql.placeholders, hright]
      simp only [String.append_assoc]
    refine ⟨right ++ ")" ++ later, ?_⟩
    calc
      (i.statement backend rows).text =
          i.head backend ++ (joinWith "" (repeated r (i.rowText ++ ", ")) ++ i.rowText ++ later) := by
        rw [statement, hlater]
      _ = i.head backend ++ (joinWith "" (repeated r (i.rowText ++ ", ")) ++
          ("(" ++ joinWith "" (repeated j (Sql.placeholder ++ ", ")) ++ Sql.placeholder ++ (right ++ ")")) ++ later) := by
        rw [← hgroup]
      _ = i.upTo backend r j ++ Sql.placeholder ++ (right ++ ")" ++ later) := by
        simp only [upTo_eq, String.append_assoc]
  · rw [marks_upTo hnames]
    exact getElem?_flatten_rows hwidth hrow hv

end Statement

/-! ### All statements -/

/-- Each statement inserts some of the rows. -/
theorem exists_rows {sql : Sql} (hsql : sql ∈ i.statements backend) :
    ∃ rows, sql = i.statement backend rows ∧ ∀ row ∈ rows, row ∈ i.rows := by
  cases hbulk : backend.features.bulkInsert with
  | true =>
    by_cases hrows : i.rows = []
    · simp [statements, hrows] at hsql
    · rw [statements_of_bulk hrows hbulk, List.mem_singleton] at hsql
      exact ⟨i.rows, hsql, fun row => id⟩
  | false =>
    rw [statements_of_single hbulk] at hsql
    obtain ⟨row, hrow, rfl⟩ := List.mem_map.1 hsql
    exact ⟨[row], rfl, by simpa using hrow⟩

/-- The values of all statements are those of the rows, whichever way they are inserted. -/
theorem params_statements (i : Insert) (backend : Backend) :
    (i.statements backend).flatMap Sql.params = i.rows.flatten := by
  cases hbulk : backend.features.bulkInsert with
  | true =>
    by_cases hrows : i.rows = []
    · simp [statements, hrows]
    · rw [statements_of_bulk hrows hbulk, List.flatMap_singleton]
      rfl
  | false =>
    rw [statements_of_single hbulk, List.flatMap_map]
    simp [statement, List.flatMap_id']

end Insert

end PathQuery
