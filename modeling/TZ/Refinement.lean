import TZ.Relation
import TZ.Store

/-!
# The wrapper refines a typed relation

A table that `SQLite::createTable` has made of distinct `NOT NULL` columns holds
a typed relation (`Database.Holds`), and the methods of the wrapper do to it what
`TZ.Relation` says of relations: an `insertOne` that succeeds adds one record,
which holds under each name it was given the value it was given, and a
`selectMany` returns the first records of one answer, read in the order in which
the columns were requested.

The wrapper hands SQLite names and positions separately. The values of an INSERT
are counted from 1 in one loop, their placeholders are written by another, and
the columns of a result are counted from 0 in a third. A record is asked by
name, so what is proved here is that the three agree, whatever the order in
which the caller lists the columns.

The two sides are of different kinds. On the one there are texts, numbered placeholders,
untyped cells and a cursor; on the other a list of records, each of which maps names to
typed values. The way from the one to the other is cut into the pieces that can be wrong
by themselves: a value and its cell, a name and the position of its column, a WHERE
clause and the test of a row, an ORDER BY and a sort, a list of values and a new row.
Each has a section, and the last one puts them together.

Two things are assumed of SQLite, both of the engine as a parameter: that it compares
reals as numbers (`Engine.ComparesReals`), and that the comparison of numbers is an
order. Nothing is assumed of the order in which it scans a table or of how it breaks
ties; the statement therefore says that there is an answer and not which.
-/

open SqlText

variable {F : Type} [Double F]

/-! ## Cells -/

omit [Double F] in
/-- The cell that holds a value. -/
def DBVariants.cell : DBVariants F → Cell F
  | .string s => .text s
  | .int64 n => .integer n
  | .double x => .real x

/-- The cells of a record. -/
def Record.cells {tableColumns : List TableColumn} (r : Record F tableColumns) :
    List (Cell F) :=
  r.values.map DBVariants.cell

namespace DBVariants

omit [Double F] in
theorem cell_injective : Function.Injective (cell : DBVariants F → Cell F) := by
  intro v w h
  cases v <;> cases w <;> cases h <;> rfl

omit [Double F] in
@[simp] theorem isNull_cell (v : DBVariants F) : v.cell.isNull = false := by
  cases v <;> rfl

/-- A value is bound as the cell of what a C string shows of it.

Two values do not survive being bound: a text with a NUL byte, and a NaN. The
first is cut, the second becomes `NULL`. -/
theorem toCell_eq (v : DBVariants F) :
    v.toCell = if v.isNaN then .null else v.shown.cell := by
  cases v <;> rfl

theorem toCell_of_isNaN {v : DBVariants F} (h : v.isNaN = true) : v.toCell = .null := by
  rw [toCell_eq, if_pos h]

theorem toCell_of_not_isNaN {v : DBVariants F} (h : v.isNaN = false) :
    v.toCell = v.shown.cell := by
  rw [toCell_eq, h, if_neg Bool.false_ne_true]

end DBVariants

/-- **SQLite compares reals as numbers.**

Integers and texts are compared by the model itself. Of reals it is a
hypothesis because doubles are a parameter there. -/
def Engine.ComparesReals (E : Engine F) : Prop :=
  ∀ x y, Double.isNaN x = false → Double.isNaN y = false →
    E.cmp (.real x) (.real y) = Double.cmp x y

namespace Engine

variable {E : Engine F}

omit [Double F] in
/-- A value stays what it is in a column of its type.

A column of another type might convert it: an integer in a REAL column becomes
a real. This is why the types of the values must be those of the columns. -/
theorem affinity_cell (v : DBVariants F) : E.affinity v.columnType v.cell = v.cell := by
  cases v with
  | string s => exact E.affinity_text s
  | int64 n => exact E.affinity_integer n
  | double x => exact E.affinity_real x

/-- Values of one type are compared as such. -/
theorem cmp_cell (hE : E.ComparesReals) {v w : DBVariants F} (h : v.columnType = w.columnType)
    (hv : v.isNaN = false) (hw : w.isNaN = false) : E.cmp v.cell w.cell = v.compare w :=
  match v, w with
  | .string s, .string t => E.cmp_text s t
  | .int64 m, .int64 n => E.cmp_integer m n
  | .double x, .double y => hE x y hv hw

end Engine

/-! ## Columns

SQLite finds a column by name, without regard to case, and then uses its position. The
names are distinct, so that there is one position, and the record is asked with the
same name. -/

section Columns

variable {t : Table F} {name : String} {type : ColumnType}

omit [Double F] in
/-- The column that a name finds is the one at the position of the name. -/
theorem Table.column_eq (hdistinct : Distinct TableColumn.name t.columns)
    (h : Declares t.columns name type) :
    ∃ c, t.column name = some (c, Record.position t.columns name) ∧ c.type = type := by
  obtain ⟨c, hc, hname, htype⟩ := Record.column_position hdistinct h
  refine ⟨c, ?_, htype⟩
  have hzip : Distinct (fun p : TableColumn × ℕ => p.1.name) t.columns.zipIdx := by
    unfold Distinct
    rw [← List.pairwise_map (f := fun p : TableColumn × ℕ => p.1)
      (R := fun a b : TableColumn => sameWord a.name b.name = false), List.zipIdx_map_fst]
    exact hdistinct
  exact hzip.find?_eq_some_iff.mpr ⟨List.mem_zipIdx_iff_getElem?.mpr hc, hname⟩

/-- **The cell at the position of a name holds the value of that name.**

Everything that is said by name on the side of the relation is said by
position on the side of SQLite, and this lemma is the bridge. -/
theorem Record.cellAt_position {tableColumns : List TableColumn}
    (h : Declares tableColumns name type) (r : Record F tableColumns) :
    Cell.cellAt r.cells (position tableColumns name) = (r.get name).cell := by
  have hlt : position tableColumns name < r.values.length := by
    rw [r.length_values]
    exact position_lt h
  unfold Cell.cellAt cells get
  rw [List.getD_eq_getElem?_getD, List.getD_eq_getElem?_getD, List.getElem?_map,
    List.getElem?_eq_getElem hlt]
  rfl

end Columns

/-! ## Queries -/

omit [Double F] in
/-- A row of values is read column by column. -/
theorem Row.values_eq {row : Row F} {value : TableColumn → DBVariants F} {i : ℕ}
    {tableColumns : List TableColumn}
    (h : ∀ p ∈ tableColumns.zipIdx i, row.column p.2 p.1 = .ok ⟨p.1.name, value p.1⟩) :
    row.values i tableColumns = .ok (tableColumns.map fun c => ⟨c.name, value c⟩) := by
  induction tableColumns generalizing i with
  | nil => rfl
  | cons c cs ih =>
    rw [List.zipIdx_cons, List.forall_mem_cons] at h
    rw [Row.values, h.1, ih h.2]
    rfl

namespace Engine

variable {E : Engine F} {t : Table F}

/-- **SQLite's WHERE accepts what the relation's does.**

No column is `NULL`, and the value that is compared with is none either, or
the condition is not true of any row on either side. -/
theorem satisfies_cells (hE : E.ComparesReals)
    (hdistinct : Distinct TableColumn.name t.columns) {w : WhereClause F}
    (hw : Declares t.columns w.tableValue.columnName w.tableValue.value.columnType)
    (r : Record F t.columns) :
    E.satisfies t w.condition w.tableValue.value.toCell r.cells = w.accepts r := by
  obtain ⟨c, hcolumn, htype⟩ := Table.column_eq hdistinct hw
  obtain ⟨hget, hget₀⟩ := r.get_typed hdistinct hw
  unfold satisfies WhereClause.condition WhereClause.accepts
  simp only [hcolumn, Record.cellAt_position hw r, DBVariants.isNull_cell]
  cases hnan : w.tableValue.value.isNaN with
  | true => rw [DBVariants.toCell_of_isNaN hnan, E.affinity_null, Cell.isNull_null]; rfl
  | false =>
    have haffinity : E.affinity c.type w.tableValue.value.shown.cell
        = w.tableValue.value.shown.cell := by
      rw [htype, ← DBVariants.columnType_shown]
      exact affinity_cell _
    have hcmp : E.cmp (r.get w.tableValue.columnName).cell w.tableValue.value.shown.cell
        = (r.get w.tableValue.columnName).compare w.tableValue.value.shown :=
      cmp_cell hE (hget.trans (DBVariants.columnType_shown _).symm) hget₀
        ((DBVariants.isNaN_shown _).trans hnan)
    rw [DBVariants.toCell_of_not_isNaN hnan, haffinity, hcmp, DBVariants.isNull_cell]
    rfl

/-- **SQLite's ORDER BY sorts as the relation's does.**

Both sides sort stably, by the same comparison; the rows are mapped and the
list is in the same order. With another comparison on one side, equal keys
would already make a difference. -/
theorem sortRows_cells (hE : E.ComparesReals) (hF : Double.Ordered F)
    (hdistinct : Distinct TableColumn.name t.columns) {o : OrderByClause} {type : ColumnType}
    (ho : Declares t.columns o.columnName type) (R : TypedRelation F t.columns) :
    E.sortRows t o (R.map Record.cells) = (R.mergeSort o.allows).map Record.cells := by
  obtain ⟨c, hcolumn, -⟩ := Table.column_eq hdistinct ho
  have hcmp : ∀ r r' : Record F t.columns,
      E.cmp (Cell.cellAt r.cells (Record.position t.columns o.columnName))
          (Cell.cellAt r'.cells (Record.position t.columns o.columnName))
        = (r.get o.columnName).compare (r'.get o.columnName) := by
    intro r r'
    rw [Record.cellAt_position ho, Record.cellAt_position ho]
    exact cmp_cell hE ((r.get_typed hdistinct ho).1.trans (r'.get_typed hdistinct ho).1.symm)
      (r.get_typed hdistinct ho).2 (r'.get_typed hdistinct ho).2
  have hisLE : ∀ c : Ordering, c.isLE = (c != .gt) ∧ c.swap.isLE = (c != .lt) := by decide
  unfold sortRows
  simp only [hcolumn]
  symm
  refine List.map_mergeSort fun r _ r' _ => ?_
  unfold OrderByClause.allows
  cases o.order with
  | SO_ASC => rw [hcmp, (hisLE _).1]
  | SO_DESC =>
    rw [hcmp, ← (hisLE _).2, ← DBVariants.compare_swap hF (r'.get_typed hdistinct ho).2
      (r.get_typed hdistinct ho).2]

omit [Double F] in
/-- A result set is scanned, filtered, sorted and projected.

In this order: a LIMIT is not used by the wrapper, which stops stepping
instead. -/
theorem resultSet_eq (names : List String) (where_ : Option (String × ComparisonType))
    (orderBy : Option OrderByClause) (value : Cell F) :
    let visited := E.scan (.select names t.name where_ orderBy) t.rows
    let matching := where_.elim visited fun condition =>
      visited.filter (E.satisfies t condition value)
    E.resultSet t names where_ orderBy value
      = (orderBy.elim matching fun o => E.sortRows t o matching).map (project t names) := by
  cases where_ <;> cases orderBy <;> rfl

/-- **The result set of a SELECT is an answer of the relation**, with the
requested columns of each record.

The answer is taken from the scan that the engine has made. Any scan visits
every row once, and this is all that an answer asks for. -/
theorem resultSet_cells (hE : E.ComparesReals) (hF : Double.Ordered F)
    (hdistinct : Distinct TableColumn.name t.columns) {w : Option (WhereClause F)}
    {o : Option OrderByClause}
    (hw : ∀ x ∈ w, Declares t.columns x.tableValue.columnName x.tableValue.value.columnType)
    (ho : ∀ x ∈ o, ∃ type, Declares t.columns x.columnName type)
    {R : TypedRelation F t.columns} (hR : t.rows = R.map Record.cells) (names : List String) :
    ∃ answer : TypedRelation F t.columns, R.Answers w o answer
      ∧ E.resultSet t names (w.map WhereClause.condition) o (whereCell w)
        = (answer.map Record.cells).map (project t names) := by
  -- whatever order a scan takes, it visits the cells of records
  obtain ⟨visited, hvisited, hperm⟩ : ∃ visited : TypedRelation F t.columns,
      E.scan (.select names t.name (w.map WhereClause.condition) o) t.rows
        = visited.map Record.cells ∧ visited.Perm R :=
    Eq.mpr (congrFun₂ (List.eq_map_comp_perm Record.cells) _ R)
      (hR ▸ E.scan_perm _ t.rows)
  have hmatching : (w.map WhereClause.condition).elim (visited.map Record.cells)
      (fun condition => (visited.map Record.cells).filter
        (E.satisfies t condition (whereCell w)))
      = (visited.filter fun r => w.all fun x => x.accepts r).map Record.cells := by
    cases w with
    | none => exact congrArg _ (List.filter_true visited).symm
    | some x =>
      show (visited.map Record.cells).filter _ = _
      rw [List.filter_map]
      exact congrArg _ (List.filter_congr fun r _ =>
        satisfies_cells hE hdistinct (hw x rfl) r)
  have hmatches := hperm.filter fun r => w.all fun x => x.accepts r
  cases o with
  | none =>
    refine ⟨_, ⟨hmatches, fun _ hx => absurd hx (Option.not_mem_none _)⟩, ?_⟩
    rw [resultSet_eq, hvisited, hmatching]
    rfl
  | some x =>
    obtain ⟨type, hx⟩ := ho x rfl
    refine ⟨_, ⟨(List.mergeSort_perm _ x.allows).trans hmatches, ?_⟩, ?_⟩
    · intro y hy
      cases hy
      exact x.pairwise_mergeSort hF hdistinct hx _
    · rw [resultSet_eq, hvisited, hmatching]
      exact congrArg _ (sortRows_cells hE hF hdistinct hx _)

omit [Double F] in
/-- A column is read as the value its cell holds.

The type is the one the caller has written in the list of columns, and it
decides which of the three column functions is called. It must be that of the
cell. -/
theorem column_cell {cells : List (Cell F)} {i : ℕ} {c : TableColumn} {v : DBVariants F}
    (hcell : Cell.cellAt cells i = v.cell) (htype : v.columnType = c.type) :
    (E.row cells).column i c = .ok ⟨c.name, v.shown⟩ := by
  unfold Row.column
  rw [← htype]
  cases v with
  | string s =>
    simp only [row, DBVariants.columnType, DBVariants.shown, hcell, DBVariants.cell,
      E.toText_text]
  | int64 n =>
    simp only [row, DBVariants.columnType, DBVariants.shown, hcell, DBVariants.cell,
      E.toInt64_integer]
  | double x =>
    simp only [row, DBVariants.columnType, DBVariants.shown, hcell, DBVariants.cell,
      E.toDouble_real]

/-- **The requested columns are read in the order in which they are requested**:
the i-th of them is the value the record holds under the i-th name.

The columns may be requested in any order and more than once. The index with
which the loop asks SQLite is the one in the list of requests, and not the one
in the table. -/
theorem values_project (hdistinct : Distinct TableColumn.name t.columns)
    {requested : List TableColumn}
    (hrequested : ∀ c ∈ requested, Declares t.columns c.name c.type)
    (r : Record F t.columns) :
    (E.row (project t (requested.map TableColumn.name) r.cells)).values 0 requested
      = .ok (r.row requested) := by
  refine Row.values_eq fun p hp => ?_
  obtain ⟨c, i⟩ := p
  have hi : requested[i]? = some c := List.mem_zipIdx_iff_getElem?.mp hp
  have hc := hrequested c (List.mem_of_getElem? hi)
  obtain ⟨_, hcolumn, -⟩ := Table.column_eq hdistinct hc
  refine column_cell ?_ (r.get_typed hdistinct hc).1
  unfold Cell.cellAt project
  rw [List.getD_eq_getElem?_getD, List.getElem?_map, List.getElem?_map, hi]
  simp only [Option.map_some, Option.getD_some, hcolumn]
  exact Record.cellAt_position hc r

end Engine

/-! ## Insertions

An INSERT names its columns, so the values may come in any order; a column that is not
named gets `NULL`, except a rowid, which SQLite chooses. What has to be shown is that
the row is that of a record, so no column is left without a value. -/

/-- Cells that hold values of the columns' types are the cells of a record. -/
theorem Record.exists_cells {tableColumns : List TableColumn} {cell : TableColumn → Cell F}
    (h : ∀ c ∈ tableColumns, ∃ v : DBVariants F,
      (v.columnType = c.type ∧ v.isNaN = false) ∧ v.cell = cell c) :
    ∃ r : Record F tableColumns, r.cells = tableColumns.map cell := by
  suffices hvalues : ∃ values, List.Forall₂ (fun (c : TableColumn) (v : DBVariants F) =>
      v.columnType = c.type ∧ v.isNaN = false) tableColumns values
      ∧ values.map DBVariants.cell = tableColumns.map cell by
    obtain ⟨values, htyped, hcells⟩ := hvalues
    exact ⟨⟨values, htyped⟩, hcells⟩
  induction tableColumns with
  | nil => exact ⟨[], .nil, rfl⟩
  | cons c cs ih =>
    rw [List.forall_mem_cons] at h
    obtain ⟨⟨v, hv, hcell⟩, hcs⟩ := h
    obtain ⟨values, htyped, hcells⟩ := ih hcs
    exact ⟨v :: values, .cons hv htyped, congrArg₂ List.cons hcell hcells⟩

namespace Engine

variable (E : Engine F) (t : Table F)

/-- The cell of a column in the row an INSERT of some values adds.

Written column by column, it does not mention the order of the values. -/
def newCell (tableValues : List (TableValue F)) (c : TableColumn) : Cell F :=
  let v := match tableValues.find? (fun v => sameWord v.columnName c.name) with
    | none => .null
    | some v => E.affinity c.type v.value.toCell
  if c.isRowid && v.isNull then .integer (E.newRowid t.rowids) else v

theorem newRow_eq (tableValues : List (TableValue F)) :
    E.newRow t (tableValues.map TableValue.columnName)
        (tableValues.map fun v => v.value.toCell)
      = t.columns.map (E.newCell t tableValues) := by
  unfold newRow newCell
  refine List.map_congr_left fun c _ => ?_
  rw [List.zip_map', List.find?_map]
  cases hfind : tableValues.find? (fun v => sameWord v.columnName c.name) with
  | none =>
    have hfind' : tableValues.find? ((fun p : String × Cell F => sameWord p.1 c.name) ∘
      fun v => (v.columnName, v.value.toCell)) = none := hfind
    rw [hfind']
    rfl
  | some v =>
    have hfind' : tableValues.find? ((fun p : String × Cell F => sameWord p.1 c.name) ∘
      fun v => (v.columnName, v.value.toCell)) = some v := hfind
    rw [hfind']
    rfl

variable {E t}

/-- **The order in which the values are listed does not matter.**

So a caller who lists columns and values in another order inserts the same
row. The names must be distinct; of two values for one name the first would
count. -/
theorem insert_perm {tableValues tableValues' : List (TableValue F)}
    (hdistinct : Distinct TableValue.columnName tableValues)
    (hperm : tableValues.Perm tableValues') :
    E.insert t (tableValues'.map TableValue.columnName)
        (tableValues'.map fun v => v.value.toCell)
      = E.insert t (tableValues.map TableValue.columnName)
        (tableValues.map fun v => v.value.toCell) := by
  have hcell : E.newCell t tableValues' = E.newCell t tableValues := by
    funext c
    unfold newCell
    rw [hdistinct.find?_perm hperm]
  unfold insert
  rw [newRow_eq, newRow_eq, hcell]

/-- A column that is named gets the value it is given.

The affinity does nothing to it, and it is not replaced by a rowid unless it
is a NaN that was bound as `NULL`. -/
theorem newCell_of_find {tableValues : List (TableValue F)} {c : TableColumn}
    {v : TableValue F}
    (hfind : tableValues.find? (fun v => sameWord v.columnName c.name) = some v)
    (htype : v.value.columnType = c.type) :
    E.newCell t tableValues c = v.value.toCell := by
  unfold newCell
  simp only [hfind, ← htype]
  cases hnan : v.value.isNaN with
  | true =>
    -- a rowid is an integer, so a NaN is not one
    have hrowid : c.isRowid = false := by
      cases hv : v.value with
      | double x =>
        rw [hv] at htype
        unfold TableColumn.isRowid
        rw [← htype]
        exact Bool.and_false _
      | string s => rw [hv] at hnan; cases hnan
      | int64 n => rw [hv] at hnan; cases hnan
    rw [DBVariants.toCell_of_isNaN hnan, E.affinity_null, hrowid]
    rfl
  | false =>
    rw [DBVariants.toCell_of_not_isNaN hnan, ← DBVariants.columnType_shown, affinity_cell,
      DBVariants.isNull_cell, Bool.and_false]
    rfl

/-- **A cell that is not `NULL` holds a value of its column's type**: the value
the column was given, or a rowid that SQLite chose.

This is the case analysis on what a cell can be in a row that was not turned
down. -/
theorem newCell_typed {tableValues : List (TableValue F)}
    (hcolumns : Distinct TableColumn.name t.columns)
    (htyped : ∀ v ∈ tableValues, Declares t.columns v.columnName v.value.columnType)
    {c : TableColumn} (hc : c ∈ t.columns)
    (hnull : (E.newCell t tableValues c).isNull = false) :
    ∃ v : DBVariants F, (v.columnType = c.type ∧ v.isNaN = false)
      ∧ v.cell = E.newCell t tableValues c := by
  cases hfind : tableValues.find? (fun v => sameWord v.columnName c.name) with
  | none =>
    unfold newCell at hnull ⊢
    simp only [hfind, Cell.isNull_null, Bool.and_true] at hnull ⊢
    cases hrowid : c.isRowid with
    | false =>
      rw [hrowid, if_neg Bool.false_ne_true] at hnull
      cases hnull
    | true =>
      have htype : c.type = .CT_INTEGER := beq_iff_eq.mp (Bool.and_eq_true_iff.mp hrowid).2
      exact ⟨.int64 (E.newRowid t.rowids), ⟨htype.symm, rfl⟩, rfl⟩
  | some v =>
    have hv : v ∈ tableValues := List.mem_of_find?_eq_some hfind
    have hname : sameWord v.columnName c.name = true :=
      List.find?_some (p := fun v : TableValue F => sameWord v.columnName c.name) hfind
    obtain ⟨c', hc', hname', htype⟩ := htyped v hv
    rw [hcolumns.eq_of_sameWord hc' hc (sameWord_trans hname' hname)] at htype
    rw [newCell_of_find hfind htype.symm] at hnull ⊢
    cases hnan : v.value.isNaN with
    | true =>
      rw [DBVariants.toCell_of_isNaN hnan] at hnull
      cases hnull
    | false =>
      refine ⟨v.value.shown, ⟨?_, ?_⟩, (DBVariants.toCell_of_not_isNaN hnan).symm⟩
      · rw [DBVariants.columnType_shown, htype]
      · rw [DBVariants.isNaN_shown, hnan]

omit [Double F] in
/-- A row that is not turned down has no `NULL` in a `NOT NULL` column. -/
theorem isNull_of_not_violates {cell : TableColumn → Cell F}
    (h : E.violates t (t.columns.map cell) = false) {c : TableColumn} (hc : c ∈ t.columns)
    (hnotNull : c.notNull = true) : (cell c).isNull = false := by
  obtain ⟨i, hi⟩ := List.getElem?_of_mem hc
  have hcell : Cell.cellAt (t.columns.map cell) i = cell c := by
    unfold Cell.cellAt
    rw [List.getD_eq_getElem?_getD, List.getElem?_map, hi]
    rfl
  rw [violates, List.any_eq_false] at h
  have hkept := h (c, i) (List.mem_zipIdx_iff_getElem?.mpr hi)
  rw [hcell, hnotNull, Bool.true_and, Bool.not_eq_true, Bool.or_eq_false_iff] at hkept
  exact hkept.1

/-- **An INSERT that succeeds adds a record**, which holds under each name the
value that the name was given.

It is here that the `NOT NULL` of all columns is used: a row that was accepted
has a value everywhere, and so it is a record. -/
theorem insert_cells (hcolumns : Distinct TableColumn.name t.columns)
    (hnotNull : ∀ c ∈ t.columns, c.notNull = true) {tableValues : List (TableValue F)}
    (hdistinct : Distinct TableValue.columnName tableValues)
    (htyped : ∀ v ∈ tableValues, Declares t.columns v.columnName v.value.columnType)
    {t' : Table F} (h : E.insert t (tableValues.map TableValue.columnName)
      (tableValues.map fun v => v.value.toCell) = .ok t') :
    ∃ r : Record F t.columns, (∀ v ∈ tableValues, r.get v.columnName = v.value.shown)
      ∧ t' = { t with rows := t.rows ++ [r.cells] } := by
  unfold insert at h
  dsimp only at h
  rw [newRow_eq] at h
  split_ifs at h with hmismatch hviolates
  cases h
  obtain ⟨r, hr⟩ := Record.exists_cells fun c hc => newCell_typed hcolumns htyped hc
    (isNull_of_not_violates (Bool.eq_false_iff.mpr hviolates) hc (hnotNull c hc))
  refine ⟨r, fun v hv => ?_, by rw [hr]⟩
  obtain ⟨c, hc, hname, htype⟩ := Record.column_position hcolumns (htyped v hv)
  have hfind : tableValues.find? (fun v => sameWord v.columnName c.name) = some v :=
    hdistinct.find?_eq_some_iff.mpr ⟨hv, sameWord_symm hname⟩
  have hget := Record.cellAt_position (htyped v hv) r
  unfold Cell.cellAt at hget
  rw [hr, List.getD_eq_getElem?_getD, List.getElem?_map, hc] at hget
  have hcell : v.value.toCell = (r.get v.columnName).cell :=
    (newCell_of_find hfind htype.symm).symm.trans hget
  cases hnan : v.value.isNaN with
  | true =>
    rw [DBVariants.toCell_of_isNaN hnan] at hcell
    have := congrArg Cell.isNull hcell
    rw [DBVariants.isNull_cell] at this
    cases this
  | false =>
    rw [DBVariants.toCell_of_not_isNaN hnan] at hcell
    exact (DBVariants.cell_injective hcell).symm

end Engine

/-! ## The tables that there are

The statements above are about a table that has suitable names. That the wrapper has
made it is enough: the text of its `CREATE TABLE` was read by SQLite, so the names are
plain (`TZ.Names`), and SQLite turns down names that are not distinct. -/

/-- **A database stores a relation** as the table of a name.

The rows are in the order in which they were inserted. The order matters only
for what a scan may choose. -/
def Database.Stores (d : Database F) (tableName : String) {tableColumns : List TableColumn}
    (R : TypedRelation F tableColumns) : Prop :=
  ∃ t, d.find tableName = some t ∧ t.columns = tableColumns ∧ t.rows = R.map Record.cells

omit [Double F] in
/-- What a name finds once a table has been replaced. -/
theorem Database.find_replace (d : Database F) (t : Table F) (name : String) :
    (d.replace t).find name
      = (d.find name).map fun u => if sameWord u.name t.name then t else u := by
  unfold Database.replace Database.find
  rw [List.find?_map]
  refine congrArg (Option.map _) (congrArg (fun p => List.find? p d) (funext fun u => ?_))
  show sameWord (if sameWord u.name t.name then t else u).name name = sameWord u.name name
  by_cases h : sameWord u.name t.name = true
  · rw [if_pos h, sameWord_comm t.name, sameWord_comm u.name, sameWord_congr h]
  · rw [if_neg h]

omit [Double F] in
theorem Database.name_of_find {d : Database F} {t : Table F} {name : String}
    (h : d.find name = some t) : sameWord t.name name = true :=
  List.find?_some (p := fun t : Table F => sameWord t.name name) h

/-- **A table with one row more** stores a relation with one record more, and is
the only table that has changed.

The other tables are found as before, whatever they are. -/
theorem Database.stores_replace {d : Database F} {tableName : String} {t : Table F}
    (ht : d.find tableName = some t) {R : TypedRelation F t.columns}
    (hR : t.rows = R.map Record.cells) (r : Record F t.columns) :
    (d.replace { t with rows := t.rows ++ [r.cells] }).Stores tableName (R ++ [r])
      ∧ ∀ name, sameWord name tableName = false →
        (d.replace { t with rows := t.rows ++ [r.cells] }).find name = d.find name := by
  refine ⟨⟨{ t with rows := t.rows ++ [r.cells] }, ?_, rfl, ?_⟩, fun name hother => ?_⟩
  · rw [Database.find_replace, ht, Option.map_some, if_pos (sameWord_self t.name)]
  · rw [hR, List.map_append, List.map_singleton]
  · rw [Database.find_replace]
    cases hu : d.find name with
    | none => rfl
    | some u =>
      rw [Option.map_some, if_neg]
      intro hsame
      have hown : sameWord t.name tableName = true := Database.name_of_find ht
      have hname := sameWord_trans (sameWord_symm (Database.name_of_find hu))
        (sameWord_trans hsame hown)
      rw [hother] at hname
      cases hname

namespace Engine

/-- **The table that `createTable` makes of some columns**, where there is none
of its name.

It says that there was a moment at which the wrapper made the table, and
nothing of what has happened since, because the columns of a table never
change. -/
def Makes (E : Engine F) (tableName : String) (tableColumns : List TableColumn) : Prop :=
  ∃ d₀ d₁ : Database F, d₀.find tableName = none
    ∧ E.perform Faults.never (SQLite.createTable tableName tableColumns) d₀ = (.ok (), d₁)
    ∧ ∃ t, d₁.find tableName = some t ∧ t.columns = tableColumns

variable {E : Engine F} {tableName : String} {tableColumns : List TableColumn}

/-- A `createTable` that succeeds has written a text that SQLite has read. -/
theorem createTable_parsed {d₀ d₁ : Database F}
    (h : E.perform Faults.never (SQLite.createTable tableName tableColumns) d₀ = (.ok (), d₁)) :
    ∃ table columns, parse (SQLite.createTableQuery tableName tableColumns)
        = some (.createTable table columns) ∧ d₀.createTable table columns = .ok d₁ := by
  unfold perform SQLite.createTable at h
  split_ifs at h with hargs
  · cases h
  · have hexec : E.answer Faults.never
        (.exec (SQLite.createTableQuery tableName tableColumns)) ⟨d₀, none⟩
        = answerExec Faults.never (SQLite.createTableQuery tableName tableColumns)
          ⟨d₀, none⟩ := rfl
    rw [Prog.run_call, hexec] at h
    unfold answerExec at h
    split at h
    · cases (show Faults.never.exec = none from rfl).symm.trans ‹_›
    · split at h
      · rename_i table columns hparse
        refine ⟨table, columns, hparse, ?_⟩
        split at h
        · rename_i d hcreate
          cases h
          exact hcreate
        · cases h
      · cases h

/-- **The names of a table that was made are plain and distinct.**

Without it the theorem would need plain names as a hypothesis, of which the
callers of the wrapper know nothing. -/
theorem Makes.plain (h : E.Makes tableName tableColumns) :
    Plain tableName ∧ (∀ c ∈ tableColumns, Plain c.name)
      ∧ Distinct TableColumn.name tableColumns := by
  obtain ⟨d₀, d₁, hnone, hperform, t, ht, rfl⟩ := h
  obtain ⟨table, columns, hparse, hcreate⟩ := createTable_parsed hperform
  obtain ⟨htable, hcolumns⟩ := createTable_plain hparse
  unfold Database.createTable at hcreate
  split_ifs at hcreate with hfound hdup hprimary
  · cases hcreate
    rw [hnone] at ht
    cases ht
  · cases hcreate
    have hnew : t = ⟨table, columns, []⟩ ∧ sameWord table tableName = true := by
      unfold Database.find at hnone ht
      rw [List.find?_append, hnone, Option.none_or, List.find?_singleton] at ht
      split_ifs at ht with hname
      cases ht
      exact ⟨rfl, hname⟩
    obtain ⟨rfl, hname⟩ := hnew
    refine ⟨htable.of_sameWord (sameWord_symm hname), hcolumns, ?_⟩
    rw [Bool.not_eq_true, Bool.not_eq_false', decide_eq_true_eq] at hdup
    exact hdup

/-- **What is made of plain and distinct names** is such a table.

The converse shows that the condition of being made is not an empty one. -/
theorem makes_of_plain (hne : tableColumns ≠ []) (htable : Plain tableName)
    (hcolumns : ∀ c ∈ tableColumns, Plain c.name)
    (hdistinct : Distinct TableColumn.name tableColumns)
    (hprimary : tableColumns.countP (fun c => c.primaryKey) ≤ 1) :
    E.Makes tableName tableColumns := by
  obtain ⟨c, cs, rfl⟩ := List.exists_cons_of_ne_nil hne
  have hcreate : Database.createTable ([] : Database F) tableName (c :: cs)
      = .ok [⟨tableName, c :: cs, []⟩] := by
    unfold Database.createTable
    rw [if_neg (show ¬ (Database.find ([] : Database F) tableName).isSome = true from
      Bool.false_ne_true), if_neg, if_neg (not_lt.mpr hprimary)]
    · rfl
    · rw [Bool.not_eq_true, Bool.not_eq_false', decide_eq_true_eq]
      exact hdistinct
  have hperform := (perform_createTable (E := E) (φ := Faults.never) (d := [])
    htable hcolumns).2 rfl
  rw [hcreate] at hperform
  refine ⟨[], _, rfl, hperform, ⟨tableName, c :: cs, []⟩, ?_, rfl⟩
  unfold Database.find
  rw [List.find?_singleton, if_pos (sameWord_self tableName)]

end Engine

/-! ## The tables of the server

Both tables of the server are such tables, and a store is two relations. So the
refinement applies to the database that the rest of the development is about. -/

namespace Server

omit [Double F] in
theorem notNull_columns : ∀ c ∈ clientsColumns ++ packetsColumns, c.notNull = true := by
  decide

theorem distinct_columns : Distinct TableColumn.name clientsColumns
    ∧ Distinct TableColumn.name packetsColumns := by
  unfold Distinct
  decide

/-- **The tables of the server** are such tables. -/
theorem makes_tables (E : Engine F) :
    E.Makes CLIENTS_TABLE_NAME clientsColumns ∧ E.Makes PACKETS_TABLE_NAME packetsColumns :=
  ⟨Engine.makes_of_plain (List.cons_ne_nil _ _) plain_tables.1 plain_clientsColumns
      distinct_columns.1 (by decide),
    Engine.makes_of_plain (List.cons_ne_nil _ _) plain_tables.2 plain_packetsColumns
      distinct_columns.2 (by decide)⟩

end Server

/-- A client as a record. -/
def Client.record (c : Client) : Record F Server.clientsColumns where
  values := [.int64 c.id, .string c.uuid]
  typed := .cons ⟨rfl, rfl⟩ (.cons ⟨rfl, rfl⟩ .nil)

/-- A packet as a record. -/
def Packet.record (p : Packet F) (h : Double.isNaN p.x = false ∧ Double.isNaN p.y = false) :
    Record F Server.packetsColumns where
  values := [.int64 p.id, .int64 p.clientId, .int64 p.timestamp, .double p.x, .double p.y]
  typed := .cons ⟨rfl, rfl⟩ (.cons ⟨rfl, rfl⟩ (.cons ⟨rfl, rfl⟩
    (.cons ⟨rfl, h.1⟩ (.cons ⟨rfl, h.2⟩ .nil))))

namespace Store

variable (s : Store F)

/-- The clients as records. -/
def clientRecords : TypedRelation F Server.clientsColumns := s.clients.map Client.record

/-- The packets as records. -/
def packetRecords : TypedRelation F Server.packetsColumns :=
  s.packets.attach.map fun p => p.1.record (s.finite p.1 p.2)

/-- **A store is two typed relations.** -/
theorem stores_relations : s.toDatabase.Stores Server.CLIENTS_TABLE_NAME s.clientRecords
    ∧ s.toDatabase.Stores Server.PACKETS_TABLE_NAME s.packetRecords := by
  refine ⟨⟨_, s.find_clients, rfl, ?_⟩, ⟨_, s.find_packets, rfl, ?_⟩⟩
  · unfold clientRecords
    rw [List.map_map]
    rfl
  · unfold packetRecords
    rw [List.map_map]
    exact List.attach_map_val.symm

/-- A packet without a NaN can be inserted. -/
theorem exists_insertOne_packet (E : Engine F) (clientId : Int) (data : ClientPacket.Data F)
    (hx : Double.isNaN data.x = false) (hy : Double.isNaN data.y = false) :
    ∃ d, E.perform Faults.never (SQLite.insertOne Server.PACKETS_TABLE_NAME
      (Server.packetValues (.int64 clientId) data)) s.toDatabase = (.ok (), d) := by
  obtain ⟨⟨r, d⟩, hperform⟩ : ∃ p, E.perform Faults.never
      (SQLite.insertOne Server.PACKETS_TABLE_NAME
        (Server.packetValues (.int64 clientId) data)) s.toDatabase = p := ⟨_, rfl⟩
  have hcall : Server.handler E False (fun _ => True) s.toDatabase
      (.insertOne Server.PACKETS_TABLE_NAME (Server.packetValues (.int64 clientId) data)) r d :=
    ⟨Faults.never, Or.inr rfl, hperform.symm⟩
  obtain ⟨s', -, ⟨rfl, -⟩ | ⟨-, -, hfail⟩⟩ := handler_addPacket hcall
  · exact ⟨d, hperform⟩
  · rw [hx, hy] at hfail
    exact hfail.elim False.elim nofun

end Store

/-! ## The refinement -/

section Refinement

variable {E : Engine F} {tableName : String} {d : Database F} {t : Table F}

omit [Double F] in
/-- A name that is declared is the name of a column. -/
theorem Table.column_isSome (hcolumns : Distinct TableColumn.name t.columns) {name : String}
    {type : ColumnType} (h : Declares t.columns name type) : (t.column name).isSome = true := by
  obtain ⟨c, hc, -⟩ := Table.column_eq hcolumns h
  rw [hc]
  rfl

omit [Double F] in
/-- A name that is declared is plain if the names of the columns are. -/
theorem Declares.plain {tableColumns : List TableColumn} {name : String} {type : ColumnType}
    (h : Declares tableColumns name type) (hplain : ∀ c ∈ tableColumns, Plain c.name) :
    Plain name := by
  obtain ⟨c, hc, hname, -⟩ := h
  exact (hplain c hc).of_sameWord (sameWord_symm hname)

/-- An `insertOne` does what the INSERT of its values does, in whatever order they
are listed.

The disjunction is that of the wrapper: the row was added, or an exception was
thrown and nothing has changed. -/
theorem Engine.Makes.perform_insertOne (hmade : E.Makes tableName t.columns)
    (ht : d.find tableName = some t) {tableValues tableValues' : List (TableValue F)}
    (hne : tableValues ≠ []) (hdistinct : Distinct TableValue.columnName tableValues)
    (htyped : ∀ v ∈ tableValues, Declares t.columns v.columnName v.value.columnType)
    (hperm : tableValues.Perm tableValues') :
    (∃ t', E.insert t (tableValues.map TableValue.columnName)
        (tableValues.map fun v => v.value.toCell) = .ok t'
        ∧ E.perform Faults.never (SQLite.insertOne tableName tableValues') d
          = (.ok (), d.replace t'))
      ∨ ((∃ code, E.insert t (tableValues.map TableValue.columnName)
        (tableValues.map fun v => v.value.toCell) = .error code)
        ∧ ∃ what, E.perform Faults.never (SQLite.insertOne tableName tableValues') d
          = (.error (.exception what), d)) := by
  obtain ⟨htable, hplain, hcolumns⟩ := hmade.plain
  have htyped' : ∀ v ∈ tableValues', Declares t.columns v.columnName v.value.columnType :=
    fun v hv => htyped v (hperm.mem_iff.mpr hv)
  have hne' : tableValues' ≠ [] := fun h => hne (List.perm_nil.mp (h ▸ hperm))
  have hres : d.resolves (.insert tableName (tableValues'.map TableValue.columnName)
      tableValues'.length) = true := by
    unfold Database.resolves
    simp only [ht, List.length_map, beq_self_eq_true, Bool.and_true]
    exact List.all_eq_true.mpr (List.forall_mem_map.mpr fun v hv =>
      Table.column_isSome hcolumns (htyped' v hv))
  rcases Engine.perform_insertOne_cases (E := E) (φ := Faults.never) tableValues' htable hne'
    (fun v hv => (htyped' v hv).plain hplain) ht hres
    (Engine.insert_perm hdistinct hperm) with ⟨t', hok, hdone⟩ | ⟨hcause, hfail⟩
  · exact Or.inl ⟨t', hok, hdone⟩
  · exact Or.inr ⟨hcause.resolve_left (not_not_intro rfl), hfail⟩

/-- **An `insertOne` that succeeds inserts**, whatever the order of its values. -/
theorem Engine.Makes.insertOne (hmade : E.Makes tableName t.columns)
    (hnotNull : ∀ c ∈ t.columns, c.notNull = true) (ht : d.find tableName = some t)
    {tableValues : List (TableValue F)} (hne : tableValues ≠ [])
    (hdistinct : Distinct TableValue.columnName tableValues)
    (htyped : ∀ v ∈ tableValues, Declares t.columns v.columnName v.value.columnType)
    {d' : Database F} (hinsert : E.perform Faults.never
      (SQLite.insertOne tableName tableValues) d = (.ok (), d')) :
    (∃ r : Record F t.columns, (∀ v ∈ tableValues, r.get v.columnName = v.value.shown)
        ∧ d' = d.replace { t with rows := t.rows ++ [r.cells] })
      ∧ ∀ tableValues', tableValues.Perm tableValues' →
        E.perform Faults.never (SQLite.insertOne tableName tableValues') d = (.ok (), d') := by
  obtain ⟨-, -, hcolumns⟩ := hmade.plain
  rcases hmade.perform_insertOne ht hne hdistinct htyped (.refl _) with
    ⟨t', hok, hdone⟩ | ⟨-, what, hfail⟩
  · rw [hdone] at hinsert
    cases hinsert
    obtain ⟨r, hget, rfl⟩ := Engine.insert_cells hcolumns hnotNull hdistinct htyped hok
    refine ⟨⟨r, hget, rfl⟩, fun tableValues' hperm => ?_⟩
    rcases hmade.perform_insertOne ht hne hdistinct htyped hperm with
      ⟨t', hok', hdone'⟩ | ⟨⟨code, herror⟩, -⟩
    · rw [hok] at hok'
      cases hok'
      exact hdone'
    · rw [hok] at herror
      cases herror
  · rw [hfail] at hinsert
    cases hinsert

/-- **`selectMany` returns the first rows of one answer**, however many are asked
for.

One answer serves for all numbers of rows. Otherwise `selectOne` and
`selectMany` could be right about different answers. -/
theorem Engine.Makes.selectMany (hmade : E.Makes tableName t.columns) (hE : E.ComparesReals)
    (hF : Double.Ordered F) (ht : d.find tableName = some t)
    {R : TypedRelation F t.columns} (hR : t.rows = R.map Record.cells)
    {requested : List TableColumn} (hne : requested ≠ [])
    (hrequested : ∀ c ∈ requested, Declares t.columns c.name c.type)
    {w : Option (WhereClause F)} {o : Option OrderByClause}
    (hw : ∀ x ∈ w, Declares t.columns x.tableValue.columnName x.tableValue.value.columnType)
    (ho : ∀ x ∈ o, ∃ type, Declares t.columns x.columnName type) :
    ∃ answer : TypedRelation F t.columns, R.Answers w o answer
      ∧ ∀ k, E.perform Faults.never (SQLite.selectMany tableName requested w o k) d
        = (.ok ((answer.take k).map fun r => r.row requested), d) := by
  obtain ⟨htable, hplain, hcolumns⟩ := hmade.plain
  obtain ⟨answer, hanswer, hset⟩ := Engine.resultSet_cells hE hF hcolumns hw ho hR
    (requested.map TableColumn.name)
  rw [List.map_map] at hset
  have hres : d.resolves (.select (requested.map TableColumn.name) tableName
      (w.map WhereClause.condition) o) = true := by
    unfold Database.resolves
    simp only [ht, Bool.and_eq_true]
    refine ⟨⟨?_, ?_⟩, ?_⟩
    · exact List.all_eq_true.mpr (List.forall_mem_map.mpr fun c hc =>
        Table.column_isSome hcolumns (hrequested c hc))
    · cases w with
      | none => rfl
      | some x => exact Table.column_isSome hcolumns (hw x rfl)
    · cases o with
      | none => rfl
      | some x =>
        obtain ⟨type, hx⟩ := ho x rfl
        exact Table.column_isSome hcolumns hx
  refine ⟨answer, hanswer, fun k => ?_⟩
  have hok := (Engine.perform_selectMany_reading (E := E) (φ := Faults.never)
    (fun r : Record F t.columns => r.row requested) requested w o k htable hne
    (fun c hc => (hrequested c hc).plain hplain) (fun x hx => (hw x hx).plain hplain)
    (fun x hx => (ho x hx).elim fun _ h => h.plain hplain) ht hres hset
    (fun r _ => Engine.values_project hcolumns hrequested r)).2 (by
      rintro (h | ⟨-, h⟩)
      · exact h rfl
      · exact h rfl)
  rw [hok, Engine.deliveredFrom_never, List.length_map, ← List.take_eq_take_min]

/-- **The wrapper refines a typed relation.** Over a table that it has made of
`NOT NULL` columns, an `insertOne` that succeeds adds the one record its values
name, whatever their order, and `selectMany` and `selectOne` return the first
rows of one answer to their query, with the columns requested, as they were
requested. -/
theorem wrapper_refines_relation (hE : E.ComparesReals) (hF : Double.Ordered F)
    {tableColumns : List TableColumn} (hmade : E.Makes tableName tableColumns)
    (hnotNull : ∀ c ∈ tableColumns, c.notNull = true) {R : TypedRelation F tableColumns}
    (hd : d.Stores tableName R) :
    (∀ tableValues : List (TableValue F), tableValues ≠ [] →
      Distinct TableValue.columnName tableValues →
      (∀ v ∈ tableValues, Declares tableColumns v.columnName v.value.columnType) →
      ∀ d', E.perform Faults.never (SQLite.insertOne tableName tableValues) d = (.ok (), d') →
        (∃ r : Record F tableColumns, (∀ v ∈ tableValues, r.get v.columnName = v.value.shown)
            ∧ d'.Stores tableName (R ++ [r]))
          ∧ (∀ name, sameWord name tableName = false → d'.find name = d.find name)
          ∧ ∀ tableValues', tableValues.Perm tableValues' →
            E.perform Faults.never (SQLite.insertOne tableName tableValues') d = (.ok (), d'))
      ∧ ∀ (requested : List TableColumn) (w : Option (WhereClause F))
          (o : Option OrderByClause), requested ≠ [] →
        (∀ c ∈ requested, Declares tableColumns c.name c.type) →
        (∀ x ∈ w, Declares tableColumns x.tableValue.columnName x.tableValue.value.columnType) →
        (∀ x ∈ o, ∃ type, Declares tableColumns x.columnName type) →
        ∃ answer : TypedRelation F tableColumns, R.Answers w o answer
          ∧ (∀ k, E.perform Faults.never (SQLite.selectMany tableName requested w o k) d
            = (.ok ((answer.take k).map fun r => r.row requested), d))
          ∧ E.perform Faults.never (SQLite.selectOne tableName requested w o) d
            = (.ok ((answer.head?.map fun r => r.row requested).getD []), d) := by
  obtain ⟨t, ht, rfl, hR⟩ := hd
  refine ⟨fun tableValues hne hdistinct htyped d' hinsert => ?_,
    fun requested w o hne hrequested hw ho => ?_⟩
  · obtain ⟨⟨r, hget, rfl⟩, hperm⟩ := hmade.insertOne hnotNull ht hne hdistinct htyped hinsert
    obtain ⟨hstores, hothers⟩ := Database.stores_replace ht hR r
    exact ⟨⟨r, hget, hstores⟩, hothers, hperm⟩
  · obtain ⟨answer, hanswer, hmany⟩ := hmade.selectMany hE hF ht hR hne hrequested hw ho
    refine ⟨answer, hanswer, hmany, ?_⟩
    refine ((Engine.perform_selectOne tableName requested w o).1 _ (hmany 1)).trans ?_
    rw [List.head?_map, List.head?_take, if_neg Nat.one_ne_zero]

/-- A packet that is saved with its values listed backwards, and whose `x` is then
asked for. -/
theorem wrapper_refines_relation_packet :
    ∃ (d : Database ℚ) (r : Record ℚ Server.packetsColumns),
      Engine.reference.perform Faults.never (SQLite.insertOne Server.PACKETS_TABLE_NAME
          (Server.packetValues (.int64 1) ⟨[97], 2, 3, 4⟩).reverse) Store.empty.toDatabase
        = (.ok (), d)
      ∧ d.Stores Server.PACKETS_TABLE_NAME [r]
      ∧ Engine.reference.perform Faults.never (SQLite.selectMany Server.PACKETS_TABLE_NAME
          [{ name := Server.PACKETS_COLUMN_X, type := .CT_REAL }]
          (some (Server.whereClientId 1)) (some ⟨Server.PACKETS_COLUMN_Y, .SO_DESC⟩) 7) d
        = (.ok [[⟨Server.PACKETS_COLUMN_X, .double 3⟩]], d) := by
  have hE : (Engine.reference : Engine ℚ).ComparesReals := fun _ _ _ _ => rfl
  have hmade := (Server.makes_tables (Engine.reference : Engine ℚ)).2
  have hnotNull : ∀ c ∈ Server.packetsColumns, c.notNull = true := fun c hc =>
    Server.notNull_columns c (List.mem_append_right _ hc)
  obtain ⟨d, hinsert⟩ := Store.exists_insertOne_packet Store.empty
    (Engine.reference : Engine ℚ) 1 ⟨[97], 2, 3, 4⟩ rfl rfl
  obtain ⟨⟨r, hget, hstores⟩, -, hpermuted⟩ := (wrapper_refines_relation hE
    Double.ordered_rat hmade hnotNull (Store.stores_relations (Store.empty : Store ℚ)).2).1 _
    (List.cons_ne_nil _ _) (by unfold Distinct; decide) (by unfold Declares; decide) d hinsert
  refine ⟨d, r, hpermuted _ (List.reverse_perm _).symm, hstores, ?_⟩
  obtain ⟨answer, hanswer, hmany, -⟩ := (wrapper_refines_relation hE Double.ordered_rat hmade
    hnotNull hstores).2 [{ name := Server.PACKETS_COLUMN_X, type := .CT_REAL }]
    (some (Server.whereClientId 1)) (some ⟨Server.PACKETS_COLUMN_Y, .SO_DESC⟩)
    (List.cons_ne_nil _ _) (by unfold Declares; decide)
    (fun x hx => by cases hx; unfold Declares; decide)
    (fun x hx => ⟨.CT_REAL, by cases hx; unfold Declares; decide⟩)
  have hclient : r.get Server.PACKETS_COLUMN_CLIENT_ID = .int64 1 :=
    hget ⟨_, .int64 1⟩ List.mem_cons_self
  have hx : r.get Server.PACKETS_COLUMN_X = .double 3 :=
    hget ⟨_, .double 3⟩ (.tail _ (.tail _ List.mem_cons_self))
  have haccepts : (Server.whereClientId 1).accepts r = true := by
    unfold WhereClause.accepts Server.whereClientId
    rw [hclient]
    rfl
  have hanswer₁ : answer = [r] := by
    have hperm : answer.Perm ([r].filter (Server.whereClientId 1).accepts) := hanswer.perm
    rw [List.filter_cons_of_pos haccepts, List.filter_nil] at hperm
    exact List.perm_singleton.mp hperm
  rw [hmany 7, hanswer₁]
  show (Except.ok [[(⟨Server.PACKETS_COLUMN_X, (r.get Server.PACKETS_COLUMN_X).shown⟩ :
    TableValue ℚ)]], d) = _
  rw [hx]
  rfl

end Refinement
