import Mathlib.Data.List.Perm.Basic
import Mathlib.Logic.Function.Basic
import TZ.Cursor
import TZ.SqlText

/-!
# What SQLite answers

The tables behind the C interface, and what each call of the interface does
to them. A table is its columns and its rows, in the order the rows were
inserted; an `INSERT` either appends one row that meets every constraint or
changes nothing, a `SELECT` delivers the rows that satisfy its condition.

SQLite leaves some things open, and the source of the library decides others
in ways nothing here depends on: the order in which a statement visits the
rows, the integer a new row is given, what becomes of a value whose type is
not the one its column declares. These are the fields of `Engine`, each with
the one law the server relies on.

Any call may also fail. `Faults` says which do and with what code; a call
that fails has no effect, and a run without faults takes `Faults` to be
empty.
-/

open SqlText

/-! ## Tables -/

/-- The value of a column in a row. -/
inductive Cell (F : Type) where
  /-- `NULL`. -/
  | null
  /-- An integer. -/
  | integer (n : Int)
  /-- A floating-point number, never a NaN. -/
  | real (x : F)
  /-- A text. -/
  | text (s : Bytes)

namespace Cell

variable {F : Type}

/-- Whether a cell is `NULL`. -/
def isNull : Cell F → Bool
  | .null => true
  | _ => false

/-- Whether a cell is an integer. -/
def isInteger : Cell F → Bool
  | .integer _ => true
  | _ => false

@[simp] theorem isNull_null : (null : Cell F).isNull = true := rfl

@[simp] theorem isNull_integer (n : Int) : (integer n : Cell F).isNull = false := rfl

@[simp] theorem isNull_real (x : F) : (real x).isNull = false := rfl

@[simp] theorem isNull_text (s : Bytes) : (text s : Cell F).isNull = false := rfl

/-- The cell of a row at a position. -/
def cellAt (row : List (Cell F)) (i : ℕ) : Cell F := row.getD i .null

end Cell

/-- **A table**: its name, its columns, and its rows in the order of
insertion. -/
structure Table (F : Type) where
  /-- The name of the table. -/
  name : String
  /-- The columns. -/
  columns : List TableColumn
  /-- The rows, each with one cell per column. -/
  rows : List (List (Cell F))

/-- A database file: its tables. -/
abbrev Database (F : Type) := List (Table F)

variable {F : Type}

/-- The table of a given name. -/
def Database.find (d : Database F) (name : String) : Option (Table F) :=
  List.find? (fun t => sameWord t.name name) d

/-- The database with a table of the same name replaced. -/
def Database.replace (d : Database F) (t : Table F) : Database F :=
  List.map (fun u => if sameWord u.name t.name then t else u) d

/-- An integer primary key is the rowid of its table. -/
def TableColumn.isRowid (c : TableColumn) : Bool :=
  c.primaryKey && c.type == .CT_INTEGER

/-- The column of a given name, with its position. -/
def Table.column (t : Table F) (name : String) : Option (TableColumn × ℕ) :=
  t.columns.zipIdx.find? (fun p => sameWord p.1.name name)

/-- The rowids in use. -/
def Table.rowids (t : Table F) : List Int :=
  match t.columns.findIdx? TableColumn.isRowid with
  | none => []
  | some i => t.rows.filterMap (fun row =>
      match Cell.cellAt row i with
      | .integer n => some n
      | _ => none)

/-- The result of a comparison that satisfies an operator. -/
def ComparisonType.holds : ComparisonType → Ordering → Bool
  | .CT_LESSER, o => o == .lt
  | .CT_GREATER, o => o == .gt
  | .CT_EQUAL, o => o == .eq

/-! ## What SQLite decides -/

/-- **The choices of SQLite**, with the laws the server relies on. -/
structure Engine (F : Type) where
  /-- The rowid a new row is given when those of the list are in use. -/
  newRowid : List Int → Int
  /-- It is not in use. -/
  newRowid_notMem : ∀ used, newRowid used ∉ used
  /-- The order in which a statement visits the rows of its table. -/
  scan : Statement → List (List (Cell F)) → List (List (Cell F))
  /-- It visits every row once. -/
  scan_perm : ∀ stmt rows, (scan stmt rows).Perm rows
  /-- What a column of a declared type makes of a value. -/
  affinity : ColumnType → Cell F → Cell F
  /-- `NULL` stays. -/
  affinity_null : ∀ type, affinity type .null = .null
  /-- An integer in an integer column stays. -/
  affinity_integer : ∀ n, affinity .CT_INTEGER (.integer n) = .integer n
  /-- A real in a real column stays the same number. The sign of a zero, which
  SQLite does not keep, is not told apart. -/
  affinity_real : ∀ x, affinity .CT_REAL (.real x) = .real x
  /-- A text in a text column stays. -/
  affinity_text : ∀ s, affinity .CT_TEXT (.text s) = .text s
  /-- The order of two cells. -/
  cmp : Cell F → Cell F → Ordering
  /-- Integers are compared as integers. -/
  cmp_integer : ∀ m n, cmp (.integer m) (.integer n) = compare m n
  /-- Texts are compared byte by byte. -/
  cmp_text : ∀ s t, cmp (.text s) (.text t) = compareOfLessAndEq s t
  /-- `sqlite3_column_int64`. -/
  toInt64 : Cell F → Int
  /-- Of an integer, it is the integer. -/
  toInt64_integer : ∀ n, toInt64 (.integer n) = n
  /-- `sqlite3_column_double`. -/
  toDouble : Cell F → F
  /-- Of a real, it is the real. -/
  toDouble_real : ∀ x, toDouble (.real x) = x
  /-- `sqlite3_column_text`. -/
  toText : Cell F → Option Bytes
  /-- Of a text, it is the text. -/
  toText_text : ∀ s, toText (.text s) = some s
  /-- Of `NULL`, it is a null pointer. -/
  toText_null : toText .null = none

namespace Engine

variable (E : Engine F)

/-! ## Statements on tables -/

/-- Two cells that a uniqueness constraint keeps apart. -/
def sameCell (a b : Cell F) : Bool :=
  !a.isNull && !b.isNull && E.cmp a b == .eq

/-- The row an `INSERT` of the named values adds: a column that is not named
holds `NULL`, and a rowid that would be `NULL` is chosen. -/
def newRow (t : Table F) (names : List String) (values : List (Cell F)) :
    List (Cell F) :=
  t.columns.map fun c =>
    let v := match (names.zip values).find? (fun p => sameWord p.1 c.name) with
      | none => .null
      | some p => E.affinity c.type p.2
    if c.isRowid && v.isNull then .integer (E.newRowid t.rowids) else v

/-- Whether a row has a cell that its column rejects. -/
def violates (t : Table F) (row : List (Cell F)) : Bool :=
  t.columns.zipIdx.any fun p =>
    (p.1.notNull && (Cell.cellAt row p.2).isNull)
      || ((p.1.unique || p.1.primaryKey)
        && t.rows.any (fun old => E.sameCell (Cell.cellAt old p.2) (Cell.cellAt row p.2)))

/-- The result of an `INSERT` into a table: the table with one row more, or
the code of the failure. -/
def insert (t : Table F) (names : List String) (values : List (Cell F)) :
    Except ℕ (Table F) :=
  let row := E.newRow t names values
  if (t.columns.zip row).any (fun p => p.1.isRowid && !p.2.isInteger) then
    .error SQLITE_MISMATCH
  else if E.violates t row then .error SQLITE_CONSTRAINT
  else .ok { t with rows := t.rows ++ [row] }

/-- Whether a row satisfies `column op value`. -/
def satisfies (t : Table F) (condition : String × ComparisonType)
    (value : Cell F) (row : List (Cell F)) : Bool :=
  match t.column condition.1 with
  | none => false
  | some (c, i) =>
    let a := Cell.cellAt row i
    let b := E.affinity c.type value
    !a.isNull && !b.isNull && condition.2.holds (E.cmp a b)

/-- The rows in the order of a column. -/
def sortRows (t : Table F) (o : OrderByClause) (rows : List (List (Cell F))) :
    List (List (Cell F)) :=
  match t.column o.columnName with
  | none => rows
  | some (_, i) => rows.mergeSort fun a b =>
      match o.order with
      | .SO_ASC => E.cmp (Cell.cellAt a i) (Cell.cellAt b i) != .gt
      | .SO_DESC => E.cmp (Cell.cellAt a i) (Cell.cellAt b i) != .lt

/-- The requested columns of a row. -/
def project (t : Table F) (columns : List String) (row : List (Cell F)) :
    List (Cell F) :=
  columns.map fun name =>
    match t.column name with
    | none => .null
    | some (_, i) => Cell.cellAt row i

/-- **The result set of a `SELECT`**, with the value bound to its
placeholder. -/
def resultSet (t : Table F) (columns : List String)
    (where_ : Option (String × ComparisonType)) (orderBy : Option OrderByClause)
    (value : Cell F) : List (List (Cell F)) :=
  let visited := E.scan (.select columns t.name where_ orderBy) t.rows
  let matching := match where_ with
    | none => visited
    | some condition => visited.filter (E.satisfies t condition value)
  let sorted := match orderBy with
    | none => matching
    | some o => E.sortRows t o matching
  sorted.map (project t columns)

/-! ## The connection -/

end Engine

/-- A prepared statement: its parameters, and the rows it still has to
deliver once it has been stepped. -/
structure Prepared (F : Type) where
  /-- The statement. -/
  stmt : Statement
  /-- The values bound so far. -/
  params : ℕ → Cell F := fun _ => .null
  /-- The rows still to deliver. -/
  pending : Option (List (List (Cell F))) := none
  /-- The row the column functions read. -/
  current : List (Cell F) := []
  /-- The number of steps taken. -/
  steps : ℕ := 0

/-- **The state of the connection**: the database, and the statement in
preparation if there is one. Its handle is `0`. -/
structure Conn (F : Type) where
  /-- The database. -/
  db : Database F
  /-- The statement. -/
  stmt : Option (Prepared F)

/-- Whether a statement compiles: its table exists, its columns exist, and
an `INSERT` has as many placeholders as columns. -/
def Database.resolves (d : Database F) : Statement → Bool
  | .createTable .. => true
  | .insert table columns n =>
    match d.find table with
    | none => false
    | some t => columns.all (fun c => (t.column c).isSome) && n == columns.length
  | .select columns table where_ orderBy =>
    match d.find table with
    | none => false
    | some t => columns.all (fun c => (t.column c).isSome)
      && (where_.all fun w => (t.column w.1).isSome)
      && (orderBy.all fun o => (t.column o.columnName).isSome)

/-- The number of placeholders of a statement. -/
def Statement.parameters : Statement → ℕ
  | .createTable .. => 0
  | .insert _ _ n => n
  | .select _ _ where_ _ => if where_.isSome then 1 else 0

/-- `CREATE TABLE IF NOT EXISTS`: an existing table is left as it is, and a
new one has distinct column names and at most one primary key. -/
def Database.createTable (d : Database F) (table : String)
    (columns : List TableColumn) : Except String (Database F) :=
  if (d.find table).isSome then .ok d
  else if !decide (columns.Pairwise fun a b => sameWord a.name b.name = false) then
    .error "duplicate column name"
  else if 1 < columns.countP (fun c => c.primaryKey) then
    .error ("table \"" ++ table ++ "\" has more than one primary key")
  else .ok (d ++ [⟨table, columns, []⟩])

namespace Engine

variable [Double F] (E : Engine F)

/-- `sqlite3_exec`, of the one kind of statement the wrapper passes it. -/
def answerExec (φ : Faults) (sql : String) (c : Conn F) :
    (ℕ × Option String) × Conn F :=
  match φ.exec with
  | some (code, msg) => ((code.1, msg), c)
  | none =>
    match parse sql with
    | some (.createTable table columns) =>
      match c.db.createTable table columns with
      | .ok db => ((SQLITE_OK, none), { c with db := db })
      | .error msg => ((SQLITE_ERROR, some msg), c)
    | _ => ((SQLITE_ERROR, some "syntax error"), c)

/-- `sqlite3_prepare_v2`. -/
def answerPrepare (φ : Faults) (sql : String) (c : Conn F) :
    (ℕ × Option ℕ) × Conn F :=
  match φ.prepare with
  | some code => ((code.1, none), c)
  | none =>
    match parse sql with
    | none => ((SQLITE_ERROR, none), c)
    | some stmt =>
      if c.db.resolves stmt then
        ((SQLITE_OK, some 0), { c with stmt := some { stmt := stmt } })
      else ((SQLITE_ERROR, none), c)

/-- `sqlite3_bind_*`, of the value a parameter is to have. -/
def answerBind (φ : Faults) (pstmt : Option ℕ) (index : ℕ) (value : Cell F)
    (c : Conn F) : ℕ × Conn F :=
  match pstmt, c.stmt with
  | some 0, some st =>
    match φ.bind index with
    | some code => (code.1, c)
    | none =>
      if 1 ≤ index ∧ index ≤ st.stmt.parameters then
        (SQLITE_OK, { c with stmt := some { st with
          params := Function.update st.params index value } })
      else (SQLITE_RANGE, c)
  | _, _ => (SQLITE_MISUSE, c)

/-- The values bound to the parameters `1`, …, `n`. -/
def bound (params : ℕ → Cell F) (n : ℕ) : List (Cell F) :=
  (List.range n).map (fun i => params (i + 1))

/-- A step of a prepared statement that does not fail. -/
def stepPrepared (st : Prepared F) (db : Database F) : ℕ × Conn F :=
  match st.stmt with
  | .createTable .. => (SQLITE_DONE, ⟨db, some st⟩)
  | .insert table columns n =>
    match db.find table with
    | none => (SQLITE_ERROR, ⟨db, some st⟩)
    | some t =>
      match E.insert t columns (bound st.params n) with
      | .error code => (code, ⟨db, some st⟩)
      | .ok t => (SQLITE_DONE, ⟨db.replace t, some st⟩)
  | .select columns table where_ orderBy =>
    match db.find table with
    | none => (SQLITE_ERROR, ⟨db, some st⟩)
    | some t =>
      match st.pending.getD (E.resultSet t columns where_ orderBy (st.params 1)) with
      | [] => (SQLITE_DONE, ⟨db, some { st with pending := some [] }⟩)
      | row :: rows =>
        (SQLITE_ROW, ⟨db, some { st with pending := some rows, current := row }⟩)

/-- `sqlite3_step`. -/
def answerStep (φ : Faults) (pstmt : Option ℕ) (c : Conn F) : ℕ × Conn F :=
  match pstmt, c.stmt with
  | some 0, some st =>
    match φ.step st.steps with
    | some code => (code.1, c)
    | none => E.stepPrepared { st with steps := st.steps + 1 } c.db
  | _, _ => (SQLITE_MISUSE, c)

/-- The cell the column functions read. -/
def currentCell (c : Conn F) (i : ℕ) : Cell F :=
  match c.stmt with
  | none => .null
  | some st => Cell.cellAt st.current i

/-- **What SQLite answers to a call**, and the connection it leaves. A bound
text of unknown length ends at its first NUL byte, and a bound NaN is
`NULL`. -/
def answer (φ : Faults) : (c : Sqlite3 F) → Conn F → c.Resp × Conn F
  | .exec sql, c => answerExec φ sql c
  | .prepareV2 sql, c => answerPrepare φ sql c
  | .bindText pstmt index text n, c =>
    answerBind φ pstmt index
      (.text (if n < 0 then cstr text else text.take n.toNat)) c
  | .bindInt64 pstmt index value, c => answerBind φ pstmt index (.integer value) c
  | .bindDouble pstmt index value, c =>
    answerBind φ pstmt index
      (if Double.isNaN value then .null else .real value) c
  | .step pstmt, c => E.answerStep φ pstmt c
  | .columnInt64 _ i, c => (E.toInt64 (currentCell c i), c)
  | .columnDouble _ i, c => (E.toDouble (currentCell c i), c)
  | .columnText _ i, c => (E.toText (currentCell c i), c)
  | .finalize _, c => (SQLITE_OK, { c with stmt := none })

/-- **A method call taken as one step**: its result, and the database it
leaves. -/
def perform {α : Type} (φ : Faults) (p : Api F α) (d : Database F) :
    Except Exc α × Database F :=
  let r := p.run (E.answer φ) ⟨d, none⟩
  (r.1, r.2.db)

/-! ## An engine -/

theorem le_foldl_max (used : List Int) (a : Int) :
    a ≤ used.foldl max a ∧ ∀ n ∈ used, n ≤ used.foldl max a := by
  induction used generalizing a with
  | nil => exact ⟨le_rfl, by simp⟩
  | cons m used ih =>
    obtain ⟨ha, hall⟩ := ih (max a m)
    exact ⟨(le_max_left a m).trans ha,
      List.forall_mem_cons.mpr ⟨(le_max_right a m).trans ha, hall⟩⟩

/-- The rank of a cell among those of other types. -/
def rank : Cell F → ℕ
  | .null => 0
  | .integer _ => 1
  | .real _ => 2
  | .text _ => 3

/-- **An engine that makes SQLite's usual choices**: a new row gets the
largest rowid in use plus one, and a table is visited in the order of
insertion. Conversions between types, which no column here asks for, are
left out. -/
def reference : Engine F where
  newRowid used := used.foldl max 0 + 1
  newRowid_notMem used h := absurd ((le_foldl_max used 0).2 _ h) (by omega)
  scan _ rows := rows
  scan_perm _ rows := .refl rows
  affinity _ v := v
  affinity_null _ := rfl
  affinity_integer _ := rfl
  affinity_real _ := rfl
  affinity_text _ := rfl
  cmp
    | .integer m, .integer n => compare m n
    | .real x, .real y => Double.cmp x y
    | .text s, .text t => compareOfLessAndEq s t
    | a, b => compare (rank a) (rank b)
  cmp_integer _ _ := rfl
  cmp_text _ _ := rfl
  toInt64
    | .integer n => n
    | _ => 0
  toInt64_integer _ := rfl
  toDouble
    | .real x => x
    | _ => Double.zero
  toDouble_real _ := rfl
  toText
    | .text s => some s
    | .null => none
    | .integer n => some (toString n).toUTF8.toList
    | .real _ => some []
  toText_text _ := rfl
  toText_null := rfl

end Engine
