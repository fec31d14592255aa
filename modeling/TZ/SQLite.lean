import TZ.Basic

/-!
# The SQLite wrapper

`Server/SQLite.hpp` and `Server/SQLite.cpp`: the values the server hands to
the database, and the three methods it calls. Each method builds the text
of one statement and drives the C interface of SQLite through it, so each
is a program over the commands of `Sqlite3` – the calls the source makes,
with the arguments it passes them, the statement handle included.

A method knows nothing of what the calls do. What a database answers is
`TZ.Engine`; what a method does when the answers are arbitrary can be read
off the program alone.
-/

/-! ## Values, columns and clauses -/

/-- `using DBVariants = std::variant<std::string, int64_t, double>`. -/
inductive DBVariants (F : Type) where
  /-- The alternative `std::string`. -/
  | string (s : Bytes)
  /-- The alternative `int64_t`. -/
  | int64 (n : Int)
  /-- The alternative `double`. -/
  | double (x : F)

/-- `enum class ColumnType`. -/
inductive ColumnType where
  | CT_INTEGER | CT_REAL | CT_TEXT
  deriving DecidableEq

/-- `class TableColumn`, with the defaults of its constructor. -/
structure TableColumn where
  /-- The name of the column. -/
  name : String
  /-- Its declared type. -/
  type : ColumnType
  /-- Whether it is the primary key. -/
  primaryKey : Bool := false
  /-- Whether its values are distinct. -/
  unique : Bool := false
  /-- Whether it rejects `NULL`. -/
  notNull : Bool := true
  deriving DecidableEq

/-- `class TableValue`. -/
structure TableValue (F : Type) where
  /-- The name of the column. -/
  columnName : String
  /-- The value. -/
  value : DBVariants F

/-- `enum class ComparisonType`. -/
inductive ComparisonType where
  | CT_LESSER | CT_GREATER | CT_EQUAL
  deriving DecidableEq

/-- `class WhereClause`. -/
structure WhereClause (F : Type) where
  /-- The column compared, and the value it is compared with. -/
  tableValue : TableValue F
  /-- The comparison. -/
  type : ComparisonType

/-- `enum class SortingOrder`. -/
inductive SortingOrder where
  | SO_ASC | SO_DESC
  deriving DecidableEq

/-- `class OrderByClause`. -/
structure OrderByClause where
  /-- The column sorted by. -/
  columnName : String
  /-- The direction. -/
  order : SortingOrder
  deriving DecidableEq

/-! ## The C interface -/

/-- **The functions of `sqlite3.h` the wrapper calls.** A `sqlite3_stmt*` is
an `Option ℕ`, a null pointer being `none`. The connection, which never
changes, is left out. -/
inductive Sqlite3 (F : Type) where
  /-- `sqlite3_exec`. -/
  | exec (sql : String)
  /-- `sqlite3_prepare_v2`. -/
  | prepareV2 (sql : String)
  /-- `sqlite3_bind_text`, with the length argument `n`. -/
  | bindText (pstmt : Option ℕ) (index : ℕ) (text : Bytes) (n : Int)
  /-- `sqlite3_bind_int64`. -/
  | bindInt64 (pstmt : Option ℕ) (index : ℕ) (value : Int)
  /-- `sqlite3_bind_double`. -/
  | bindDouble (pstmt : Option ℕ) (index : ℕ) (value : F)
  /-- `sqlite3_step`. -/
  | step (pstmt : Option ℕ)
  /-- `sqlite3_column_int64`. -/
  | columnInt64 (pstmt : Option ℕ) (i : ℕ)
  /-- `sqlite3_column_double`. -/
  | columnDouble (pstmt : Option ℕ) (i : ℕ)
  /-- `sqlite3_column_text`. -/
  | columnText (pstmt : Option ℕ) (i : ℕ)
  /-- `sqlite3_finalize`. -/
  | finalize (pstmt : Option ℕ)

/-- The answers: a result code, with the error message of `exec` and the
handle of `prepareV2`, or the value of a column. `columnText` may answer a
null pointer. -/
abbrev Sqlite3.Resp {F : Type} : Sqlite3 F → Type
  | .exec _ => ℕ × Option String
  | .prepareV2 _ => ℕ × Option ℕ
  | .bindText .. => ℕ
  | .bindInt64 .. => ℕ
  | .bindDouble .. => ℕ
  | .step _ => ℕ
  | .columnInt64 .. => Int
  | .columnDouble .. => F
  | .columnText .. => Option Bytes
  | .finalize _ => ℕ

/-- Result codes of `sqlite3.h`. -/
def SQLITE_OK : ℕ := 0
/-- A generic error, among them a text that does not compile. -/
def SQLITE_ERROR : ℕ := 1
/-- A constraint would be violated. -/
def SQLITE_CONSTRAINT : ℕ := 19
/-- A value has a type its column cannot hold. -/
def SQLITE_MISMATCH : ℕ := 20
/-- The interface was misused. -/
def SQLITE_MISUSE : ℕ := 21
/-- A parameter index is out of range. -/
def SQLITE_RANGE : ℕ := 25
/-- `sqlite3_step` has a row ready. -/
def SQLITE_ROW : ℕ := 100
/-- `sqlite3_step` has finished. -/
def SQLITE_DONE : ℕ := 101

/-- A program over the C interface. -/
abbrev Api (F α : Type) := Prog (Sqlite3 F) Sqlite3.Resp Exc α

namespace SQLite

variable {F : Type}

/-! ## The text of a statement -/

/-- The loop `if (first) first = false; else query += ", "; query += piece;`
that the three methods share. -/
def appendList (query : String) (pieces : List String) : String :=
  (pieces.foldl (fun (st : Bool × String) piece =>
    (false, (if st.1 then st.2 else st.2 ++ ", ") ++ piece)) (true, query)).2

/-- The loop that appends the placeholders of `insertOne`. -/
def appendPlaceholders (query : String) (n : ℕ) : String :=
  (List.range n).foldl (fun query i =>
    (if i ≠ 0 then query ++ ", " else query) ++ "?") query

/-- `typeStr`. -/
def typeStr : ColumnType → String
  | .CT_INTEGER => "INTEGER"
  | .CT_REAL => "REAL"
  | .CT_TEXT => "TEXT"

/-- A column of `createTable`, with its constraints. -/
def columnDefText (tableColumn : TableColumn) : String :=
  tableColumn.name ++ " " ++ typeStr tableColumn.type
    ++ (if tableColumn.primaryKey then " PRIMARY KEY" else "")
    ++ (if tableColumn.unique then " UNIQUE" else "")
    ++ (if tableColumn.notNull then " NOT NULL" else "")

/-- The text `createTable` builds. -/
def createTableQuery (tableName : String) (tableColumns : List TableColumn) :
    String :=
  appendList ("CREATE TABLE IF NOT EXISTS " ++ tableName ++ "(")
    (tableColumns.map columnDefText) ++ ");"

/-- The text `insertOne` builds. -/
def insertQuery (tableName : String) (tableValues : List (TableValue F)) :
    String :=
  appendPlaceholders
    (appendList ("INSERT INTO " ++ tableName ++ "(")
      (tableValues.map TableValue.columnName) ++ ") VALUES(")
    tableValues.length ++ ");"

/-- The operator of a comparison. -/
def comparisonText : ComparisonType → String
  | .CT_LESSER => "<"
  | .CT_GREATER => ">"
  | .CT_EQUAL => "="

/-- The direction of a sort. -/
def orderText : SortingOrder → String
  | .SO_ASC => "ASC"
  | .SO_DESC => "DESC"

/-- What `if (pWhereClause)` appends. -/
def whereText : Option (WhereClause F) → String
  | none => ""
  | some w => " WHERE " ++ w.tableValue.columnName ++ " "
      ++ comparisonText w.type ++ " ?"

/-- What `if (pOrderByClause)` appends. -/
def orderByText : Option OrderByClause → String
  | none => ""
  | some o => " ORDER BY " ++ o.columnName ++ " " ++ orderText o.order

/-- The text `selectMany` builds. -/
def selectQuery (tableName : String) (tableColumns : List TableColumn)
    (pWhereClause : Option (WhereClause F))
    (pOrderByClause : Option OrderByClause) : String :=
  appendList "SELECT " (tableColumns.map TableColumn.name)
    ++ " FROM " ++ tableName ++ whereText pWhereClause
    ++ orderByText pOrderByClause ++ ";"

/-! ## Pieces the methods share -/

/-- The cascade of `std::holds_alternative` that binds one value. Text is
passed as a C string of unknown length, hence `-1`. -/
def bindValue (pstmt : Option ℕ) (index : ℕ) : DBVariants F → Api F ℕ
  | .string s => .call (.bindText pstmt index s (-1)) .ret
  | .int64 n => .call (.bindInt64 pstmt index n) .ret
  | .double x => .call (.bindDouble pstmt index x) .ret

/-- The check of a bind's result code. -/
def checkBind (res : ℕ) : Api F Unit :=
  if res ≠ SQLITE_OK then
    .throw (.exception ("sqlite3_bind_*() ERROR: " ++ toString res))
  else .ret ()

/-- `if (pstmt) { sqlite3_finalize(pstmt); pstmt = nullptr; }`. -/
def release : Option ℕ → Api F Unit
  | none => .ret ()
  | some stmt => .call (.finalize (some stmt)) (fun _ => .ret ())

/-! ## createTable -/

/-- `SQLite::createTable`. A null error message would be appended as a C
string. -/
def createTable (tableName : String) (tableColumns : List TableColumn) :
    Api F Unit :=
  if tableName.isEmpty || tableColumns.isEmpty then
    .throw (.exception "Invalid arguments.")
  else
    .call (.exec (createTableQuery tableName tableColumns)) fun r =>
      if r.1 ≠ SQLITE_OK then
        match r.2 with
        | none => .throw .nullString
        | some errMsg => .throw (.exception
            ("Can't CREATE table \"" ++ tableName ++ "\" with error: " ++ errMsg))
      else .ret ()

/-! ## insertOne -/

/-- The bind loop of `insertOne`; parameter indexes count from `index`. -/
def bindValues (pstmt : Option ℕ) : ℕ → List (TableValue F) → Api F Unit
  | _, [] => .ret ()
  | index, tableValue :: rest => do
    let res ← bindValue pstmt index tableValue.value
    checkBind res
    bindValues pstmt (index + 1) rest

/-- The body of the `try` block of `insertOne`, after the call that
prepares the statement. -/
def insertBody (res : ℕ) (pstmt : Option ℕ) (tableValues : List (TableValue F)) :
    Api F Unit :=
  if res ≠ SQLITE_OK then
    .throw (.exception ("sqlite3_prepare_v2() ERROR: " ++ toString res))
  else do
    bindValues pstmt 1 tableValues
    let res ← Prog.perform (.step pstmt)
    if res ≠ SQLITE_DONE then
      .throw (.exception ("sqlite3_step() ERROR: " ++ toString res))
    else .ret ()

/-- `SQLite::insertOne`. Preparing the statement, the first call of the
`try` block, cannot itself throw. -/
def insertOne (tableName : String) (tableValues : List (TableValue F)) :
    Api F Unit :=
  if tableName.isEmpty || tableValues.isEmpty then
    .throw (.exception "Invalid arguments for insertOne().")
  else
    .call (.prepareV2 (insertQuery tableName tableValues)) fun r => do
      (insertBody r.1 r.2 tableValues).catchStd fun ex => do
        release r.2
        .throw (.exception
          ("Can't INSERT into table \"" ++ tableName ++ "\": " ++ ex.what ++ "."))
      let _ ← Prog.perform (.finalize r.2)
      .ret ()

/-! ## selectMany and selectOne -/

/-- The text of the exception for a failed prepare: `"..." + res` adds the
result code to the pointer, so the text loses as many characters. -/
def prepareErrorText (res : ℕ) : String :=
  String.ofList ("sqlite3_prepare_v2() ERROR: ".toList.drop res)

/-- The bind of the WHERE clause's value, to parameter 1. -/
def bindWhere (pstmt : Option ℕ) : Option (WhereClause F) → Api F Unit
  | none => .ret ()
  | some w => do
    let res ← bindValue pstmt 1 w.tableValue.value
    checkBind res

/-- The `switch` that reads one column of the current row. -/
def readColumn (pstmt : Option ℕ) (i : ℕ) (tableColumn : TableColumn) :
    Api F (TableValue F) :=
  match tableColumn.type with
  | .CT_INTEGER => .call (.columnInt64 pstmt i) fun n =>
      .ret ⟨tableColumn.name, .int64 n⟩
  | .CT_REAL => .call (.columnDouble pstmt i) fun x =>
      .ret ⟨tableColumn.name, .double x⟩
  | .CT_TEXT => .call (.columnText pstmt i) fun s =>
      match s with
      | none => .throw .nullString
      | some s => .ret ⟨tableColumn.name, .string (cstr s)⟩

/-- The loop over the requested columns; column indexes count from `i`. -/
def readRow (pstmt : Option ℕ) : ℕ → List TableColumn → Api F (List (TableValue F))
  | _, [] => .ret []
  | i, tableColumn :: rest => do
    let value ← readColumn pstmt i tableColumn
    let row ← readRow pstmt (i + 1) rest
    .ret (value :: row)

/-- The fetch loop `while (rowCount && sqlite3_step(pstmt) == SQLITE_ROW)`,
with the rows collected so far. Any other result ends the loop. -/
def fetchRows (pstmt : Option ℕ) (tableColumns : List TableColumn) :
    ℕ → List (List (TableValue F)) → Api F (List (List (TableValue F)))
  | 0, rows => .ret rows
  | rowCount + 1, rows => do
    let res ← Prog.perform (.step pstmt)
    if res = SQLITE_ROW then
      let row ← readRow pstmt 0 tableColumns
      fetchRows pstmt tableColumns rowCount (rows ++ [row])
    else .ret rows

/-- The body of the `try` block of `selectMany`, after the call that
prepares the statement. -/
def selectBody (res : ℕ) (pstmt : Option ℕ) (tableColumns : List TableColumn)
    (pWhereClause : Option (WhereClause F)) (rowCount : ℕ) :
    Api F (List (List (TableValue F))) :=
  if res ≠ SQLITE_OK then .throw (.exception (prepareErrorText res))
  else do
    bindWhere pstmt pWhereClause
    fetchRows pstmt tableColumns rowCount []

/-- The default of `rowCount`: `-1` as a `size_t`. -/
def sizeMax : ℕ := 2 ^ 64 - 1

/-- `SQLite::selectMany`. -/
def selectMany (tableName : String) (tableColumns : List TableColumn)
    (pWhereClause : Option (WhereClause F))
    (pOrderByClause : Option OrderByClause) (rowCount : ℕ) :
    Api F (List (List (TableValue F))) :=
  if tableName.isEmpty || tableColumns.isEmpty then
    .throw (.exception "Invalid arguments for selectMany()")
  else
    .call (.prepareV2
        (selectQuery tableName tableColumns pWhereClause pOrderByClause)) fun r => do
      let rows ← (selectBody r.1 r.2 tableColumns pWhereClause rowCount).catchStd
        fun ex => do
          release r.2
          .throw ex
      let _ ← Prog.perform (.finalize r.2)
      .ret rows

/-- `SQLite::selectOne`: the first row of `selectMany` with `rowCount` 1, or
an empty row. -/
def selectOne (tableName : String) (tableColumns : List TableColumn)
    (pWhereClause : Option (WhereClause F))
    (pOrderByClause : Option OrderByClause) : Api F (List (TableValue F)) := do
  let rows ← (selectMany tableName tableColumns pWhereClause pOrderByClause 1).catchStd
    fun ex => .throw (.exception
      ("Can't SELECT from table \"" ++ tableName ++ "\": " ++ ex.what ++ "."))
  .ret (rows.head?.getD [])

end SQLite
