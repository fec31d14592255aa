import TZ.Engine

/-!
# What the methods do to a database

The three methods of the wrapper, run against the tables of `TZ.Engine`. One
lemma for each says what it returns and what it leaves: `createTable` adds
an empty table or finds one, `insertOne` adds the row of its values or
changes nothing, `selectMany` changes nothing and returns rows of its result
set. Whatever calls fail, these are the only effects a method has.

The text of a statement is read by the grammar, so the lemmas ask for plain
names; everything else about the arguments is arbitrary.

Between a method of the wrapper and a table there are three things that could each make
the effect another one: the text of the statement, which SQLite has to read back as what
was meant; the binding of values by number; and the stepping, which delivers rows one at
a time. The lemmas take them away one by one, and what is left is an equation between
the method and one operation on a table. Everything above – the store, the server, the
processes – is built on these equations and never looks at a statement again.

Failures are not left out and not enumerated either. Which calls fail is a parameter
(`Faults`), and each lemma says under which condition on it the method returns. That is
what later makes "any call may fail" a hypothesis that can be kept to the end.
-/

open SqlText

variable {F : Type} [Double F]

/-- What a value is bound as. A text ends at its first NUL byte, and a NaN
is `NULL`.

This is where a packet and its row may come to differ: the binding of a text is
given no length, so it stops at a NUL byte, and SQLite has no NaN. -/
def DBVariants.toCell : DBVariants F → Cell F
  | .string s => .text (cstr s)
  | .int64 n => .integer n
  | .double x => if Double.isNaN x then .null else .real x

/-- **Some call of an `insertOne` of `n` values fails.**

These are the calls whose result `insertOne` looks at. The statement is
finalised whatever the result was, and the result of that is not looked at. -/
def Faults.InsertFails (φ : Faults) (n : ℕ) : Prop :=
  φ.prepare ≠ none ∨ (∃ k < n, φ.bind (1 + k) ≠ none) ∨ φ.step 0 ≠ none

omit [Double F] in
/-- A plain name is not empty. -/
theorem SqlText.Plain.isEmpty {w : String} (h : Plain w) : w.isEmpty = false := by
  rw [Bool.eq_false_iff]
  intro hw
  rw [String.isEmpty_iff] at hw
  exact h.isWord.1 (by rw [hw]; rfl)

namespace Engine

variable (E : Engine F) (φ : Faults)

/-- Whichever of the three bind functions is called, SQLite is given the cell
the value stands for. The functions differ only in the conversion. -/
theorem run_bindValue (index : ℕ) (v : DBVariants F) (c : Conn F) :
    (SQLite.bindValue (some 0) index v).run (E.answer φ) c
      = (.ok (answerBind φ (some 0) index v.toCell c).1,
        (answerBind φ (some 0) index v.toCell c).2) := by
  cases v <;> rfl

omit [Double F] in
/-- The bind of a parameter that exists. -/
theorem answerBind_prepared {index : ℕ} {v : Cell F} {d : Database F}
    {st : Prepared F} (hi : 1 ≤ index ∧ index ≤ st.stmt.parameters) :
    answerBind φ (some 0) index v ⟨d, some st⟩
      = (φ.bindCode index, ⟨d, some (if φ.bind index = none then
          { st with params := Function.update st.params index v } else st)⟩) := by
  unfold answerBind Faults.bindCode
  cases φ.bind index with
  | none => simp [hi]
  | some code => simp

/-! ## SELECT

A prepared SELECT is a state that changes with every step, and the code that reads it
is a loop over steps. `TZ.Cursor` has said what such a loop returns for a cursor,
which is only a list of rows and a list of codes. What has to be shown here is that
SQLite, stepped through a statement, is such a cursor (`Engine.shows_cursor`). -/

/-- A row of a result set, as the column functions read it. -/
def row (cells : List (Cell F)) : Row F where
  int64 i := E.toInt64 (Cell.cellAt cells i)
  double i := E.toDouble (Cell.cellAt cells i)
  text i := E.toText (Cell.cellAt cells i)

/-- The cursor of a result set. -/
def cursor (rows : List (List (Cell F))) : Cursor F := ⟨rows.map E.row, φ⟩

/-- A prepared SELECT that has delivered `k` rows.

The rows still to come are fixed by the first step, which computes the result
set. Before it there is none, and afterwards no change of the table would be
seen. -/
def selecting (stmt : Statement) (params : ℕ → Cell F)
    (rows : List (List (Cell F))) (k : ℕ) : Prepared F where
  stmt := stmt
  params := params
  pending := if k = 0 then none else some (rows.drop k)
  current := if k = 0 then [] else rows.getD (k - 1) []
  steps := k

/-- The states a prepared statement goes through as it is stepped. -/
def stepped (c : Conn F) : ℕ → Conn F
  | 0 => c
  | k + 1 => (E.answerStep φ (some 0) (stepped c k)).2

variable {E φ} {d : Database F} {t : Table F} (columns : List String) {table : String}
  (where_ : Option (String × ComparisonType)) (orderBy : Option OrderByClause)
  (params : ℕ → Cell F)

omit [Double F] in
theorem answerStep_of_fault {st : Prepared F} {code : ErrorCode}
    (h : φ.step st.steps = some code) :
    E.answerStep φ (some 0) ⟨d, some st⟩ = (code.1, ⟨d, some st⟩) := by
  simp [answerStep, h]

omit [Double F] in
theorem answerStep_of_none {st : Prepared F} (h : φ.step st.steps = none) :
    E.answerStep φ (some 0) ⟨d, some st⟩
      = E.stepPrepared { st with steps := st.steps + 1 } d := by
  simp [answerStep, h]

omit [Double F] in
/-- A step of a SELECT that has no row left finishes. -/
theorem stepPrepared_nil (st : Prepared F) (hst : st.stmt = .select columns table where_ orderBy)
    (ht : d.find table = some t)
    (h : st.pending.getD (E.resultSet t columns where_ orderBy (st.params 1)) = []) :
    E.stepPrepared st d = (SQLITE_DONE, ⟨d, some { st with pending := some [] }⟩) := by
  unfold stepPrepared
  simp only [hst, ht, h]

omit [Double F] in
/-- A step of a SELECT that has a row left delivers it. -/
theorem stepPrepared_cons (st : Prepared F) (hst : st.stmt = .select columns table where_ orderBy)
    (ht : d.find table = some t) {row : List (Cell F)} {rows : List (List (Cell F))}
    (h : st.pending.getD (E.resultSet t columns where_ orderBy (st.params 1)) = row :: rows) :
    E.stepPrepared st d
      = (SQLITE_ROW, ⟨d, some { st with pending := some rows, current := row }⟩) := by
  unfold stepPrepared
  simp only [hst, ht, h]

omit [Double F] in
/-- A step of a SELECT delivers the next row, or finishes.

The result set does not depend on how far the statement has got, so the number
of rows already delivered is all there is to its state. -/
theorem stepPrepared_selecting (ht : d.find table = some t) (k : ℕ) :
    let rows := E.resultSet t columns where_ orderBy (params 1)
    let stmt := Statement.select columns table where_ orderBy
    ∃ c : Conn F, c.db = d
      ∧ (k < rows.length → c = ⟨d, some (selecting stmt params rows (k + 1))⟩)
      ∧ E.stepPrepared { selecting stmt params rows k with steps := k + 1 } d
        = (if k < rows.length then SQLITE_ROW else SQLITE_DONE, c) := by
  intro rows stmt
  have hpending : (selecting stmt params rows k).pending.getD rows = rows.drop k := by
    unfold selecting
    by_cases hk : k = 0
    · subst hk
      rfl
    · simp [hk]
  by_cases hk : k < rows.length
  · rw [if_pos hk]
    refine ⟨_, rfl, fun _ => ?_, stepPrepared_cons columns where_ orderBy _ rfl ht
      (hpending.trans (List.drop_eq_getElem_cons hk))⟩
    simp [selecting, hk]
  · rw [if_neg hk]
    exact ⟨_, rfl, fun h => absurd h hk, stepPrepared_nil columns where_ orderBy _ rfl ht
      (hpending.trans (List.drop_eq_nil_of_le (not_lt.mp hk)))⟩

omit [Double F] in
/-- Stepping a SELECT leaves the database and the statement alone.

This holds also of a table that does not exist and of a step that fails. It is
what makes reading harmless without any assumption. -/
theorem answerStep_select (st : Prepared F)
    (hst : st.stmt = .select columns table where_ orderBy) :
    ∃ st' : Prepared F, (E.answerStep φ (some 0) ⟨d, some st⟩).2 = ⟨d, some st'⟩
      ∧ st'.stmt = .select columns table where_ orderBy := by
  cases hstep : φ.step st.steps with
  | some code =>
    rw [answerStep_of_fault hstep]
    exact ⟨st, rfl, hst⟩
  | none =>
    rw [answerStep_of_none hstep]
    cases ht : d.find table with
    | none =>
      unfold stepPrepared
      simp only [hst, ht]
      exact ⟨_, rfl, rfl⟩
    | some t =>
      cases h : st.pending.getD (E.resultSet t columns where_ orderBy (st.params 1)) with
      | nil =>
        exact ⟨_, congrArg Prod.snd (stepPrepared_nil columns where_ orderBy
          { st with steps := st.steps + 1 } hst ht h), hst⟩
      | cons row rows =>
        exact ⟨_, congrArg Prod.snd (stepPrepared_cons columns where_ orderBy
          { st with steps := st.steps + 1 } hst ht h), hst⟩

/-- The statement that has just been prepared and bound. -/
def starting (d : Database F) (stmt : Statement) (params : ℕ → Cell F) : Conn F :=
  ⟨d, some { stmt := stmt, params := params }⟩

omit [Double F] in
/-- A SELECT never changes the tables, however far it is stepped and whichever
step fails. -/
theorem stepped_db (k : ℕ) :
    (E.stepped φ (starting d (.select columns table where_ orderBy) params) k).db = d := by
  have hall : ∃ st : Prepared F,
      E.stepped φ (starting d (.select columns table where_ orderBy) params) k = ⟨d, some st⟩
        ∧ st.stmt = .select columns table where_ orderBy := by
    induction k with
    | zero => exact ⟨_, rfl, rfl⟩
    | succ k ih =>
      obtain ⟨st, hk, hst⟩ := ih
      rw [stepped, hk]
      exact answerStep_select columns where_ orderBy st hst
  obtain ⟨st, hk, -⟩ := hall
  rw [hk]

omit [Double F] in
/-- As long as rows are delivered, the statement is selecting.

The hypothesis is on the codes and not on the number of rows: after a step
that has failed the wrapper does not go on, and what SQLite would do then is
left open. -/
theorem stepped_eq (ht : d.find table = some t) (k : ℕ) :
    let rows := E.resultSet t columns where_ orderBy (params 1)
    let stmt := Statement.select columns table where_ orderBy
    (∀ j < k, (E.cursor φ rows).code j = SQLITE_ROW) →
      E.stepped φ (starting d stmt params) k = ⟨d, some (selecting stmt params rows k)⟩ := by
  intro rows stmt hrows
  induction k with
  | zero => rfl
  | succ k ih =>
    obtain ⟨hfault, hlt⟩ := (Cursor.code_eq_row_iff _).mp (hrows k (Nat.lt_succ_self k))
    rw [cursor, List.length_map] at hlt
    have hnone : φ.step (selecting stmt params rows k).steps = none := hfault
    obtain ⟨c, -, hc, hstep⟩ := stepPrepared_selecting (E := E) columns where_ orderBy
      params ht k
    rw [stepped, ih (fun j hj => hrows j (Nat.lt_succ_of_lt hj)),
      answerStep_of_none hnone]
    exact (congrArg Prod.snd hstep).trans (hc hlt)

/-- **A prepared SELECT shows the cursor of its result set.**

The conditions are about the code of a step and the values in the current row;
the columns are read only after a step that has delivered a row. -/
theorem shows_cursor (ht : d.find table = some t) :
    (E.cursor φ (E.resultSet t columns where_ orderBy (params 1))).Shows (E.answer φ)
      (some 0) (E.stepped φ (starting d (.select columns table where_ orderBy) params)) := by
  have hcell : ∀ k row, (E.cursor φ (E.resultSet t columns where_ orderBy
      (params 1))).rows[k]? = some row →
      row = E.row ((E.resultSet t columns where_ orderBy (params 1)).getD k []) := by
    intro k row hrow
    rw [cursor, List.getElem?_map] at hrow
    rw [List.getD_eq_getElem?_getD]
    cases hr : (E.resultSet t columns where_ orderBy (params 1))[k]? with
    | none => rw [hr] at hrow; cases hrow
    | some cells => rw [hr] at hrow; cases hrow; rfl
  refine ⟨fun k hk => ?_, fun k row i hk hrow => ?_, fun k row i hk hrow => ?_,
    fun k row i hk hrow => ?_⟩
  -- the code of the step, which a fault may replace
  · refine Prod.ext ?_ rfl
    show (E.answerStep φ (some 0) _).1 = _
    rw [stepped_eq columns where_ orderBy params ht k hk]
    unfold Cursor.code
    cases hfault : φ.step k with
    | some code =>
      rw [answerStep_of_fault hfault]
      simp only [cursor, hfault]
    | none =>
      obtain ⟨c, -, -, hstep⟩ := stepPrepared_selecting (E := E) columns where_ orderBy
        params ht k
      rw [answerStep_of_none hfault]
      simp only [cursor, hfault, List.length_map]
      exact congrArg Prod.fst hstep
  -- the integer, the double and the text of a column are read from the same
  -- row
  all_goals
    rw [stepped_eq columns where_ orderBy params ht (k + 1)
      (fun j hj => hk j (Nat.lt_succ_iff.mp hj)), hcell k row hrow]
    simp [answer, currentCell, selecting, Engine.row]

/-- The value bound to the placeholder of a WHERE clause. -/
def whereCell (w : Option (WhereClause F)) : Cell F :=
  match w with
  | none => .null
  | some clause => clause.tableValue.value.toCell

omit [Double F] in
/-- A statement whose table and columns exist compiles. -/
theorem answerPrepare_of_resolves {sql : String} {stmt : Statement}
    (hparse : parse sql = some stmt) (hres : d.resolves stmt = true) :
    answerPrepare φ sql ⟨d, none⟩
      = match φ.prepare with
        | some code => ((code.1, none), ⟨d, none⟩)
        | none => ((SQLITE_OK, some 0), ⟨d, some { stmt := stmt }⟩) := by
  unfold answerPrepare
  cases φ.prepare with
  | some code => rfl
  | none => simp only [hparse, hres, if_true]

/-- A SELECT whose parameter is bound returns what its cursor delivers.

This is the part that the variants with and without a WHERE clause share: from
here on the method is the loop of the cursor. -/
theorem perform_selectMany_of_bind {tableColumns : List TableColumn}
    {w : Option (WhereClause F)} {o : Option OrderByClause} {c : Conn F} (n : ℕ)
    (hargs : (table.isEmpty || tableColumns.isEmpty) = false) (ht : d.find table = some t)
    (hprepare : E.answer φ (.prepareV2 (SQLite.selectQuery table tableColumns w o)) ⟨d, none⟩
      = ((SQLITE_OK, some 0), c))
    (hbind : (SQLite.bindWhere (some 0) w).run (E.answer φ) c
      = (.ok (), starting d (.select columns table where_ orderBy) params)) :
    E.perform φ (SQLite.selectMany table tableColumns w o n) d
      = ((E.cursor φ (E.resultSet t columns where_ orderBy (params 1))).fetched
        tableColumns 0 n, d) := by
  obtain ⟨m, s, hm, hrun⟩ := (shows_cursor (E := E) (φ := φ) columns where_ orderBy params
    ht).run_selectMany n hargs hprepare hbind
  unfold perform
  rw [hrun]
  refine Prod.ext rfl ?_
  rcases hm with rfl | rfl
  · exact stepped_db _ _ _ _ m
  · exact stepped_db _ _ _ _ m

/-- **What `selectMany` does to a database: nothing.** It throws if the
statement or its parameter is turned down, and otherwise returns what its
cursor delivers of the result set.

The condition is on the two calls before the loop. A step that fails is not
among them, because `selectMany` takes such a step for the end of the rows: it
does not throw, it returns fewer. -/
theorem perform_selectMany {c : TableColumn} {cs : List TableColumn}
    {w : Option (WhereClause F)} {o : Option OrderByClause} (n : ℕ)
    (htable : Plain table) (hcols : ∀ x ∈ c :: cs, Plain x.name)
    (hw : ∀ x ∈ w, Plain x.tableValue.columnName) (ho : ∀ x ∈ o, Plain x.columnName)
    (ht : d.find table = some t)
    (hres : d.resolves (.select ((c :: cs).map TableColumn.name) table
      (w.map WhereClause.condition) o) = true) :
    let rows := E.resultSet t ((c :: cs).map TableColumn.name)
      (w.map WhereClause.condition) o (whereCell w)
    ((E.cursor φ rows).Rejects table (c :: cs) w →
        ∃ what, E.perform φ (SQLite.selectMany table (c :: cs) w o n) d
          = (.error (.exception what), d))
      ∧ (¬ (E.cursor φ rows).Rejects table (c :: cs) w →
        E.perform φ (SQLite.selectMany table (c :: cs) w o n) d
          = ((E.cursor φ rows).fetched (c :: cs) 0 n, d)) := by
  intro rows
  have hargs : (table.isEmpty || (c :: cs).isEmpty) = false := by
    rw [htable.isEmpty]
    rfl
  have hprepare : E.answer φ (.prepareV2 (SQLite.selectQuery table (c :: cs) w o)) ⟨d, none⟩
      = _ := answerPrepare_of_resolves (parse_selectQuery htable hcols hw ho) hres
  cases hp : φ.prepare with
  | some code =>
    rw [hp] at hprepare
    refine ⟨fun _ => ?_, fun hr => absurd (Or.inr (Or.inl ?_)) hr⟩
    · unfold perform
      rw [Cursor.run_selectMany_of_prepare n code.2.1 hargs hprepare]
      exact ⟨_, rfl⟩
    · exact ne_of_eq_of_ne hp (Option.some_ne_none code)
  | none =>
    rw [hp] at hprepare
    cases w with
    | none =>
      refine ⟨fun hr => ?_, fun _ => ?_⟩
      · obtain hr | hr | ⟨hr, -⟩ := hr
        · rw [hargs] at hr
          cases hr
        · exact absurd hp hr
        · exact absurd rfl hr
      · exact perform_selectMany_of_bind ((c :: cs).map TableColumn.name) none o
          (fun _ => .null) n hargs ht hprepare rfl
    | some clause =>
      have hb : answerBind φ (some 0) 1 clause.tableValue.value.toCell
          (starting d (.select ((c :: cs).map TableColumn.name) table
            (some clause.condition) o) (fun _ => .null)) = _ :=
        answerBind_prepared φ (show 1 ≤ 1 ∧ 1 ≤ 1 from ⟨le_rfl, le_rfl⟩)
      have hbind := Cursor.run_bindWhere
        ((E.run_bindValue φ 1 clause.tableValue.value _).trans (by rw [hb]))
      by_cases hbn : φ.bind 1 = none
      · refine ⟨fun hr => ?_, fun _ => ?_⟩
        · obtain hr | hr | ⟨-, hr⟩ := hr
          · rw [hargs] at hr
            cases hr
          · exact absurd hp hr
          · exact absurd hbn hr
        · rw [if_neg (not_not_intro (Faults.bindCode_eq_ok_iff.mpr hbn)), if_pos hbn] at hbind
          have hdone := perform_selectMany_of_bind ((c :: cs).map TableColumn.name)
            (some clause.condition) o
            (Function.update (fun _ => .null) 1 clause.tableValue.value.toCell) n hargs ht
            hprepare hbind
          rwa [Function.update_self] at hdone
      · refine ⟨fun _ => ?_, fun hr => absurd (Or.inr (Or.inr ⟨?_, hbn⟩)) hr⟩
        · rw [if_pos (fun h => hbn (Faults.bindCode_eq_ok_iff.mp h)), if_neg hbn] at hbind
          unfold perform
          rw [Cursor.run_selectMany_of_bind n hargs hprepare hbind]
          exact ⟨_, rfl⟩
        · exact Option.some_ne_none clause

omit [Double F] in
/-- A fault-free cursor delivers what is asked for.

So a short result is the sign of a failure, but not one the caller can see. -/
theorem deliveredFrom_never (rows : List (List (Cell F))) (n : ℕ) :
    (E.cursor Faults.never rows).deliveredFrom 0 n = min n rows.length := by
  have h := (Cursor.deliveredFrom_eq_iff (E.cursor Faults.never rows) 0 n).mpr
    (fun _ _ => rfl)
  rwa [Nat.sub_zero, cursor, List.length_map] at h

omit [Double F] in
theorem mapM_ok {α β : Type} {l : List α} {g : α → Except Exc β} {f : α → β}
    (h : ∀ a ∈ l, g a = .ok (f a)) : l.mapM g = .ok (l.map f) := by
  induction l with
  | nil => rfl
  | cons a l ih =>
    obtain ⟨ha, hl⟩ := List.forall_mem_cons.mp h
    rw [List.mapM_cons, ha, ih hl]
    rfl

/-- **`selectMany` over a result set whose rows stand for values** throws, or
returns the readings of the rows that are delivered.

The rows are given as what they stand for, a list of arbitrary things with a
cell representation, so that the store can ask for clients and get clients,
without a word about cells. -/
theorem perform_selectMany_reading {α : Type} {l : List α} {cells : α → List (Cell F)}
    (reading : α → List (TableValue F)) (tableColumns : List TableColumn)
    (w : Option (WhereClause F)) (o : Option OrderByClause) (n : ℕ)
    (htable : Plain table) (hne : tableColumns ≠ []) (hcols : ∀ x ∈ tableColumns, Plain x.name)
    (hw : ∀ x ∈ w, Plain x.tableValue.columnName) (ho : ∀ x ∈ o, Plain x.columnName)
    (ht : d.find table = some t)
    (hres : d.resolves (.select (tableColumns.map TableColumn.name) table
      (w.map WhereClause.condition) o) = true)
    (hrows : E.resultSet t (tableColumns.map TableColumn.name)
      (w.map WhereClause.condition) o (whereCell w) = l.map cells)
    (hread : ∀ a ∈ l, (E.row (cells a)).values 0 tableColumns = .ok (reading a)) :
    ((φ.prepare ≠ none ∨ (w ≠ none ∧ φ.bind 1 ≠ none)) →
        ∃ what, E.perform φ (SQLite.selectMany table tableColumns w o n) d
          = (.error (.exception what), d))
      ∧ (¬ (φ.prepare ≠ none ∨ (w ≠ none ∧ φ.bind 1 ≠ none)) →
        E.perform φ (SQLite.selectMany table tableColumns w o n) d
          = (.ok ((l.take ((E.cursor φ (l.map cells)).deliveredFrom 0 n)).map reading), d)) := by
  obtain ⟨c, cs, rfl⟩ := List.exists_cons_of_ne_nil hne
  obtain ⟨hreject, hok⟩ := perform_selectMany (E := E) (φ := φ) n htable hcols hw ho ht hres
  rw [hrows] at hreject hok
  refine ⟨fun hr => hreject (Or.inr hr), fun hr => ?_⟩
  have hargs : ¬ (E.cursor φ (l.map cells)).Rejects table (c :: cs) w := by
    rintro (hargs | hr')
    · rw [htable.isEmpty] at hargs
      cases hargs
    · exact hr hr'
  rw [hok hargs]
  unfold Cursor.fetched cursor
  rw [List.drop_zero, ← List.map_take, ← List.map_take, List.mapM_map, List.mapM_map]
  exact Prod.ext (mapM_ok fun a ha => hread a (List.mem_of_mem_take ha)) rfl

/-- In particular it returns a first part of the rows – the whole part asked
for when no call fails.

The number `k` of rows is left open: it is at most what was asked for, and all
of it if nothing failed. This is the weakest thing that is still true of
`selectMany`, and it is what makes a lookup that failed look like one that
found nothing. -/
theorem perform_selectMany_typed {α : Type} {l : List α} {cells : α → List (Cell F)}
    (reading : α → List (TableValue F)) (tableColumns : List TableColumn)
    (w : Option (WhereClause F)) (o : Option OrderByClause) (n : ℕ)
    (htable : Plain table) (hne : tableColumns ≠ []) (hcols : ∀ x ∈ tableColumns, Plain x.name)
    (hw : ∀ x ∈ w, Plain x.tableValue.columnName) (ho : ∀ x ∈ o, Plain x.columnName)
    (ht : d.find table = some t)
    (hres : d.resolves (.select (tableColumns.map TableColumn.name) table
      (w.map WhereClause.condition) o) = true)
    (hrows : E.resultSet t (tableColumns.map TableColumn.name)
      (w.map WhereClause.condition) o (whereCell w) = l.map cells)
    (hread : ∀ a ∈ l, (E.row (cells a)).values 0 tableColumns = .ok (reading a)) :
    (φ ≠ Faults.never ∧ ∃ what, E.perform φ (SQLite.selectMany table tableColumns w o n) d
        = (.error (.exception what), d))
      ∨ ∃ k ≤ n, (φ = Faults.never → k = min n l.length)
        ∧ E.perform φ (SQLite.selectMany table tableColumns w o n) d
          = (.ok ((l.take k).map reading), d) := by
  obtain ⟨hreject, hok⟩ := perform_selectMany_reading (E := E) (φ := φ) reading tableColumns w o
    n htable hne hcols hw ho ht hres hrows hread
  by_cases hr : φ.prepare ≠ none ∨ (w ≠ none ∧ φ.bind 1 ≠ none)
  · refine Or.inl ⟨?_, hreject hr⟩
    rintro rfl
    obtain hr | ⟨-, hr⟩ := hr
    · exact hr rfl
    · exact hr rfl
  · refine Or.inr ⟨_, (Cursor.deliveredFrom_le _ 0 n).trans (Nat.min_le_left _ _), ?_, hok hr⟩
    rintro rfl
    rw [deliveredFrom_never, List.length_map]

/-- `selectOne` keeps the first row of `selectMany`.

An empty result is returned as an empty row, so a caller cannot tell a client
that is not there from a step that failed. -/
theorem perform_selectOne (table : String) (tableColumns : List TableColumn)
    (w : Option (WhereClause F)) (o : Option OrderByClause) :
    (∀ rows, E.perform φ (SQLite.selectMany table tableColumns w o 1) d = (.ok rows, d) →
        E.perform φ (SQLite.selectOne table tableColumns w o) d
          = (.ok (rows.head?.getD []), d))
      ∧ ∀ what, E.perform φ (SQLite.selectMany table tableColumns w o 1) d
          = (.error (.exception what), d) →
        ∃ what', E.perform φ (SQLite.selectOne table tableColumns w o) d
          = (.error (.exception what'), d) := by
  unfold perform SQLite.selectOne
  rw [Prog.bind_eq, Prog.run_bind, Prog.catchStd, Prog.run_tryCatch]
  refine ⟨fun rows h => ?_, fun what h => ?_⟩
  · obtain ⟨h₁, h₂⟩ := Prod.mk.inj h
    simp only [h₁]
    exact Prod.ext rfl h₂
  · obtain ⟨h₁, h₂⟩ := Prod.mk.inj h
    simp only [h₁]
    exact ⟨_, Prod.ext rfl h₂⟩

/-! ## INSERT

An INSERT is one step, so there is no loop over rows; the loop is over the values that
are bound. The n-th placeholder must get the n-th value, and a bind that fails must
leave the table alone, both for lists of any length. -/

/-- The parameters after binding a list of values, from an index on. -/
def setParams (params : ℕ → Cell F) : ℕ → List (Cell F) → ℕ → Cell F
  | _, [] => params
  | i, v :: vs => setParams (Function.update params i v) (i + 1) vs

omit [Double F] in
/-- Binding goes upwards, so what is bound already stays bound. -/
theorem setParams_of_lt (params : ℕ → Cell F) (i j : ℕ) (vs : List (Cell F)) (h : j < i) :
    setParams params i vs j = params j := by
  induction vs generalizing params i with
  | nil => rfl
  | cons v vs ih =>
    rw [setParams, ih _ _ (Nat.lt_succ_of_lt h), Function.update_of_ne (Nat.ne_of_lt h)]

omit [Double F] in
/-- **The n-th placeholder stands for the n-th value.** -/
theorem setParams_add (params : ℕ → Cell F) (i : ℕ) (vs : List (Cell F)) :
    (List.range vs.length).map (fun k => setParams params i vs (i + k)) = vs := by
  induction vs generalizing params i with
  | nil => rfl
  | cons v vs ih =>
    rw [List.length_cons, List.range_succ_eq_map, List.map_cons, List.map_map]
    refine congrArg₂ List.cons ?_ ?_
    · show setParams (Function.update params i v) (i + 1) vs i = v
      rw [setParams_of_lt _ _ _ _ (Nat.lt_succ_self i), Function.update_self]
    · refine Eq.trans ?_ (ih (Function.update params i v) (i + 1))
      refine List.map_congr_left (fun k _ => ?_)
      show setParams params i (v :: vs) (i + (k + 1)) = _
      rw [setParams, Nat.add_right_comm, Nat.add_assoc]

omit [Double F] in
theorem bound_setParams (params : ℕ → Cell F) (vs : List (Cell F)) :
    bound (setParams params 1 vs) vs.length = vs := by
  refine Eq.trans ?_ (setParams_add params 1 vs)
  exact List.map_congr_left (fun k _ => by rw [Nat.add_comm k 1])

/-- The bind loop of `insertOne` binds every value, or stops at the first
bind that fails.

The induction is on the values, with the index of the next placeholder
generalised. Which of the two cases holds depends on the faults alone, and in
both the tables are as they were. -/
theorem run_bindValues (vs : List (TableValue F)) (i : ℕ) (st : Prepared F) (hi : 1 ≤ i)
    (hn : i + vs.length ≤ st.stmt.parameters + 1) :
    ((∃ k < vs.length, φ.bind (i + k) ≠ none)
        ∧ ∃ what c, (SQLite.bindValues (some 0) i vs).run (E.answer φ) ⟨d, some st⟩
          = (.error (.exception what), c) ∧ c.db = d)
      ∨ ((∀ k < vs.length, φ.bind (i + k) = none)
        ∧ (SQLite.bindValues (some 0) i vs).run (E.answer φ) ⟨d, some st⟩
          = (.ok (), ⟨d, some { st with
            params := setParams st.params i (vs.map (fun v => v.value.toCell)) }⟩)) := by
  induction vs generalizing i st with
  | nil => exact Or.inr ⟨fun k hk => absurd hk (Nat.not_lt_zero k), rfl⟩
  | cons v vs ih =>
    rw [List.length_cons] at hn
    have hrun : ∀ k : Unit → Api F Unit,
        ((SQLite.bindValue (some 0) i v.value).bind (fun res =>
          (SQLite.checkBind res).bind k)).run (E.answer φ) ⟨d, some st⟩
        = ((SQLite.checkBind (φ.bindCode i)).bind k).run (E.answer φ)
            ⟨d, some (if φ.bind i = none then
              { st with params := Function.update st.params i v.value.toCell } else st)⟩ := by
      intro k
      rw [Prog.run_bind, run_bindValue, answerBind_prepared φ ⟨hi, by omega⟩]
    rw [SQLite.bindValues]
    show (_ ∧ ∃ what c, ((SQLite.bindValue (some 0) i v.value).bind (fun res =>
          (SQLite.checkBind res).bind (fun _ =>
            SQLite.bindValues (some 0) (i + 1) vs))).run _ _ = _ ∧ _)
      ∨ (_ ∧ ((SQLite.bindValue (some 0) i v.value).bind (fun res =>
          (SQLite.checkBind res).bind (fun _ =>
            SQLite.bindValues (some 0) (i + 1) vs))).run _ _ = _)
    rw [hrun]
    -- the first bind goes through or throws; the rest is the induction
    by_cases hb : φ.bind i = none
    · have hok : SQLite.checkBind (F := F) (φ.bindCode i) = .ret () :=
        if_neg (not_not_intro (Faults.bindCode_eq_ok_iff.mpr hb))
      rw [hok, if_pos hb, Prog.ret_bind]
      rcases ih (i + 1) { st with params := Function.update st.params i v.value.toCell }
        (by omega) (by show i + 1 + vs.length ≤ st.stmt.parameters + 1; omega) with
        ⟨⟨k, hk, hfail⟩, herr⟩ | ⟨hall, hdone⟩
      · refine Or.inl ⟨⟨k + 1, Nat.succ_lt_succ hk, ?_⟩, herr⟩
        rwa [Nat.add_comm k 1, ← Nat.add_assoc]
      · refine Or.inr ⟨fun k hk => ?_, hdone⟩
        cases k with
        | zero => exact hb
        | succ k =>
          have := hall k (Nat.lt_of_succ_lt_succ hk)
          rwa [Nat.add_right_comm, Nat.add_assoc] at this
    · refine Or.inl ⟨⟨0, Nat.zero_lt_succ _, hb⟩, ?_⟩
      have herr : SQLite.checkBind (F := F) (φ.bindCode i) = .throw _ :=
        if_pos (fun h => hb (Faults.bindCode_eq_ok_iff.mp h))
      rw [herr]
      exact ⟨_, _, rfl, rfl⟩

/-- What `insertOne` makes of its `try` block.

The body and what the method does around it are separated here because the
`try` block finalises the statement in both cases and rethrows with a text of
its own. -/
theorem perform_insertOne_of_body {v : TableValue F} {vs : List (TableValue F)}
    {code : ℕ} {pstmt : Option ℕ} {c₁ c₂ : Conn F} (hargs : table.isEmpty = false)
    (hprepare : E.answer φ (.prepareV2 (SQLite.insertQuery table (v :: vs))) ⟨d, none⟩
      = ((code, pstmt), c₁)) :
    ((SQLite.insertBody code pstmt (v :: vs)).run (E.answer φ) c₁ = (.ok (), c₂) →
        E.perform φ (SQLite.insertOne table (v :: vs)) d = (.ok (), c₂.db))
      ∧ ∀ what, (SQLite.insertBody code pstmt (v :: vs)).run (E.answer φ) c₁
          = (.error (.exception what), c₂) →
        ∃ what', E.perform φ (SQLite.insertOne table (v :: vs)) d
          = (.error (.exception what'), c₂.db) := by
  unfold perform SQLite.insertOne
  rw [hargs, List.isEmpty_cons, Bool.or_false, if_neg Bool.false_ne_true, Prog.run_call,
    hprepare, Prog.bind_eq, Prog.run_bind, Prog.catchStd, Prog.run_tryCatch]
  refine ⟨fun hbody => ?_, fun what hbody => ?_⟩
  · rw [hbody]
    rfl
  · rw [hbody]
    cases pstmt with
    | none => exact ⟨_, rfl⟩
    | some a => exact ⟨_, rfl⟩

omit [Double F] in
/-- A step of an INSERT whose values are bound. -/
theorem stepPrepared_insert {n k : ℕ} (ht : d.find table = some t) :
    (match E.insert t columns (bound params n) with
      | .ok t' => ∃ st, E.stepPrepared
          { stmt := .insert table columns n, params := params, steps := k } d
          = (SQLITE_DONE, ⟨d.replace t', some st⟩)
      | .error code => ∃ st, E.stepPrepared
          { stmt := .insert table columns n, params := params, steps := k } d
          = (code, ⟨d, some st⟩)) := by
  unfold stepPrepared
  simp only [ht]
  cases E.insert t columns (bound params n) with
  | ok t' => exact ⟨_, rfl⟩
  | error code => exact ⟨_, rfl⟩

omit [Double F] in
/-- An INSERT that is turned down does not answer `SQLITE_DONE`.

So the comparison with `SQLITE_DONE` in the body finds every constraint that
is violated. -/
theorem insert_error_ne_done {names : List String} {values : List (Cell F)} {code : ℕ}
    (h : E.insert t names values = .error code) : code ≠ SQLITE_DONE := by
  unfold insert at h
  dsimp only at h
  split_ifs at h
  · cases h
    decide
  · cases h
    decide

omit [Double F] in
/-- The body of `insertOne` once its values are bound. -/
theorem run_insertBody {σ : Type} {h : (q : Sqlite3 F) → σ → q.Resp × σ} {s₁ s₂ s₃ : σ}
    {vs : List (TableValue F)} {code : ℕ}
    (hbinds : (SQLite.bindValues (some 0) 1 vs).run h s₁ = (.ok (), s₂))
    (hstep : h (.step (some 0)) s₂ = (code, s₃)) :
    (SQLite.insertBody SQLITE_OK (some 0) vs).run h s₁
      = if code ≠ SQLITE_DONE then
          (.error (.exception ("sqlite3_step() ERROR: " ++ toString code)), s₃)
        else (.ok (), s₃) := by
  rw [SQLite.insertBody, if_neg (not_not_intro rfl), Prog.bind_eq, Prog.run_bind, hbinds]
  show ((Prog.perform (Sqlite3.step (some 0))).bind (fun res => if res ≠ SQLITE_DONE then
      .throw (.exception ("sqlite3_step() ERROR: " ++ toString res)) else .ret () :
      ℕ → Api F Unit)).run h s₂ = _
  rw [Prog.perform_bind, Prog.run_call, hstep]
  split_ifs <;> rfl

/-- **What `insertOne` does to a database**: it adds the row of its values,
or throws and changes nothing.

A violated constraint and a call that failed are the same to the caller, an
exception with a text. That is why a save that lost a race ends like one whose
disk is full. -/
theorem perform_insertOne {v : TableValue F} {vs : List (TableValue F)}
    (htable : Plain table) (hcols : ∀ x ∈ v :: vs, Plain x.columnName)
    (ht : d.find table = some t)
    (hres : d.resolves (.insert table ((v :: vs).map TableValue.columnName)
      (v :: vs).length) = true) :
    (φ.InsertFails (v :: vs).length →
        ∃ what, E.perform φ (SQLite.insertOne table (v :: vs)) d
          = (.error (.exception what), d))
      ∧ (¬ φ.InsertFails (v :: vs).length →
        match E.insert t ((v :: vs).map TableValue.columnName)
            ((v :: vs).map (fun v => v.value.toCell)) with
        | .ok t' => E.perform φ (SQLite.insertOne table (v :: vs)) d = (.ok (), d.replace t')
        | .error _ => ∃ what, E.perform φ (SQLite.insertOne table (v :: vs)) d
            = (.error (.exception what), d)) := by
  have hargs := htable.isEmpty
  have hprepare : E.answer φ (.prepareV2 (SQLite.insertQuery table (v :: vs))) ⟨d, none⟩
      = _ := answerPrepare_of_resolves (parse_insertQuery htable hcols) hres
  cases hp : φ.prepare with
  | some code =>
    rw [hp] at hprepare
    have hbody : (SQLite.insertBody code.1 none (v :: vs)).run (E.answer φ) ⟨d, none⟩
        = (.error (.exception ("sqlite3_prepare_v2() ERROR: " ++ toString code.1)),
          ⟨d, none⟩) := by
      rw [SQLite.insertBody, if_pos code.2.1]
      rfl
    exact ⟨fun _ => (perform_insertOne_of_body hargs hprepare).2 _ hbody,
      fun hr => absurd (Or.inl (ne_of_eq_of_ne hp (Option.some_ne_none code))) hr⟩
  | none =>
    rw [hp] at hprepare
    rcases run_bindValues (E := E) (φ := φ) (d := d) (v :: vs) 1
      { stmt := .insert table ((v :: vs).map TableValue.columnName) (v :: vs).length }
      le_rfl (le_of_eq (Nat.add_comm 1 _)) with ⟨hfail, what, c, hrun, hc⟩ | ⟨hall, hrun⟩
    · have hbody : (SQLite.insertBody SQLITE_OK (some 0) (v :: vs)).run (E.answer φ)
          (starting d (.insert table ((v :: vs).map TableValue.columnName)
            (v :: vs).length) (fun _ => .null)) = (.error (.exception what), c) := by
        rw [SQLite.insertBody, if_neg (not_not_intro rfl), Prog.bind_eq, Prog.run_bind]
        unfold starting
        rw [hrun]
      have herr := (perform_insertOne_of_body hargs hprepare).2 what hbody
      rw [hc] at herr
      exact ⟨fun _ => herr, fun hr => absurd (Or.inr (Or.inl hfail)) hr⟩
    · have hbound := bound_setParams (fun _ => .null) ((v :: vs).map (fun v => v.value.toCell))
      rw [List.length_map] at hbound
      -- a step that fails adds nothing, like a row that is turned down
      cases hstep : φ.step 0 with
      | some code =>
        have hbody := run_insertBody hrun (show E.answer φ (.step (some 0)) _ = _ from
          answerStep_of_fault hstep)
        rw [if_pos code.2.2.2] at hbody
        exact ⟨fun _ => (perform_insertOne_of_body hargs hprepare).2 _ hbody,
          fun hr => absurd (Or.inr (Or.inr (ne_of_eq_of_ne hstep
            (Option.some_ne_none code)))) hr⟩
      | none =>
        refine ⟨fun hr => ?_, fun _ => ?_⟩
        · obtain hr | ⟨k, hk, hr⟩ | hr := hr
          · exact absurd hp hr
          · exact absurd (hall k hk) hr
          · exact absurd hstep hr
        · have hins := stepPrepared_insert (E := E) (k := 1)
            ((v :: vs).map TableValue.columnName) (setParams (fun _ => .null) 1
              ((v :: vs).map (fun v => v.value.toCell))) (n := (v :: vs).length) ht
          rw [hbound] at hins
          have hbody := fun (code : ℕ) (c : Conn F) hcode => run_insertBody hrun
            (show E.answer φ (.step (some 0)) _ = (code, c) from
              (answerStep_of_none hstep).trans hcode)
          cases hres' : E.insert t ((v :: vs).map TableValue.columnName)
              ((v :: vs).map (fun v => v.value.toCell)) with
          | ok t' =>
            rw [hres'] at hins
            obtain ⟨st, hdone⟩ := hins
            have hok := hbody _ _ hdone
            rw [if_neg (not_not_intro rfl)] at hok
            exact (perform_insertOne_of_body hargs hprepare).1 hok
          | error code =>
            rw [hres'] at hins
            obtain ⟨st, hcode⟩ := hins
            have herr := hbody _ _ hcode
            rw [if_pos (insert_error_ne_done hres')] at herr
            exact (perform_insertOne_of_body hargs hprepare).2 _ herr

omit [Double F] in
theorem not_insertFails_never (n : ℕ) : ¬ Faults.never.InsertFails n := by
  rintro (h | ⟨k, -, h⟩ | h)
  · exact h rfl
  · exact h rfl
  · exact h rfl

/-- **`insertOne` adds the row, or throws and changes nothing** – and it
throws only if the row is turned down or a call fails.

In this form it is used: a row was added, or nothing has happened and there
was a reason for it. -/
theorem perform_insertOne_cases (tableValues : List (TableValue F))
    {result : Except ℕ (Table F)} (htable : Plain table) (hne : tableValues ≠ [])
    (hcols : ∀ x ∈ tableValues, Plain x.columnName) (ht : d.find table = some t)
    (hres : d.resolves (.insert table (tableValues.map TableValue.columnName)
      tableValues.length) = true)
    (hinsert : E.insert t (tableValues.map TableValue.columnName)
      (tableValues.map (fun v => v.value.toCell)) = result) :
    (∃ t', result = .ok t'
        ∧ E.perform φ (SQLite.insertOne table tableValues) d = (.ok (), d.replace t'))
      ∨ ((φ ≠ Faults.never ∨ ∃ code, result = .error code)
        ∧ ∃ what, E.perform φ (SQLite.insertOne table tableValues) d
          = (.error (.exception what), d)) := by
  obtain ⟨v, vs, rfl⟩ := List.exists_cons_of_ne_nil hne
  obtain ⟨hfail, hdone⟩ := perform_insertOne (E := E) (φ := φ) htable hcols ht hres
  by_cases hfails : φ.InsertFails (v :: vs).length
  · refine Or.inr ⟨Or.inl ?_, hfail hfails⟩
    rintro rfl
    exact not_insertFails_never _ hfails
  · have hdone := hdone hfails
    rw [hinsert] at hdone
    cases result with
    | ok t' => exact Or.inl ⟨t', rfl, hdone⟩
    | error code => exact Or.inr ⟨Or.inr ⟨code, rfl⟩, hdone⟩

/-! ## CREATE TABLE -/

/-- **What `createTable` does to a database**: it throws and changes nothing,
or adds the table, unless the table exists.

The statement is executed without being prepared, so there is one call that
can fail and one place for the result. A table that exists is not an error,
because the text says `IF NOT EXISTS`. -/
theorem perform_createTable {c : TableColumn} {cs : List TableColumn}
    (htable : Plain table) (hcols : ∀ x ∈ c :: cs, Plain x.name) :
    (φ.exec ≠ none →
        ∃ e, E.perform φ (SQLite.createTable table (c :: cs)) d = (.error e, d))
      ∧ (φ.exec = none →
        match d.createTable table (c :: cs) with
        | .ok d' => E.perform φ (SQLite.createTable table (c :: cs)) d = (.ok (), d')
        | .error _ => ∃ e, E.perform φ (SQLite.createTable table (c :: cs)) d
            = (.error e, d)) := by
  have hrun : ∀ code msg c', E.answer φ (.exec (SQLite.createTableQuery table (c :: cs)))
      ⟨d, none⟩ = ((code, msg), c') →
      ((code = SQLITE_OK → E.perform φ (SQLite.createTable table (c :: cs)) d
          = (.ok (), c'.db))
        ∧ (code ≠ SQLITE_OK → ∃ e, E.perform φ (SQLite.createTable table (c :: cs)) d
          = (.error e, c'.db))) := by
    intro code msg c' hexec
    unfold perform SQLite.createTable
    rw [htable.isEmpty, List.isEmpty_cons, Bool.or_false, if_neg Bool.false_ne_true,
      Prog.run_call, hexec]
    refine ⟨fun hcode => ?_, fun hcode => ?_⟩
    · rw [if_neg (not_not_intro hcode)]
      rfl
    · rw [if_pos hcode]
      cases msg with
      | none => exact ⟨_, rfl⟩
      | some msg => exact ⟨_, rfl⟩
  have hexec : E.answer φ (.exec (SQLite.createTableQuery table (c :: cs))) ⟨d, none⟩
      = answerExec φ (SQLite.createTableQuery table (c :: cs)) ⟨d, none⟩ := rfl
  unfold answerExec at hexec
  rw [parse_createTableQuery htable hcols] at hexec
  refine ⟨fun hfail => ?_, fun hnone => ?_⟩
  · obtain ⟨⟨code, msg⟩, hcode⟩ := Option.ne_none_iff_exists'.mp hfail
    rw [hcode] at hexec
    exact (hrun _ _ _ hexec).2 code.2.1
  · rw [hnone] at hexec
    dsimp only at hexec
    cases hd : d.createTable table (c :: cs) with
    | ok d' =>
      rw [hd] at hexec
      exact (hrun _ _ _ hexec).1 rfl
    | error msg =>
      rw [hd] at hexec
      exact (hrun _ _ _ hexec).2 (by decide)

end Engine
