import TZ.SQLite

/-!
# Fetching the rows of a SELECT

What `SQLite::selectMany` and `SQLite::selectOne` return is decided by the
answers to `sqlite3_step`: the rows of a result set, one after another, then
`SQLITE_DONE` – or, at any point, an error code instead. `Cursor` is such a
sequence of answers, with the outcomes of preparing the statement and of
binding its parameter, and this module says what the two methods make of
each of them.

They make too little of an error code. The fetch loop runs while the answer
is `SQLITE_ROW` and never asks which other answer ended it, so a scan that
fails half-way returns the rows collected so far as if they were all of
them. `SQLite::insertOne`, in the same file, compares its answer with
`SQLITE_DONE` and throws. The exact condition under which a SELECT is
complete is `Cursor.selectMany_complete_iff`.

The rules about runs are stated for any state that *shows* a cursor
(`Cursor.Shows`), not only for the scripted one, so that the database of
`TZ.Engine` is read through them as well.

It is the answers that are modelled, and not SQLite. Any sequence is possible: a code
may be `SQLITE_BUSY` at the first step or an I/O error at the hundredth. So the
condition that is found is exact for everything the interface may do, and it names the
one place in the source at which the behaviour is decided.
-/

variable {F σ : Type}

/-! ## Answers

A script says in advance how each call will be answered. Codes that report success are
excluded from what a failure may answer, by the type. -/

/-- A result code that reports a failure. -/
abbrev ErrorCode :=
  { c : ℕ // c ≠ SQLITE_OK ∧ c ≠ SQLITE_ROW ∧ c ≠ SQLITE_DONE }

/-- **Which calls of a method fail**, and with what code: the steps are
counted from 0, the parameters from 1. -/
structure Faults where
  /-- `sqlite3_exec` fails, with the code and message. -/
  exec : Option (ErrorCode × Option String) := none
  /-- `sqlite3_prepare_v2` fails. -/
  prepare : Option ErrorCode := none
  /-- The bind of a parameter fails. -/
  bind : ℕ → Option ErrorCode := fun _ => none
  /-- A step fails. -/
  step : ℕ → Option ErrorCode := fun _ => none

/-- No call fails. -/
def Faults.never : Faults := {}

/-- The answer to the bind of a parameter that exists. -/
def Faults.bindCode (φ : Faults) (index : ℕ) : ℕ :=
  match φ.bind index with
  | some code => code.1
  | none => SQLITE_OK

theorem Faults.bindCode_eq_ok_iff {φ : Faults} {index : ℕ} :
    φ.bindCode index = SQLITE_OK ↔ φ.bind index = none := by
  unfold bindCode
  cases φ.bind index with
  | none => simp
  | some code => simp [code.2.1]

/-- A row of a result set, as the column functions read it. -/
structure Row (F : Type) where
  /-- `sqlite3_column_int64`. -/
  int64 : ℕ → Int
  /-- `sqlite3_column_double`. -/
  double : ℕ → F
  /-- `sqlite3_column_text`. -/
  text : ℕ → Option Bytes

namespace Row

/-- One requested column, as the wrapper reads it. -/
def column (row : Row F) (i : ℕ) (tableColumn : TableColumn) :
    Except Exc (TableValue F) :=
  match tableColumn.type with
  | .CT_INTEGER => .ok ⟨tableColumn.name, .int64 (row.int64 i)⟩
  | .CT_REAL => .ok ⟨tableColumn.name, .double (row.double i)⟩
  | .CT_TEXT =>
    match row.text i with
    | none => .error .nullString
    | some s => .ok ⟨tableColumn.name, .string (cstr s)⟩

/-- The requested columns, the first of them at position `i`. -/
def values (row : Row F) : ℕ → List TableColumn → Except Exc (List (TableValue F))
  | _, [] => .ok []
  | i, tableColumn :: rest => do
    let value ← row.column i tableColumn
    let row ← row.values (i + 1) rest
    .ok (value :: row)

/-- No requested text is a null pointer.

A null pointer comes from a `NULL` in a text column, or from a lack of memory.
The source makes a `std::string` of it without looking. -/
def Readable (row : Row F) (i : ℕ) (tableColumns : List TableColumn) : Prop :=
  ∀ p ∈ tableColumns.zipIdx i, p.1.type = .CT_TEXT → row.text p.2 ≠ none

/-- A row that is not readable ends in undefined behaviour. -/
theorem values_cases (row : Row F) (i : ℕ) (tableColumns : List TableColumn) :
    (row.Readable i tableColumns
        ∧ ∃ vs, row.values i tableColumns = .ok vs ∧ vs.length = tableColumns.length)
      ∨ (¬ row.Readable i tableColumns
        ∧ row.values i tableColumns = .error .nullString) := by
  induction tableColumns generalizing i with
  | nil => exact Or.inl ⟨fun p hp => by simp at hp, [], rfl, rfl⟩
  | cons c cs ih =>
    unfold Readable at ih ⊢
    rw [List.zipIdx_cons, List.forall_mem_cons]
    have hc : ((c.type = .CT_TEXT → row.text i ≠ none) ∧ ∃ v, row.column i c = .ok v)
        ∨ (¬ (c.type = .CT_TEXT → row.text i ≠ none)
          ∧ row.column i c = .error .nullString) := by
      unfold column
      cases c.type <;> cases row.text i <;> simp
    rcases hc with ⟨hread, v, hv⟩ | ⟨hnot, hv⟩
    · rcases ih (i + 1) with ⟨hreads, vs, hvs, hlen⟩ | ⟨hnots, hvs⟩
      · refine Or.inl ⟨⟨hread, hreads⟩, v :: vs, ?_, congrArg (· + 1) hlen⟩
        rw [values, hv, hvs]
        rfl
      · refine Or.inr ⟨fun h => hnots h.2, ?_⟩
        rw [values, hv, hvs]
        rfl
    · refine Or.inr ⟨fun h => hnot h.1, ?_⟩
      rw [values, hv]
      rfl

end Row

/-- **The answers to the calls of one SELECT**: the rows of its result set,
and the calls that fail. -/
structure Cursor (F : Type) where
  /-- The result set. -/
  rows : List (Row F)
  /-- The calls that fail. -/
  faults : Faults

namespace Cursor

variable (c : Cursor F)

/-- The answer to step `k`. -/
def code (k : ℕ) : ℕ :=
  match c.faults.step k with
  | some code => code.1
  | none => if k < c.rows.length then SQLITE_ROW else SQLITE_DONE

theorem code_eq_row_iff {k : ℕ} :
    c.code k = SQLITE_ROW ↔ c.faults.step k = none ∧ k < c.rows.length := by
  unfold code
  cases h : c.faults.step k with
  | some code => simp [code.2.2.1]
  | none =>
    by_cases hk : k < c.rows.length
    · simp [hk]
    · simp [hk, SQLITE_ROW, SQLITE_DONE]

/-- The number of rows delivered from step `k` on to a caller that takes at
most `n` of them. -/
def deliveredFrom : ℕ → ℕ → ℕ
  | _, 0 => 0
  | k, n + 1 => if c.code k = SQLITE_ROW then deliveredFrom (k + 1) n + 1 else 0

/-- The rows the wrapper reads off the first `n`. -/
def readings (tableColumns : List TableColumn) (n : ℕ) :
    Except Exc (List (List (TableValue F))) :=
  (c.rows.take n).mapM (fun row => row.values 0 tableColumns)

/-- **The scripted connection**: its state is the number of steps taken. -/
def answer [Double F] : (q : Sqlite3 F) → ℕ → q.Resp × ℕ
  | .exec _, k => ((SQLITE_OK, none), k)
  | .prepareV2 _, k =>
    match c.faults.prepare with
    | some code => ((code.1, none), k)
    | none => ((SQLITE_OK, some 0), k)
  | .bindText _ i _ _, k => (c.faults.bindCode i, k)
  | .bindInt64 _ i _, k => (c.faults.bindCode i, k)
  | .bindDouble _ i _, k => (c.faults.bindCode i, k)
  | .step _, k => (c.code k, k + 1)
  | .columnInt64 _ i, k => (((c.rows[k - 1]?).map (fun r => r.int64 i)).getD 0, k)
  | .columnDouble _ i, k =>
    (((c.rows[k - 1]?).map (fun r => r.double i)).getD Double.zero, k)
  | .columnText _ i, k => ((c.rows[k - 1]?).bind (fun r => r.text i), k)
  | .finalize _, k => (SQLITE_OK, k)

/-! ## States that show a cursor

The script is one thing that answers like a cursor, the database of `TZ.Engine` is
another. The rules are proved for both at once. -/

/-- **A statement shows a cursor** from the states `st 0`, `st 1`, … that its
steps go through: as long as rows are delivered, each step answers as the
cursor says, and after it the column functions read the row.

It asks nothing of the states after a step that is not `SQLITE_ROW`, since the
loop is over then. -/
structure Shows (h : (q : Sqlite3 F) → σ → q.Resp × σ) (pstmt : Option ℕ)
    (st : ℕ → σ) : Prop where
  /-- The steps. -/
  step : ∀ k, (∀ j < k, c.code j = SQLITE_ROW) →
    h (.step pstmt) (st k) = (c.code k, st (k + 1))
  /-- The integers of a row. -/
  columnInt64 : ∀ k row i, (∀ j ≤ k, c.code j = SQLITE_ROW) → c.rows[k]? = some row →
    h (.columnInt64 pstmt i) (st (k + 1)) = (row.int64 i, st (k + 1))
  /-- Its reals. -/
  columnDouble : ∀ k row i, (∀ j ≤ k, c.code j = SQLITE_ROW) → c.rows[k]? = some row →
    h (.columnDouble pstmt i) (st (k + 1)) = (row.double i, st (k + 1))
  /-- Its texts. -/
  columnText : ∀ k row i, (∀ j ≤ k, c.code j = SQLITE_ROW) → c.rows[k]? = some row →
    h (.columnText pstmt i) (st (k + 1)) = (row.text i, st (k + 1))

/-- The script shows its own cursor. -/
theorem shows_answer [Double F] (pstmt : Option ℕ) : c.Shows c.answer pstmt id where
  step _ _ := rfl
  columnInt64 k row i _ hrow := by simp [answer, hrow]
  columnDouble k row i _ hrow := by simp [answer, hrow]
  columnText k row i _ hrow := by simp [answer, hrow]

section Shows

variable {c} {h : (q : Sqlite3 F) → σ → q.Resp × σ} {pstmt : Option ℕ} {st : ℕ → σ}

/-- The loop over the requested columns reads the row. -/
theorem Shows.run_readRow (hs : c.Shows h pstmt st) {k : ℕ} {row : Row F}
    (hk : ∀ j ≤ k, c.code j = SQLITE_ROW) (hrow : c.rows[k]? = some row)
    (tableColumns : List TableColumn) (i : ℕ) :
    (SQLite.readRow pstmt i tableColumns).run h (st (k + 1))
      = (row.values i tableColumns, st (k + 1)) := by
  induction tableColumns generalizing i with
  | nil => rfl
  | cons tableColumn rest ih =>
    have hcol : (SQLite.readColumn pstmt i tableColumn).run h (st (k + 1))
        = (row.column i tableColumn, st (k + 1)) := by
      unfold SQLite.readColumn Row.column
      cases tableColumn.type with
      | CT_INTEGER => simp [hs.columnInt64 k row i hk hrow]
      | CT_REAL => simp [hs.columnDouble k row i hk hrow]
      | CT_TEXT =>
        rw [Prog.run_call, hs.columnText k row i hk hrow]
        cases row.text i <;> rfl
    rw [SQLite.readRow, Prog.bind_eq, Prog.run_bind, hcol, Row.values]
    cases hv : row.column i tableColumn with
    | error e => rfl
    | ok v =>
      show Prog.run h ((SQLite.readRow pstmt (i + 1) rest).bind _) (st (k + 1)) = _
      rw [Prog.run_bind, ih]
      cases row.values (i + 1) rest <;> rfl

/-- The rows the fetch loop collects from step `k` on. -/
def fetched (c : Cursor F) (tableColumns : List TableColumn) (k n : ℕ) :
    Except Exc (List (List (TableValue F))) :=
  ((c.rows.drop k).take (c.deliveredFrom k n)).mapM (fun row => row.values 0 tableColumns)

/-- **The fetch loop collects the rows that are delivered**, and nothing
tells its caller what ended it.

By induction on the number of rows that are still wanted, with the step as
what is generalised. -/
theorem Shows.run_fetchRows (hs : c.Shows h pstmt st) (tableColumns : List TableColumn)
    (n k : ℕ) (rows : List (List (TableValue F)))
    (hk : ∀ j < k, c.code j = SQLITE_ROW) :
    ∃ m, (SQLite.fetchRows pstmt tableColumns n rows).run h (st k)
      = ((c.fetched tableColumns k n).map (rows ++ ·), st m) := by
  induction n generalizing k rows with
  | zero =>
    refine ⟨k, ?_⟩
    show (Except.ok rows, st k) = (Except.ok (rows ++ []), st k)
    rw [List.append_nil]
  | succ n ih =>
    rw [SQLite.fetchRows, Prog.bind_eq, Prog.perform_bind, Prog.run_call, hs.step k hk]
    unfold fetched
    rw [deliveredFrom]
    by_cases hrow : c.code k = SQLITE_ROW
    · rw [if_pos hrow, if_pos hrow, Prog.bind_eq, Prog.run_bind]
      have hlt := (c.code_eq_row_iff.mp hrow).2
      have hk' : ∀ j ≤ k, c.code j = SQLITE_ROW := by
        intro j hj
        rcases Nat.lt_or_eq_of_le hj with hj | rfl
        · exact hk j hj
        · exact hrow
      rw [hs.run_readRow hk' (List.getElem?_eq_getElem hlt),
        List.drop_eq_getElem_cons hlt, List.take_succ_cons, List.mapM_cons]
      cases hv : c.rows[k].values 0 tableColumns with
      | error e => exact ⟨k + 1, rfl⟩
      | ok row =>
        obtain ⟨m, hm⟩ := ih (k + 1) (rows ++ [row]) (fun j hj => hk' j (Nat.lt_succ_iff.mp hj))
        refine ⟨m, hm.trans ?_⟩
        unfold fetched
        cases ((c.rows.drop (k + 1)).take (c.deliveredFrom (k + 1) n)).mapM
          (fun row => row.values 0 tableColumns) with
        | error e => rfl
        | ok vs => simp [Except.map, bind, Except.bind, pure, Except.pure]
    · rw [if_neg hrow, if_neg hrow]
      refine ⟨k + 1, ?_⟩
      show (Except.ok rows, st (k + 1)) = (Except.ok (rows ++ []), st (k + 1))
      rw [List.append_nil]

/-- **What `selectMany` returns**, once the statement is prepared and its
parameter bound.

The last answer, whatever it was, is not in the result. -/
theorem Shows.run_selectMany {a : ℕ} (hs : c.Shows h (some a) st) {tableName : String}
    {tableColumns : List TableColumn} {w : Option (WhereClause F)}
    {o : Option OrderByClause} {s s₁ : σ} (n : ℕ)
    (hargs : (tableName.isEmpty || tableColumns.isEmpty) = false)
    (hprepare : h (.prepareV2 (SQLite.selectQuery tableName tableColumns w o)) s
      = ((SQLITE_OK, some a), s₁))
    (hbind : (SQLite.bindWhere (some a) w).run h s₁ = (.ok (), st 0)) :
    ∃ m t, (t = st m ∨ t = (h (.finalize (some a)) (st m)).2)
      ∧ (SQLite.selectMany tableName tableColumns w o n).run h s
        = (c.fetched tableColumns 0 n, t) := by
  obtain ⟨m, hfetch⟩ := hs.run_fetchRows tableColumns n 0 [] (fun j hj => absurd hj (by omega))
  have hbody : (SQLite.selectBody SQLITE_OK (some a) tableColumns w n).run h s₁
      = (c.fetched tableColumns 0 n, st m) := by
    unfold SQLite.selectBody
    rw [if_neg (not_not_intro rfl), Prog.bind_eq, Prog.run_bind, hbind]
    show (SQLite.fetchRows (some a) tableColumns n []).run h (st 0) = _
    rw [hfetch]
    cases c.fetched tableColumns 0 n <;> rfl
  unfold SQLite.selectMany
  rw [hargs, if_neg Bool.false_ne_true, Prog.run_call, hprepare, Prog.bind_eq,
    Prog.run_bind, Prog.catchStd, Prog.run_tryCatch, hbody]
  cases c.fetched tableColumns 0 n with
  | ok rows => exact ⟨m, _, Or.inr rfl, rfl⟩
  | error e =>
    cases e with
    | nullString => exact ⟨m, _, Or.inl rfl, rfl⟩
    | exception what => exact ⟨m, _, Or.inr rfl, rfl⟩
    | badVariantAccess => exact ⟨m, _, Or.inr rfl, rfl⟩
    | systemError what => exact ⟨m, _, Or.inr rfl, rfl⟩

end Shows

section Rejected

variable {h : (q : Sqlite3 F) → σ → q.Resp × σ} {tableName : String}
  {tableColumns : List TableColumn} {w : Option (WhereClause F)}
  {o : Option OrderByClause} {s s₁ s₂ : σ} (n : ℕ)

/-- `selectMany` of a statement that does not compile. -/
theorem run_selectMany_of_prepare {code : ℕ} (hcode : code ≠ SQLITE_OK)
    (hargs : (tableName.isEmpty || tableColumns.isEmpty) = false)
    (hprepare : h (.prepareV2 (SQLite.selectQuery tableName tableColumns w o)) s
      = ((code, none), s₁)) :
    (SQLite.selectMany tableName tableColumns w o n).run h s
      = (.error (.exception (SQLite.prepareErrorText code)), s₁) := by
  unfold SQLite.selectMany SQLite.selectBody
  rw [hargs, if_neg Bool.false_ne_true, Prog.run_call, hprepare, if_pos hcode]
  rfl

/-- `selectMany` when the bind of its parameter fails. -/
theorem run_selectMany_of_bind {a : ℕ} {what : String}
    (hargs : (tableName.isEmpty || tableColumns.isEmpty) = false)
    (hprepare : h (.prepareV2 (SQLite.selectQuery tableName tableColumns w o)) s
      = ((SQLITE_OK, some a), s₁))
    (hbind : (SQLite.bindWhere (some a) w).run h s₁ = (.error (.exception what), s₂)) :
    (SQLite.selectMany tableName tableColumns w o n).run h s
      = (.error (.exception what), (h (.finalize (some a)) s₂).2) := by
  have hbody : (SQLite.selectBody SQLITE_OK (some a) tableColumns w n).run h s₁
      = (.error (.exception what), s₂) := by
    unfold SQLite.selectBody
    rw [if_neg (not_not_intro rfl), Prog.bind_eq, Prog.run_bind, hbind]
  unfold SQLite.selectMany
  rw [hargs, if_neg Bool.false_ne_true, Prog.run_call, hprepare, Prog.bind_eq,
    Prog.run_bind, Prog.catchStd, Prog.run_tryCatch, hbody]
  rfl

/-- The bind of a WHERE clause, of which one result code is known. -/
theorem run_bindWhere {pstmt : Option ℕ} {clause : WhereClause F} {code : ℕ}
    (hbind : (SQLite.bindValue pstmt 1 clause.tableValue.value).run h s₁
      = (.ok code, s₂)) :
    (SQLite.bindWhere pstmt (some clause)).run h s₁
      = (if code ≠ SQLITE_OK then
          .error (.exception ("sqlite3_bind_*() ERROR: " ++ toString code))
        else .ok (), s₂) := by
  show ((SQLite.bindValue pstmt 1 clause.tableValue.value).bind SQLite.checkBind).run h s₁
    = _
  rw [Prog.run_bind, hbind]
  show (SQLite.checkBind code).run h s₂ = _
  unfold SQLite.checkBind
  by_cases hcode : code = SQLITE_OK
  · rw [if_neg (not_not_intro hcode), if_neg (not_not_intro hcode)]
    rfl
  · rw [if_pos hcode, if_pos hcode]
    rfl

end Rejected

/-! ## When a SELECT is complete

The result of the method is compared with what it would have been had no call failed.
The comparison is with the rows of the cursor, which is the result set. -/

/-- **The call is turned down before any row is fetched**: an argument is
empty, the statement does not compile, or its parameter cannot be bound. -/
def Rejects (tableName : String) (tableColumns : List TableColumn)
    (w : Option (WhereClause F)) : Prop :=
  (tableName.isEmpty || tableColumns.isEmpty) = true ∨ c.faults.prepare ≠ none
    ∨ (w ≠ none ∧ c.faults.bind 1 ≠ none)

/-- The results of a SELECT that took no row for the end of the result set:
every row of it, or as many as were asked for, or else an exception.

An exception is complete, too: the caller is told. -/
def Complete (tableColumns : List TableColumn) (n : ℕ) :
    Except Exc (List (List (TableValue F))) → Prop
  | .ok rows => (rows.length = c.rows.length ∨ rows.length = n)
      ∧ c.readings tableColumns rows.length = .ok rows
  | .error e => e ≠ .nullString

theorem deliveredFrom_le (k n : ℕ) :
    c.deliveredFrom k n ≤ min n (c.rows.length - k) := by
  induction n generalizing k with
  | zero => exact Nat.zero_le _
  | succ n ih =>
    rw [deliveredFrom]
    by_cases hrow : c.code k = SQLITE_ROW
    · have hlt := (c.code_eq_row_iff.mp hrow).2
      have hle := ih (k + 1)
      rw [if_pos hrow]
      omega
    · rw [if_neg hrow]
      exact Nat.zero_le _

/-- What is delivered up to a step that fails. -/
theorem deliveredFrom_of_fault {j : ℕ} (k n : ℕ) (hj : j ≤ min n (c.rows.length - k))
    (hnone : ∀ i < j, c.faults.step (k + i) = none) (hfault : c.faults.step (k + j) ≠ none) :
    c.deliveredFrom k n = j := by
  induction n generalizing k j with
  | zero => exact (Nat.le_zero.mp (hj.trans (Nat.min_le_left _ _))).symm
  | succ n ih =>
    rw [deliveredFrom]
    cases j with
    | zero =>
      refine if_neg fun hrow => hfault ?_
      exact (c.code_eq_row_iff.mp hrow).1
    | succ j =>
      have hrow : c.code k = SQLITE_ROW :=
        c.code_eq_row_iff.mpr ⟨hnone 0 (Nat.zero_lt_succ j), by omega⟩
      have hshift : ∀ i, k + 1 + i = k + (i + 1) := fun i => by omega
      have hrest : c.deliveredFrom (k + 1) n = j := by
        refine ih (k + 1) (by omega) (fun i hi => ?_) ?_
        · rw [hshift]
          exact hnone (i + 1) (Nat.succ_lt_succ hi)
        · rw [hshift]
          exact hfault
      rw [if_pos hrow, hrest]

/-- Every row that is wanted is delivered exactly when no step before its
delivery fails.

Both directions by induction on the number of rows that are wanted. -/
theorem deliveredFrom_eq_iff (k n : ℕ) :
    c.deliveredFrom k n = min n (c.rows.length - k)
      ↔ ∀ j < min n (c.rows.length - k), c.faults.step (k + j) = none := by
  induction n generalizing k with
  | zero =>
    rw [Nat.zero_min]
    exact ⟨fun _ j hj => absurd hj (Nat.not_lt_zero j), fun _ => rfl⟩
  | succ n ih =>
    rw [deliveredFrom]
    by_cases hlt : k < c.rows.length
    · have hmin : min (n + 1) (c.rows.length - k)
          = min n (c.rows.length - (k + 1)) + 1 := by omega
      rw [hmin]
      by_cases hstep : c.faults.step k = none
      · rw [if_pos (c.code_eq_row_iff.mpr ⟨hstep, hlt⟩), Nat.add_right_cancel_iff, ih]
        constructor
        · intro h j hj
          cases j with
          | zero => exact hstep
          | succ j =>
            have := h j (by omega)
            rwa [Nat.add_right_comm, Nat.add_assoc] at this
        · intro h j hj
          have := h (j + 1) (by omega)
          rwa [Nat.add_comm j 1, ← Nat.add_assoc] at this
      · rw [if_neg (fun hrow => hstep (c.code_eq_row_iff.mp hrow).1)]
        exact ⟨fun h => absurd h (by omega), fun h => absurd (h 0 (by omega)) hstep⟩
    · rw [if_neg (fun hrow => hlt (c.code_eq_row_iff.mp hrow).2)]
      have hmin : min (n + 1) (c.rows.length - k) = 0 := by omega
      rw [hmin]
      exact ⟨fun _ j hj => absurd hj (Nat.not_lt_zero j), fun _ => rfl⟩

/-- Rows that are read one after another are all readable, or end in
undefined behaviour. -/
theorem mapM_values_cases (rows : List (Row F)) (tableColumns : List TableColumn) :
    ((∀ row ∈ rows, row.Readable 0 tableColumns)
        ∧ ∃ vs, rows.mapM (fun row => row.values 0 tableColumns) = .ok vs
          ∧ vs.length = rows.length ∧ ∀ v ∈ vs, v.length = tableColumns.length)
      ∨ ((∃ row ∈ rows, ¬ row.Readable 0 tableColumns)
        ∧ rows.mapM (fun row => row.values 0 tableColumns) = .error .nullString) := by
  induction rows with
  | nil => exact Or.inl ⟨by simp, [], rfl, rfl, by simp⟩
  | cons row rows ih =>
    rw [List.mapM_cons]
    rcases row.values_cases 0 tableColumns with ⟨hread, v, hv, hlen⟩ | ⟨hnot, hv⟩
    · rcases ih with ⟨hreads, vs, hvs, hlens, hall⟩ | ⟨⟨r, hr, hnots⟩, hvs⟩
      · refine Or.inl ⟨List.forall_mem_cons.mpr ⟨hread, hreads⟩, v :: vs, ?_,
          congrArg (· + 1) hlens, List.forall_mem_cons.mpr ⟨hlen, hall⟩⟩
        rw [hv, hvs]
        rfl
      · refine Or.inr ⟨⟨r, List.mem_cons_of_mem row hr, hnots⟩, ?_⟩
        rw [hv, hvs]
        rfl
    · refine Or.inr ⟨⟨row, List.mem_cons_self, hnot⟩, ?_⟩
      rw [hv]
      rfl

/-- The rows delivered are complete exactly when no step failed before them
and all of them are readable.

A text that is a null pointer counts as a failure, because what would be
returned is undefined. -/
theorem complete_readings_iff (tableColumns : List TableColumn) (n : ℕ) :
    c.Complete tableColumns n (c.readings tableColumns (c.deliveredFrom 0 n))
      ↔ ∀ j row, c.rows[j]? = some row → j < n →
          c.faults.step j = none ∧ row.Readable 0 tableColumns := by
  have hle := c.deliveredFrom_le 0 n
  have heq := c.deliveredFrom_eq_iff 0 n
  rw [Nat.sub_zero] at hle heq
  unfold readings
  rcases mapM_values_cases (c.rows.take (c.deliveredFrom 0 n)) tableColumns with
    ⟨hreads, vs, hvs, hlen, -⟩ | ⟨⟨row, hrow, hnot⟩, hvs⟩
  · rw [List.length_take, Nat.min_eq_left (by omega)] at hlen
    rw [hvs]
    constructor
    · rintro ⟨hall, -⟩ j row hrow hj
      obtain ⟨hlt, -⟩ := List.getElem?_eq_some_iff.mp hrow
      have hmin : c.deliveredFrom 0 n = min n c.rows.length := by omega
      refine ⟨?_, hreads row (List.mem_iff_getElem?.mpr ⟨j, ?_⟩)⟩
      · have := heq.mp hmin j (by omega)
        rwa [Nat.zero_add] at this
      · rw [List.getElem?_take_of_lt (by omega), hrow]
    · intro hall
      have hmin : c.deliveredFrom 0 n = min n c.rows.length := by
        refine heq.mpr (fun j hj => ?_)
        have hlt : j < c.rows.length := by omega
        rw [Nat.zero_add]
        exact (hall j _ (List.getElem?_eq_getElem hlt) (by omega)).1
      refine ⟨by omega, ?_⟩
      rw [hlen]
      exact hvs
  · rw [hvs]
    refine ⟨fun h => absurd rfl h, fun hall => ?_⟩
    obtain ⟨j, hj⟩ := List.mem_iff_getElem?.mp hrow
    have hlt : j < c.deliveredFrom 0 n := by
      obtain ⟨hlt, -⟩ := List.getElem?_eq_some_iff.mp hj
      rw [List.length_take] at hlt
      omega
    rw [List.getElem?_take_of_lt hlt] at hj
    exact absurd (hall j row hj (by omega)).2 hnot

variable [Double F] {tableName : String} {tableColumns : List TableColumn}
  {w : Option (WhereClause F)} {o : Option OrderByClause}

/-- A bind under the script. -/
theorem run_bindValue (pstmt : Option ℕ) (index : ℕ) (v : DBVariants F) (k : ℕ) :
    (SQLite.bindValue pstmt index v).run c.answer k
      = (.ok (c.faults.bindCode index), k) := by
  cases v <;> rfl

/-- A call that is turned down throws. -/
theorem run_selectMany_of_rejects (n : ℕ) (hr : c.Rejects tableName tableColumns w) :
    ∃ what, ((SQLite.selectMany tableName tableColumns w o n).run c.answer 0).1
      = .error (.exception what) := by
  by_cases hargs : (tableName.isEmpty || tableColumns.isEmpty) = true
  · unfold SQLite.selectMany
    rw [if_pos hargs]
    exact ⟨_, rfl⟩
  rw [Bool.not_eq_true] at hargs
  have hanswer : c.answer (.prepareV2 (SQLite.selectQuery tableName tableColumns w o)) 0
      = match c.faults.prepare with
        | some code => ((code.1, none), 0)
        | none => ((SQLITE_OK, some 0), 0) := rfl
  cases hp : c.faults.prepare with
  | some code =>
    rw [hp] at hanswer
    rw [run_selectMany_of_prepare n code.2.1 hargs hanswer]
    exact ⟨_, rfl⟩
  | none =>
    rw [hp] at hanswer
    obtain hr | hr | ⟨hw, hb⟩ := hr
    · rw [hargs] at hr
      cases hr
    · exact absurd hp hr
    · obtain ⟨clause, rfl⟩ := Option.ne_none_iff_exists'.mp hw
      have hcode : c.faults.bindCode 1 ≠ SQLITE_OK := fun h =>
        hb (Faults.bindCode_eq_ok_iff.mp h)
      have hbind := run_bindWhere (c.run_bindValue (some 0) 1 clause.tableValue.value 0)
      rw [if_pos hcode] at hbind
      rw [run_selectMany_of_bind n hargs hanswer hbind]
      exact ⟨_, rfl⟩

/-- A call that is not turned down returns the rows delivered. -/
theorem run_selectMany_of_not_rejects (n : ℕ) (hr : ¬ c.Rejects tableName tableColumns w) :
    ((SQLite.selectMany tableName tableColumns w o n).run c.answer 0).1
      = c.readings tableColumns (c.deliveredFrom 0 n) := by
  unfold Rejects at hr
  push Not at hr
  obtain ⟨hargs, hp, hb⟩ := hr
  have hanswer : c.answer (.prepareV2 (SQLite.selectQuery tableName tableColumns w o)) 0
      = ((SQLITE_OK, some 0), 0) := by
    unfold answer
    rw [hp]
  have hbind : (SQLite.bindWhere (some 0) w).run c.answer 0 = (.ok (), id 0) := by
    cases w with
    | none => rfl
    | some clause =>
      have hcode := Faults.bindCode_eq_ok_iff.mpr (hb (Option.some_ne_none clause))
      rw [run_bindWhere (c.run_bindValue (some 0) 1 clause.tableValue.value 0),
        if_neg (not_not_intro hcode)]
      rfl
  obtain ⟨m, t, _, hrun⟩ := (c.shows_answer (some 0)).run_selectMany n
    (Bool.not_eq_true _ ▸ hargs) hanswer hbind
  rw [hrun]
  rfl

/-- `selectOne` runs `selectMany` for one row. -/
theorem run_selectOne :
    ((SQLite.selectOne tableName tableColumns w o).run c.answer 0).1
      = match ((SQLite.selectMany tableName tableColumns w o 1).run c.answer 0).1 with
        | .ok rows => .ok (rows.head?.getD [])
        | .error .nullString => .error .nullString
        | .error ex => .error (.exception
          ("Can't SELECT from table \"" ++ tableName ++ "\": " ++ ex.what ++ ".")) := by
  unfold SQLite.selectOne
  rw [Prog.bind_eq, Prog.run_bind, Prog.catchStd, Prog.run_tryCatch]
  cases ((SQLite.selectMany tableName tableColumns w o 1).run c.answer 0).1 with
  | ok rows => rfl
  | error e => cases e <;> rfl

theorem run_selectOne_of_rejects (hr : c.Rejects tableName tableColumns w) :
    ∃ what, ((SQLite.selectOne tableName tableColumns w o).run c.answer 0).1
      = .error (.exception what) := by
  obtain ⟨what, hmany⟩ := c.run_selectMany_of_rejects (o := o) 1 hr
  rw [run_selectOne, hmany]
  exact ⟨_, rfl⟩

/-- An empty row means an empty result set exactly when the first step does
not fail. -/
theorem run_selectOne_eq_nil_iff (hr : ¬ c.Rejects tableName tableColumns w) :
    (((SQLite.selectOne tableName tableColumns w o).run c.answer 0).1 = .ok [] →
        c.rows = [])
      ↔ (c.rows ≠ [] → c.faults.step 0 = none) := by
  have hcols : tableColumns ≠ [] := by
    rintro rfl
    exact hr (Or.inl (Bool.or_true _))
  rw [run_selectOne, c.run_selectMany_of_not_rejects 1 hr]
  by_cases hrow : c.code 0 = SQLITE_ROW
  · -- one row is delivered, and it has a value for each requested column
    have hone : c.deliveredFrom 0 1 = 1 := if_pos hrow
    obtain ⟨hstep, hlt⟩ := c.code_eq_row_iff.mp hrow
    rw [hone]
    refine ⟨fun _ _ => hstep, fun _ h => ?_⟩
    unfold readings at h
    rcases mapM_values_cases (c.rows.take 1) tableColumns with
      ⟨-, vs, hvs, hlen, hall⟩ | ⟨-, hvs⟩
    · rw [hvs] at h
      rw [List.length_take, Nat.min_eq_left hlt] at hlen
      obtain ⟨v, rfl⟩ := List.length_eq_one_iff.mp hlen
      have hv := hall v List.mem_cons_self
      have hnil : v = [] := Except.ok.inj h
      rw [hnil] at hv
      exact absurd (List.length_eq_zero_iff.mp hv.symm) hcols
    · rw [hvs] at h
      cases h
  · have hzero : c.deliveredFrom 0 1 = 0 := if_neg hrow
    rw [hzero]
    rw [c.code_eq_row_iff] at hrow
    constructor
    · intro h hne
      exact absurd (h rfl) hne
    · intro h _
      by_contra hne
      exact hrow ⟨h hne, List.length_pos_iff.mpr hne⟩

/-- **A SELECT never returns a shortened result – exactly when no step fails
and no text is a null pointer before the rows that are wanted have been
delivered**, or the call is turned down before it fetches anything. An empty
row means an empty result set exactly when, in addition, the first step of
`selectOne` does not fail.

The second half is about `selectOne` as its callers use it: they take an empty
row for "there is none". -/
theorem selectMany_complete_iff (tableName : String) (tableColumns : List TableColumn)
    (w : Option (WhereClause F)) (o : Option OrderByClause) (n : ℕ) :
    (c.Complete tableColumns n
        ((SQLite.selectMany tableName tableColumns w o n).run c.answer 0).1
      ↔ c.Rejects tableName tableColumns w
        ∨ ∀ j row, c.rows[j]? = some row → j < n →
          c.faults.step j = none ∧ row.Readable 0 tableColumns)
    ∧ ((((SQLite.selectOne tableName tableColumns w o).run c.answer 0).1 = .ok [] →
        c.rows = [])
      ↔ c.Rejects tableName tableColumns w
        ∨ (c.rows ≠ [] → c.faults.step 0 = none)) := by
  by_cases hr : c.Rejects tableName tableColumns w
  · obtain ⟨what, hmany⟩ := c.run_selectMany_of_rejects (o := o) n hr
    obtain ⟨what', hone⟩ := c.run_selectOne_of_rejects (o := o) hr
    rw [hmany, hone]
    exact ⟨⟨fun _ => Or.inl hr, fun _ => Exc.noConfusion⟩,
      fun _ => Or.inl hr, fun _ h => by cases h⟩
  · have htrue : ∀ p : Prop, (c.Rejects tableName tableColumns w ∨ p) ↔ p :=
      fun p => or_iff_right hr
    rw [htrue, htrue, c.run_selectMany_of_not_rejects n hr]
    exact ⟨c.complete_readings_iff tableColumns n, c.run_selectOne_eq_nil_iff hr⟩

/-- A table of two clients whose scan is interrupted at its second row. -/
def interrupted : Cursor F where
  rows := [⟨fun _ => 1, fun _ => Double.zero, fun _ => none⟩,
    ⟨fun _ => 2, fun _ => Double.zero, fun _ => none⟩]
  faults := { step := fun k => if k = 1 then some ⟨5, by decide⟩ else none }

/-- A table of one client whose scan fails at once. -/
def failing : Cursor F where
  rows := [⟨fun _ => 1, fun _ => Double.zero, fun _ => none⟩]
  faults := { step := fun _ => some ⟨5, by decide⟩ }

/-- **A scan interrupted by `SQLITE_BUSY` is taken for a complete one.** Asked
for two rows of a result set of two, `selectMany` returns one; and `selectOne`
finds no client in a table that has one. -/
theorem selectMany_incomplete :
    ¬ (interrupted : Cursor ℚ).Complete [⟨"id", .CT_INTEGER, true, false, true⟩] 2
        ((SQLite.selectMany "clients" [⟨"id", .CT_INTEGER, true, false, true⟩]
          none none 2).run (interrupted : Cursor ℚ).answer 0).1
    ∧ ((SQLite.selectOne "clients" [⟨"id", .CT_INTEGER, true, false, true⟩]
          none none).run (failing : Cursor ℚ).answer 0).1 = .ok []
    ∧ (failing : Cursor ℚ).rows ≠ [] := by
  refine ⟨?_, rfl, List.cons_ne_nil _ _⟩
  rintro ⟨h | h, -⟩
  · exact absurd h (show (1 : ℕ) ≠ 2 by decide)
  · exact absurd h (show (1 : ℕ) ≠ 2 by decide)

end Cursor
