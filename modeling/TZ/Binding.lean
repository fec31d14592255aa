import TZ.Engine
import TZ.Handles

/-!
# Texts and the values bound to them

The text of a statement and the values for its placeholders go to SQLite by
different calls, which loops of their own put together. This module says that
they fit: the text is read as the statement that was meant, with as many
placeholders as there are values, and what is bound to its `n`-th placeholder
is the `n`-th value (`texts_mean_arguments`).

Two loops that never meet have to agree on a number. One writes a question mark for
every value into the text, the other binds the values, counting from 1; SQLite compares
neither with the other, and a placeholder that nothing was bound to is `NULL`. The order
is therefore proved about the calls the method makes, over every sequence of answers,
and compared with what SQLite makes of the text.

As with the handles (`TZ.Handles`), what may be called next is said in terms of the
calls made before. So the statement can be read without knowing what the methods look
like.
-/

open SqlText

variable {F : Type}

/-! ## What is bound

The trace of calls shows which value went to which parameter. A bind may fail, and
then what comes after is not bound; hence the distinction between some of the values
and all. -/

/-- A value that was bound, and the parameter it was bound to. -/
def Call.bound : Call (Sqlite3 F) Sqlite3.Resp → Option (DBVariants F × ℕ)
  | ⟨.bindText _ index s _, _⟩ => some (.string s, index)
  | ⟨.bindInt64 _ index n, _⟩ => some (.int64 n, index)
  | ⟨.bindDouble _ index x, _⟩ => some (.double x, index)
  | _ => none

/-- A call that is passed a text to compile. -/
def Sqlite3.text : Sqlite3 F → Option String
  | .exec sql => some sql
  | .prepareV2 sql => some sql
  | _ => none

namespace Calls

/-- The values that were bound, in order. -/
def bound (calls : Calls F) : List (DBVariants F × ℕ) := calls.filterMap Call.bound

@[simp] theorem bound_append (past calls : Calls F) :
    bound (past ++ calls) = bound past ++ bound calls := List.filterMap_append

/-- **One text is compiled and the values are bound to its placeholders**: the
text is `sql`, the values are bound in order to the parameters `1`, `2`, …,
and all of them are by the time the statement is stepped.

A step before the last bind would run the statement with a `NULL` in it. -/
structure Binds (sql : String) (values : List (DBVariants F)) (calls : Calls F) : Prop where
  /-- No other text is compiled. -/
  text : ∀ d ∈ calls, ∀ text, d.cmd.text = some text → text = sql
  /-- No other value is bound. -/
  bound : bound calls <+: values.zipIdx 1
  /-- None is left when the statement is stepped. -/
  complete : ∀ before d after, calls = before ++ d :: after → d.cmd.isStep →
    Calls.bound before = values.zipIdx 1

/-- **The call that may come next** if the values are to be bound so.

Stated for one call after the calls before it, and then required of all of
them. -/
structure MayBind (sql : String) (values : List (DBVariants F)) (past : Calls F)
    (c : Sqlite3 F) : Prop where
  /-- It compiles no other text. -/
  text : ∀ text, c.text = some text → text = sql
  /-- It binds the next value, if any. -/
  bound : ∀ r : c.Resp, Calls.bound (past ++ [⟨c, r⟩]) <+: values.zipIdx 1
  /-- It does not step too early. -/
  complete : c.isStep → Calls.bound past = values.zipIdx 1

theorem Binds.of_may {sql : String} {values : List (DBVariants F)} {calls : Calls F}
    (h : ∀ before d after, calls = before ++ d :: after → MayBind sql values before d.cmd) :
    Binds sql values calls where
  text d hd := by
    obtain ⟨before, after, hsplit⟩ := List.append_of_mem hd
    exact (h before d after hsplit).text
  bound := by
    -- the last call has left it a prefix
    rcases List.eq_nil_or_concat calls with rfl | ⟨before, d, hcalls⟩
    · exact List.nil_prefix
    · rw [List.concat_eq_append] at hcalls
      rw [hcalls]
      exact (h before d [] hcalls).bound d.resp
  complete before d after hsplit := (h before d after hsplit).complete

/-- What has been bound is some of the values. -/
def Fits (values : List (DBVariants F)) (past : Calls F) : Prop :=
  bound past <+: values.zipIdx 1

/-- What has been bound is all of the values but those from `index` on.

The assertion of the bind loop at index `index`. -/
def Awaits (values rest : List (DBVariants F)) (index : ℕ) (past : Calls F) : Prop :=
  bound past ++ rest.zipIdx index = values.zipIdx 1

variable {sql : String} {values rest : List (DBVariants F)} {index : ℕ} {past : Calls F}
  {c : Sqlite3 F}

theorem Awaits.fits (h : Awaits values rest index past) : Fits values past :=
  ⟨_, h⟩

/-- Nothing is awaited any more. -/
theorem Awaits.complete (h : Awaits values [] index past) : bound past = values.zipIdx 1 := by
  rw [← h, List.zipIdx_nil, List.append_nil]

/-- A call that binds nothing leaves what has been bound. -/
theorem bound_quiet (hc : ∀ r, Call.bound ⟨c, r⟩ = none) (r : c.Resp) :
    bound (past ++ [⟨c, r⟩]) = bound past := by
  rw [bound_append]
  unfold bound
  rw [List.filterMap_cons_none (hc r), List.filterMap_nil, List.append_nil]

/-- It may come at any time, unless it is a step. -/
theorem Fits.may (h : Fits values past) (hc : ∀ r, Call.bound ⟨c, r⟩ = none)
    (htext : ∀ text, c.text = some text → text = sql)
    (hstep : c.isStep → bound past = values.zipIdx 1) : MayBind sql values past c :=
  ⟨htext, fun r => (bound_quiet hc r).symm ▸ h, hstep⟩

theorem Fits.append (h : Fits values past) (hc : ∀ r, Call.bound ⟨c, r⟩ = none) (r : c.Resp) :
    Fits values (past ++ [⟨c, r⟩]) := by
  unfold Fits
  rw [bound_quiet hc r]
  exact h

theorem Awaits.append (h : Awaits values rest index past)
    (hc : ∀ r, Call.bound ⟨c, r⟩ = none) (r : c.Resp) :
    Awaits values rest index (past ++ [⟨c, r⟩]) := by
  unfold Awaits
  rw [bound_quiet hc r]
  exact h

end Calls

/-! ## The pieces of the methods

Every piece either binds the next values or none, and hands the next piece what is
left. They are put together by the rule for sequencing. -/

section Methods

open Calls

variable {sql : String} {values : List (DBVariants F)} {past : Calls F} {pstmt : Option ℕ}
  {α β : Type}

/-- What a piece of a method ends with: if it throws, what has been bound is some
of the values. -/
def EndsBound (values : List (DBVariants F)) (P : α → Calls F → Prop) :
    Except Exc α → Calls F → Prop
  | .ok a, past => P a past
  | .error _, past => Fits values past

/-- A piece of a method that binds the values. -/
abbrev Binding (sql : String) (values : List (DBVariants F)) (P : α → Calls F → Prop)
    (p : Api F α) (past : Calls F) : Prop :=
  p.Guarded (MayBind sql values) (fun _ _ => True) (EndsBound values P) past

theorem Binding.bind {P : α → Calls F → Prop} {Q : β → Calls F → Prop} {p : Api F α}
    {f : α → Api F β} (hp : Binding sql values P p past)
    (hf : ∀ a past, P a past → Binding sql values Q (f a) past) :
    Binding sql values Q (p.bind f) past :=
  Prog.Guarded.bind hp hf fun _ _ h => h

/-- The next value is bound to the next parameter. -/
theorem bindValue_binding {rest : List (DBVariants F)} {index : ℕ} {v : DBVariants F}
    (h : Awaits values (v :: rest) index past) :
    Binding sql values (fun _ => Awaits values rest (index + 1))
      ((SQLite.bindValue pstmt index v).bind SQLite.checkBind) past := by
  have hafter : ∀ (c : Sqlite3 F) (r : c.Resp), Call.bound ⟨c, r⟩ = some (v, index) →
      Awaits values rest (index + 1) (past ++ [⟨c, r⟩]) := by
    intro c r hc
    unfold Awaits Calls.bound at *
    rw [List.filterMap_append, List.filterMap_cons_some hc, List.append_assoc]
    exact h
  have hcheck : ∀ (c : Sqlite3 F) (r : c.Resp) (res : ℕ), Call.bound ⟨c, r⟩ = some (v, index) →
      Binding sql values (fun _ => Awaits values rest (index + 1))
        (SQLite.checkBind res : Api F Unit) (past ++ [⟨c, r⟩]) := by
    intro c r res hc
    unfold SQLite.checkBind
    split_ifs
    · exact (hafter c r hc).fits
    · exact hafter c r hc
  cases v with
  | string s =>
    exact ⟨⟨nofun, fun r => (hafter _ r rfl).fits, nofun⟩, fun r _ => hcheck _ r r rfl⟩
  | int64 n =>
    exact ⟨⟨nofun, fun r => (hafter _ r rfl).fits, nofun⟩, fun r _ => hcheck _ r r rfl⟩
  | double x =>
    exact ⟨⟨nofun, fun r => (hafter _ r rfl).fits, nofun⟩, fun r _ => hcheck _ r r rfl⟩

/-- The bind loop of `insertOne` binds the values that are left.

By induction on the values, with the index generalised. -/
theorem bindValues_binding {tableValues : List (TableValue F)} {index : ℕ}
    (h : Awaits values (tableValues.map TableValue.value) index past) :
    Binding sql values (fun _ past => ∃ index, Awaits values [] index past)
      (SQLite.bindValues pstmt index tableValues) past := by
  induction tableValues generalizing index past with
  | nil => exact ⟨index, h⟩
  | cons tableValue tableValues ih =>
    have hvalue : Binding sql values _ ((SQLite.bindValue pstmt index tableValue.value).bind
        SQLite.checkBind) past := bindValue_binding h
    have hpiece := hvalue.bind (f := fun _ => SQLite.bindValues pstmt (index + 1) tableValues)
      fun _ past hpast => ih hpast
    rw [Prog.bind_assoc] at hpiece
    exact hpiece

/-- The bind of the WHERE clause binds its value. -/
theorem bindWhere_binding {w : Option (WhereClause F)}
    (h : Awaits values (w.toList.map fun w => w.tableValue.value) 1 past) :
    Binding sql values (fun _ past => ∃ index, Awaits values [] index past)
      (SQLite.bindWhere pstmt w) past := by
  cases w with
  | none => exact ⟨1, h⟩
  | some w =>
    have hbind : Binding sql values (fun _ => Awaits values [] 2)
        (SQLite.bindWhere pstmt (some w)) past := bindValue_binding h
    refine hbind.mono fun r past hr => ?_
    cases r with
    | ok a => exact ⟨2, hr⟩
    | error ex => exact hr

/-- Reading a row binds nothing. -/
theorem readRow_binding {i index : ℕ} {tableColumns : List TableColumn}
    (h : Awaits values [] index past) :
    Binding sql values (fun _ => Awaits values [] index)
      (SQLite.readRow pstmt i tableColumns : Api F (List (TableValue F))) past := by
  induction tableColumns generalizing i past with
  | nil => exact h
  | cons tableColumn tableColumns ih =>
    have hcolumn : Binding sql values (fun _ => Awaits values [] index)
        (SQLite.readColumn pstmt i tableColumn : Api F (TableValue F)) past := by
      unfold SQLite.readColumn
      cases tableColumn.type with
      | CT_INTEGER =>
        exact ⟨h.fits.may (fun _ => rfl) nofun nofun, fun n _ => h.append (fun _ => rfl) n⟩
      | CT_REAL =>
        exact ⟨h.fits.may (fun _ => rfl) nofun nofun, fun x _ => h.append (fun _ => rfl) x⟩
      | CT_TEXT =>
        refine ⟨h.fits.may (fun _ => rfl) nofun nofun, fun text _ => ?_⟩
        cases text with
        | none => exact h.fits.append (fun _ => rfl) _
        | some s => exact Awaits.append (c := .columnText pstmt i) h (fun _ => rfl) (some s)
    exact Binding.bind hcolumn fun _ past hpast => Binding.bind (ih hpast) fun _ past hpast => hpast

/-- The fetch loop steps a statement whose values are all bound. -/
theorem fetchRows_binding {index rowCount : ℕ} {tableColumns : List TableColumn}
    {rows : List (List (TableValue F))} (h : Awaits values [] index past) :
    Binding sql values (fun _ => Fits values)
      (SQLite.fetchRows pstmt tableColumns rowCount rows) past := by
  induction rowCount generalizing rows past with
  | zero => exact h.fits
  | succ rowCount ih =>
    refine ⟨h.fits.may (fun _ => rfl) nofun fun _ => h.complete, fun res _ => ?_⟩
    have hstep : Awaits values [] index (past ++ [⟨.step pstmt, res⟩]) :=
      h.append (fun _ => rfl) res
    show Binding _ _ _ (if res = SQLITE_ROW then _ else _) _
    split_ifs
    · exact Binding.bind (readRow_binding hstep) fun row past hpast => ih hpast
    · exact hstep.fits

/-- Finalising binds nothing. -/
theorem finalize_binding {P : α → Calls F → Prop} {p : Api F α} (h : Fits values past)
    (hp : ∀ past, Fits values past → Binding sql values P p past) :
    Binding sql values P ((Prog.perform (.finalize pstmt)).bind fun _ => p) past :=
  ⟨h.may (fun _ => rfl) nofun nofun, fun r _ => hp _ (h.append (fun _ => rfl) r)⟩

/-- So do the two places that finalise. -/
theorem catch_binding {body : Api F α} {g : Exc → Exc} {x : α → β}
    (hbody : Binding sql values (fun _ => Fits values) body past) :
    Binding sql values (fun _ => Fits values)
      ((body.catchStd fun ex => (SQLite.release pstmt).bind fun _ => .throw (g ex)).bind
        fun a => (Prog.perform (.finalize pstmt)).bind fun _ => .ret (x a)) past := by
  have hcatch : Binding sql values (fun _ => Fits values)
      (body.catchStd fun ex => (SQLite.release pstmt).bind fun _ => .throw (g ex)) past := by
    refine Prog.Guarded.tryCatch hbody (fun _ _ h => h) fun ex past h => ?_
    have hrelease : Binding sql values (fun _ => Fits values)
        ((SQLite.release pstmt).bind fun _ => (.throw (g ex) : Api F α)) past := by
      cases pstmt with
      | none => exact h
      | some stmt => exact finalize_binding h fun _ h => h
    cases ex with
    | nullString => exact h
    | _ => exact hrelease
  exact Binding.bind hcatch fun a past h => finalize_binding h fun _ h => h

/-! ## The methods

Both methods have a `try` block in which they bind and step, and a `catch` block that
finalises. An exception leaves some values bound and no step. -/

theorem insertOne_binding (tableName : String) (tableValues : List (TableValue F)) :
    Binding (SQLite.insertQuery tableName tableValues) (tableValues.map TableValue.value)
      (fun _ => Fits (tableValues.map TableValue.value))
      (SQLite.insertOne tableName tableValues) [] := by
  unfold SQLite.insertOne
  split_ifs
  · exact List.nil_prefix
  · refine ⟨⟨fun _ h => (Option.some.inj h).symm, fun r => List.nil_prefix, nofun⟩,
      fun r _ => catch_binding (x := fun _ => ()) ?_⟩
    unfold SQLite.insertBody
    split_ifs
    · exact List.nil_prefix
    · refine Binding.bind (bindValues_binding rfl) fun _ past ⟨index, hpast⟩ => ?_
      refine ⟨hpast.fits.may (fun _ => rfl) nofun fun _ => hpast.complete, fun res _ => ?_⟩
      have hstep : Fits (tableValues.map TableValue.value) (past ++ [⟨.step r.2, res⟩]) :=
        hpast.fits.append (fun _ => rfl) res
      show Binding _ _ _ (if res ≠ SQLITE_DONE then _ else _) _
      split_ifs
      · exact hstep
      · exact hstep

/-- The value of a WHERE clause. -/
def whereValues (w : Option (WhereClause F)) : List (DBVariants F) :=
  w.toList.map fun w => w.tableValue.value

theorem selectMany_binding (tableName : String) (tableColumns : List TableColumn)
    (w : Option (WhereClause F)) (o : Option OrderByClause) (rowCount : ℕ) :
    Binding (SQLite.selectQuery tableName tableColumns w o) (whereValues w)
      (fun _ => Fits (whereValues w)) (SQLite.selectMany tableName tableColumns w o rowCount)
      [] := by
  unfold SQLite.selectMany
  split_ifs
  · exact List.nil_prefix
  · refine ⟨⟨fun _ h => (Option.some.inj h).symm, fun r => List.nil_prefix, nofun⟩,
      fun r _ => catch_binding (g := id) (x := id) ?_⟩
    unfold SQLite.selectBody
    split_ifs
    · exact List.nil_prefix
    · exact Binding.bind (bindWhere_binding rfl) fun _ past ⟨index, hpast⟩ =>
        fetchRows_binding hpast

theorem createTable_binding (tableName : String) (tableColumns : List TableColumn) :
    Binding (SQLite.createTableQuery tableName tableColumns) ([] : List (DBVariants F))
      (fun _ => Fits []) (SQLite.createTable tableName tableColumns) [] := by
  unfold SQLite.createTable
  split_ifs
  · exact List.nil_prefix
  · refine ⟨⟨fun _ h => (Option.some.inj h).symm, fun r => List.nil_prefix, nofun⟩, fun r _ => ?_⟩
    obtain ⟨res, errMsg⟩ := r
    dsimp only
    split_ifs
    · cases errMsg <;> exact List.nil_prefix
    · exact List.nil_prefix

/-- A method that binds the values binds them in every run. -/
theorem Binding.binds {σ : Type} {H : Handler σ (Sqlite3 F) Sqlite3.Resp}
    {Rely : σ → σ → Prop} {s t : σ} {es : List (Event σ (Sqlite3 F) Sqlite3.Resp)}
    {p q : Api F α} {P : α → Calls F → Prop} (hp : Binding sql values P p [])
    (h : Steps H Rely p s es q t) : Binds sql values (es.map Event.call) :=
  .of_may (h.guarded (fun _ _ _ _ _ => trivial) hp).1

/-- **The SQL text means its arguments.** For plain identifiers the text each
method builds is read as exactly one statement, whose table, columns, types,
constraints, condition and order are those that were passed. That text is the
only one the method passes to SQLite, whatever SQLite answers; it has as many
placeholders as there are values; and the values are bound in order to the
placeholders `1`, `2`, …, all of them by the time the statement is stepped.

The text is read by the grammar of `TZ.SqlText` and the binding is that of the
method, so what is proved is that the two halves of the source fit each other. -/
theorem texts_mean_arguments {tableName : String} (ht : Plain tableName) :
    (∀ tableColumns : List TableColumn, tableColumns ≠ [] →
      (∀ x ∈ tableColumns, Plain x.name) →
      parse (SQLite.createTableQuery tableName tableColumns)
          = some (.createTable tableName tableColumns)
        ∧ ∀ {σ : Type} (H : Handler σ (Sqlite3 F) Sqlite3.Resp) (Rely : σ → σ → Prop)
          (s t : σ) (es : List (Event σ (Sqlite3 F) Sqlite3.Resp)) (q : Api F Unit),
          Steps H Rely (SQLite.createTable tableName tableColumns) s es q t →
          Binds (SQLite.createTableQuery tableName tableColumns) [] (es.map Event.call))
    ∧ (∀ tableValues : List (TableValue F), tableValues ≠ [] →
      (∀ x ∈ tableValues, Plain x.columnName) →
      ∃ stmt, parse (SQLite.insertQuery tableName tableValues) = some stmt
        ∧ stmt = .insert tableName (tableValues.map TableValue.columnName) tableValues.length
        ∧ stmt.parameters = (tableValues.map TableValue.value).length
        ∧ ∀ {σ : Type} (H : Handler σ (Sqlite3 F) Sqlite3.Resp) (Rely : σ → σ → Prop)
          (s t : σ) (es : List (Event σ (Sqlite3 F) Sqlite3.Resp)) (q : Api F Unit),
          Steps H Rely (SQLite.insertOne tableName tableValues) s es q t →
          Binds (SQLite.insertQuery tableName tableValues) (tableValues.map TableValue.value)
            (es.map Event.call))
    ∧ ∀ (tableColumns : List TableColumn) (w : Option (WhereClause F))
        (o : Option OrderByClause) (rowCount : ℕ), tableColumns ≠ [] →
      (∀ x ∈ tableColumns, Plain x.name) → (∀ x ∈ w, Plain x.tableValue.columnName) →
      (∀ x ∈ o, Plain x.columnName) →
      ∃ stmt, parse (SQLite.selectQuery tableName tableColumns w o) = some stmt
        ∧ stmt = .select (tableColumns.map TableColumn.name) tableName
          (w.map WhereClause.condition) o
        ∧ stmt.parameters = (whereValues w).length
        ∧ ∀ {σ : Type} (H : Handler σ (Sqlite3 F) Sqlite3.Resp) (Rely : σ → σ → Prop)
          (s t : σ) (es : List (Event σ (Sqlite3 F) Sqlite3.Resp))
          (q : Api F (List (List (TableValue F)))),
          Steps H Rely (SQLite.selectMany tableName tableColumns w o rowCount) s es q t →
          Binds (SQLite.selectQuery tableName tableColumns w o) (whereValues w)
            (es.map Event.call) := by
  refine ⟨fun tableColumns hne hcols => ?_, fun tableValues hne hcols => ?_,
    fun tableColumns w o rowCount hne hcols hw ho => ?_⟩
  · obtain ⟨c, cs, rfl⟩ := List.exists_cons_of_ne_nil hne
    exact ⟨parse_createTableQuery ht hcols, fun H Rely s t es q h =>
      (createTable_binding tableName (c :: cs)).binds h⟩
  · obtain ⟨v, vs, rfl⟩ := List.exists_cons_of_ne_nil hne
    refine ⟨_, parse_insertQuery ht hcols, rfl, ?_, fun H Rely s t es q h =>
      (insertOne_binding tableName (v :: vs)).binds h⟩
    exact (List.length_map _).symm
  · obtain ⟨c, cs, rfl⟩ := List.exists_cons_of_ne_nil hne
    refine ⟨_, parse_selectQuery ht hcols hw ho, rfl, ?_, fun H Rely s t es q h =>
      (selectMany_binding tableName (c :: cs) w o rowCount).binds h⟩
    cases w <;> rfl

/-- In particular of the columns of a packet. -/
theorem texts_mean_arguments_packets :
    ∃ stmt, parse (SQLite.insertQuery "packets"
        ([⟨"client_id", .int64 1⟩, ⟨"timestamp", .int64 0⟩, ⟨"x", .double 0⟩,
          ⟨"y", .double 0⟩] : List (TableValue ℚ))) = some stmt
      ∧ stmt = .insert "packets" ["client_id", "timestamp", "x", "y"] 4
      ∧ stmt.parameters = 4 := by
  obtain ⟨stmt, hparse, hstmt, hparameters, -⟩ := (texts_mean_arguments (F := ℚ)
    (show Plain "packets" by decide)).2.1 [⟨"client_id", .int64 1⟩, ⟨"timestamp", .int64 0⟩,
      ⟨"x", .double 0⟩, ⟨"y", .double 0⟩] (List.cons_ne_nil _ _) (by decide)
  exact ⟨stmt, hparse, hstmt, hparameters⟩

end Methods
