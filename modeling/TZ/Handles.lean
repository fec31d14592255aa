import TZ.Guarded
import TZ.SQLite

/-!
# Statement handles

A statement that was prepared must be finalised, once, whatever happens in
between, and must not be used before or after. `SQLite::insertOne` and
`SQLite::selectMany` have two places each where they finalise: the `catch`
block, and past its end. This module follows the handle over every sequence
of answers (`statements_released`).

What may be called is said of the calls made before (`May`), not of any
state of the method, and so can be read without its code.

The interface may answer anything that its documentation allows, in any order. This
makes the statement one about the control flow of the two methods and about nothing
else: every branch is taken for some answers, and on each of them the handle must be
accounted for. The reasoning is by Hoare triples over the trace of calls, with one
triple for each piece of a method, and the assertion says what the trace so far has made
of the handle.
-/

variable {F : Type}

/-! ## The calls

What a call does to handles, and what its answer says, are read off the call and the
answer. Every notion below is a property of a trace. -/

/-- The calls a method has made. -/
abbrev Calls (F : Type) := List (Call (Sqlite3 F) Sqlite3.Resp)

namespace Sqlite3

/-- The statement that is bound, stepped or read. -/
def uses : Sqlite3 F → Option (Option ℕ)
  | .bindText pstmt _ _ _ => some pstmt
  | .bindInt64 pstmt _ _ => some pstmt
  | .bindDouble pstmt _ _ => some pstmt
  | .step pstmt => some pstmt
  | .columnInt64 pstmt _ => some pstmt
  | .columnDouble pstmt _ => some pstmt
  | .columnText pstmt _ => some pstmt
  | .exec _ => none
  | .prepareV2 _ => none
  | .finalize _ => none

/-- A call of the family `sqlite3_bind_*`. -/
def isBind : Sqlite3 F → Bool
  | .bindText .. => true
  | .bindInt64 .. => true
  | .bindDouble .. => true
  | _ => false

/-- A call of `sqlite3_step`. -/
def isStep : Sqlite3 F → Bool
  | .step _ => true
  | _ => false

/-- A call of the family `sqlite3_column_*`. -/
def isColumn : Sqlite3 F → Bool
  | .columnInt64 .. => true
  | .columnDouble .. => true
  | .columnText .. => true
  | _ => false

end Sqlite3

namespace Call

/-- The handle that was made. -/
def prepared : Call (Sqlite3 F) Sqlite3.Resp → Option ℕ
  | ⟨.prepareV2 _, r⟩ => r.2
  | _ => none

/-- The handle that was finalised. -/
def finalized : Call (Sqlite3 F) Sqlite3.Resp → Option (Option ℕ)
  | ⟨.finalize pstmt, _⟩ => some pstmt
  | _ => none

/-- A statement that does not compile. -/
def PrepareFailed : Call (Sqlite3 F) Sqlite3.Resp → Prop
  | ⟨.prepareV2 _, r⟩ => r.1 ≠ SQLITE_OK
  | _ => False

/-- A bind that failed. -/
def BindFailed : Call (Sqlite3 F) Sqlite3.Resp → Prop
  | ⟨.bindText .., res⟩ => res ≠ SQLITE_OK
  | ⟨.bindInt64 .., res⟩ => res ≠ SQLITE_OK
  | ⟨.bindDouble .., res⟩ => res ≠ SQLITE_OK
  | _ => False

/-- A step without a row. -/
def StepEnded : Call (Sqlite3 F) Sqlite3.Resp → Prop
  | ⟨.step _, res⟩ => res ≠ SQLITE_ROW
  | _ => False

/-- A step of a statement that has a row. -/
def HasRow (pstmt : Option ℕ) : Call (Sqlite3 F) Sqlite3.Resp → Prop
  | ⟨.step pstmt', res⟩ => pstmt' = pstmt ∧ res = SQLITE_ROW
  | _ => False

end Call

namespace Calls

/-- The handles that were made. -/
def prepared (calls : Calls F) : List ℕ := calls.filterMap Call.prepared

/-- The handles that were finalised. -/
def finalized (calls : Calls F) : List (Option ℕ) := calls.filterMap Call.finalized

@[simp] theorem prepared_append (past calls : Calls F) :
    prepared (past ++ calls) = past.prepared ++ calls.prepared := List.filterMap_append

@[simp] theorem finalized_append (past calls : Calls F) :
    finalized (past ++ calls) = past.finalized ++ calls.finalized := List.filterMap_append

/-- **The call that may come next**, after the calls before it.

The conditions are those of the documentation: a statement is used while it is
prepared and not finalised, values are bound before it is stepped, and columns
are read at a row. -/
structure May (past : Calls F) (c : Sqlite3 F) : Prop where
  /-- A statement is used if it was made and not finalised. -/
  live : ∀ pstmt, c.uses = some pstmt →
    ∃ stmt, pstmt = some stmt ∧ stmt ∈ past.prepared ∧ some stmt ∉ past.finalized
  /-- It is bound if no bind failed. -/
  bind : c.isBind → ∀ d ∈ past, ¬ d.BindFailed
  /-- It is stepped if nothing failed and each step had a row. -/
  step : c.isStep → ∀ d ∈ past, ¬ d.PrepareFailed ∧ ¬ d.BindFailed ∧ ¬ d.StepEnded
  /-- It is read if the last step, after which only columns were read, had a
  row. -/
  column : c.isColumn → ∃ pstmt before d reads, c.uses = some pstmt
    ∧ past = before ++ d :: reads ∧ d.HasRow pstmt ∧ ∀ e ∈ reads, e.cmd.isColumn

/-- **Every call is one that may come next.** -/
def Careful (calls : Calls F) : Prop :=
  ∀ before d after, calls = before ++ d :: after → May before d.cmd

/-- **Every handle that was made was finalised exactly once**, and no other
was.

A null pointer may be finalised, which does nothing, and is not counted. -/
structure Released (calls : Calls F) : Prop where
  /-- Each is finalised once. -/
  once : ∀ stmt ∈ calls.prepared, calls.finalized.count (some stmt) = 1
  /-- Nothing else is. -/
  only : ∀ pstmt ∈ calls.finalized, ∃ stmt ∈ calls.prepared, pstmt = some stmt

end Calls

/-- **The answers the interface may give**: a handle with `SQLITE_OK` and a null
pointer with any other code, a text that is not a null pointer, and any code
or value elsewhere.

Without this a healthy program could be shown to leak, by an interface that
makes a handle and reports an error. -/
def Outcome : (c : Sqlite3 F) → c.Resp → Prop
  | .prepareV2 _, r => r.1 = SQLITE_OK ↔ r.2 ≠ none
  | .columnText _ _, text => text ≠ none
  | _, _ => True

/-- The interface that answers so. -/
def outcomes : Handler Unit (Sqlite3 F) Sqlite3.Resp := fun _ c r _ => Outcome c r

/-! ## What is known of a handle

Three assertions, each stronger than the one before: it is there, it may be bound and
stepped, it may be read. -/

namespace Calls

variable {past : Calls F} {pstmt : Option ℕ} {stmt : ℕ} {c : Sqlite3 F}

/-- A handle, or a null pointer, that was made and not finalised. -/
structure Held (pstmt : Option ℕ) (past : Calls F) : Prop where
  /-- It is all that was made. -/
  prepared : past.prepared = pstmt.toList
  /-- Nothing was finalised. -/
  finalized : past.finalized = []

/-- A statement that may be bound and stepped. -/
structure Usable (stmt : ℕ) (past : Calls F) : Prop extends Held (some stmt) past where
  /-- No call has failed or ended the statement. -/
  fine : ∀ d ∈ past, ¬ d.PrepareFailed ∧ ¬ d.BindFailed ∧ ¬ d.StepEnded

/-- A statement that may be read. -/
structure AtRow (stmt : ℕ) (past : Calls F) : Prop extends Usable stmt past where
  /-- Its last step has delivered a row, and only columns were read since. -/
  row : ∃ before d reads, past = before ++ d :: reads ∧ d.HasRow (some stmt)
    ∧ ∀ e ∈ reads, e.cmd.isColumn

/-- A call that uses a handle makes none and finalises none. -/
theorem Held.append (h : Held pstmt past) {used : Option ℕ} (hc : c.uses = some used)
    (r : c.Resp) : Held pstmt (past ++ [⟨c, r⟩]) := by
  refine ⟨?_, ?_⟩
  · rw [prepared_append, h.prepared]
    cases c <;> first | exact List.append_nil _ | cases hc
  · rw [finalized_append, h.finalized]
    cases c <;> first | rfl | cases hc

/-- A handle that is held is released by being finalised. -/
theorem Held.released (h : Held (some stmt) past) (r : ℕ) :
    Released (past ++ [⟨.finalize (some stmt), r⟩]) := by
  have hprepared : Calls.prepared (past ++ [⟨.finalize (some stmt), r⟩]) = [stmt] := by
    rw [prepared_append, h.prepared]
    rfl
  have hfinalized : Calls.finalized (past ++ [⟨.finalize (some stmt), r⟩]) = [some stmt] := by
    rw [finalized_append, h.finalized]
    rfl
  refine ⟨fun stmt' hstmt => ?_, fun pstmt hpstmt => ⟨stmt, ?_, ?_⟩⟩
  · rw [hprepared, List.mem_singleton] at hstmt
    rw [hfinalized, hstmt, List.count_singleton_self]
  · rw [hprepared]
    exact List.mem_singleton_self stmt
  · rw [hfinalized] at hpstmt
    exact List.mem_singleton.mp hpstmt

/-- A null pointer needs no release. -/
theorem Held.released_none (h : Held none past) : Released past := by
  refine ⟨fun stmt hstmt => ?_, fun pstmt hpstmt => ?_⟩
  · rw [h.prepared] at hstmt
    cases hstmt
  · rw [h.finalized] at hpstmt
    cases hpstmt

theorem Usable.append (h : Usable stmt past) {used : Option ℕ} (hc : c.uses = some used)
    {r : c.Resp} (hfine : ¬ (⟨c, r⟩ : Call _ _).PrepareFailed
      ∧ ¬ (⟨c, r⟩ : Call _ _).BindFailed ∧ ¬ (⟨c, r⟩ : Call _ _).StepEnded) :
    Usable stmt (past ++ [⟨c, r⟩]) :=
  ⟨h.toHeld.append hc r, List.forall_mem_append.mpr ⟨h.fine, List.forall_mem_singleton.mpr hfine⟩⟩

theorem Usable.live (h : Usable stmt past) :
    stmt ∈ past.prepared ∧ some stmt ∉ past.finalized := by
  rw [h.prepared, h.finalized]
  exact ⟨List.mem_singleton_self stmt, List.not_mem_nil⟩

/-- A usable statement may be bound and stepped. -/
theorem Usable.may (h : Usable stmt past) (hc : c.uses = some (some stmt))
    (hcolumn : c.isColumn = false) : May past c where
  live pstmt hpstmt := by
    rw [hc] at hpstmt
    exact ⟨stmt, (Option.some.inj hpstmt).symm, h.live⟩
  bind _ d hd := (h.fine d hd).2.1
  step _ := h.fine
  column hread := by
    rw [hcolumn] at hread
    cases hread

/-- A statement at a row may be read, and is still there. -/
theorem AtRow.may (h : AtRow stmt past) (hc : c.uses = some (some stmt)) : May past c where
  live pstmt hpstmt := by
    rw [hc] at hpstmt
    exact ⟨stmt, (Option.some.inj hpstmt).symm, h.live⟩
  bind _ d hd := (h.fine d hd).2.1
  step _ := h.fine
  column _ := by
    obtain ⟨before, d, reads, hpast, hd, hreads⟩ := h.row
    exact ⟨some stmt, before, d, reads, hc, hpast, hd, hreads⟩

theorem AtRow.append (h : AtRow stmt past) (hc : c.uses = some (some stmt))
    (hcolumn : c.isColumn = true) (r : c.Resp) : AtRow stmt (past ++ [⟨c, r⟩]) := by
  obtain ⟨before, d, reads, hpast, hd, hreads⟩ := h.row
  refine ⟨h.toUsable.append hc ?_, before, d, reads ++ [⟨c, r⟩], ?_, hd,
    List.forall_mem_append.mpr ⟨hreads, List.forall_mem_singleton.mpr hcolumn⟩⟩
  · cases c <;> first | exact ⟨id, id, id⟩ | cases hcolumn
  · rw [hpast, List.append_assoc]
    rfl

end Calls

/-! ## The pieces of the methods

Each piece is followed once, with the assertion it needs and the one it leaves. An
exception leaves the weakest one. -/

section Methods

open Calls

variable {past : Calls F} {pstmt : Option ℕ} {stmt : ℕ} {α β : Type}

/-- What a `try` block ends with: if it throws, it is an exception the `catch`
block sees, and the handle is still held.

A `nullString` would pass the `catch` block, and the handle would be lost. It
cannot come up, because the interface answers no null text here. -/
def Ends (pstmt : Option ℕ) (P : α → Calls F → Prop) : Except Exc α → Calls F → Prop
  | .ok a, past => P a past
  | .error ex, past => Held pstmt past ∧ ex ≠ .nullString

/-- A piece of a `try` block. -/
abbrev Piece (pstmt : Option ℕ) (P : α → Calls F → Prop) (p : Api F α) (past : Calls F) :
    Prop :=
  p.Guarded May Outcome (Ends pstmt P) past

theorem Piece.bind {P : α → Calls F → Prop} {Q : β → Calls F → Prop} {p : Api F α}
    {f : α → Api F β} (hp : Piece pstmt P p past)
    (hf : ∀ a past, P a past → Piece pstmt Q (f a) past) : Piece pstmt Q (p.bind f) past :=
  Prog.Guarded.bind hp hf fun _ _ h => h

/-- A value is bound, and the result code is checked. -/
theorem bindValue_piece (h : Usable stmt past) (index : ℕ) (v : DBVariants F) :
    Piece (some stmt) (fun _ => Usable stmt)
      ((SQLite.bindValue (some stmt) index v).bind SQLite.checkBind) past := by
  have hcheck : ∀ (c : Sqlite3 F) (r : c.Resp) (res : ℕ), c.uses = some (some stmt) →
      (res = SQLITE_OK → ¬ (⟨c, r⟩ : Call _ _).PrepareFailed
        ∧ ¬ (⟨c, r⟩ : Call _ _).BindFailed ∧ ¬ (⟨c, r⟩ : Call _ _).StepEnded) →
      Piece (some stmt) (fun _ => Usable stmt) (SQLite.checkBind res : Api F Unit)
        (past ++ [⟨c, r⟩]) := by
    intro c r res hc hok
    unfold SQLite.checkBind
    split_ifs with hres
    · exact ⟨h.toHeld.append hc r, nofun⟩
    · exact h.append hc (hok (not_not.mp hres))
  cases v with
  | string s =>
    exact ⟨h.may rfl rfl, fun r _ => hcheck _ r r rfl fun hr => ⟨id, not_not_intro hr, id⟩⟩
  | int64 n =>
    exact ⟨h.may rfl rfl, fun r _ => hcheck _ r r rfl fun hr => ⟨id, not_not_intro hr, id⟩⟩
  | double x =>
    exact ⟨h.may rfl rfl, fun r _ => hcheck _ r r rfl fun hr => ⟨id, not_not_intro hr, id⟩⟩

/-- The bind loop of `insertOne`. -/
theorem bindValues_piece (h : Usable stmt past) (index : ℕ) (tableValues : List (TableValue F)) :
    Piece (some stmt) (fun _ => Usable stmt)
      (SQLite.bindValues (some stmt) index tableValues) past := by
  induction tableValues generalizing index past with
  | nil => exact h
  | cons tableValue rest ih =>
    have hpiece := Piece.bind (bindValue_piece h index tableValue.value)
      (f := fun _ => SQLite.bindValues (some stmt) (index + 1) rest)
      fun _ past hpast => ih hpast (index + 1)
    rw [Prog.bind_assoc] at hpiece
    exact hpiece

/-- The bind of the WHERE clause. -/
theorem bindWhere_piece (h : Usable stmt past) (w : Option (WhereClause F)) :
    Piece (some stmt) (fun _ => Usable stmt) (SQLite.bindWhere (some stmt) w) past := by
  cases w with
  | none => exact h
  | some w => exact bindValue_piece h 1 w.tableValue.value

/-- A column is read at a row. -/
theorem readColumn_piece (h : AtRow stmt past) (i : ℕ) (tableColumn : TableColumn) :
    Piece (some stmt) (fun _ => AtRow stmt)
      (SQLite.readColumn (some stmt) i tableColumn : Api F (TableValue F)) past := by
  unfold SQLite.readColumn
  cases tableColumn.type with
  | CT_INTEGER => exact ⟨h.may rfl, fun n _ => h.append rfl rfl n⟩
  | CT_REAL => exact ⟨h.may rfl, fun x _ => h.append rfl rfl x⟩
  | CT_TEXT =>
    refine ⟨h.may rfl, fun text htext => ?_⟩
    cases text with
    | none => exact absurd rfl htext
    | some s => exact AtRow.append (c := .columnText (some stmt) i) h rfl rfl (some s)

/-- So are the columns of a row. -/
theorem readRow_piece (h : AtRow stmt past) (i : ℕ) (tableColumns : List TableColumn) :
    Piece (some stmt) (fun _ => AtRow stmt)
      (SQLite.readRow (some stmt) i tableColumns : Api F (List (TableValue F))) past := by
  induction tableColumns generalizing i past with
  | nil => exact h
  | cons tableColumn rest ih =>
    exact Piece.bind (readColumn_piece h i tableColumn) fun _ past hpast =>
      Piece.bind (ih hpast (i + 1)) fun _ past hpast => hpast

/-- The fetch loop. Whatever ends it, the handle is still held. -/
theorem fetchRows_piece (h : Usable stmt past) (tableColumns : List TableColumn)
    (rowCount : ℕ) (rows : List (List (TableValue F))) :
    Piece (some stmt) (fun _ past => Held (some stmt) past ∧ some stmt ≠ none)
      (SQLite.fetchRows (some stmt) tableColumns rowCount rows) past := by
  induction rowCount generalizing rows past with
  | zero => exact ⟨h.toHeld, nofun⟩
  | succ rowCount ih =>
    refine ⟨h.may rfl rfl, fun res _ => ?_⟩
    show Piece _ _ (if res = SQLITE_ROW then _ else _) _
    split_ifs with hrow
    · -- the step has a row, which is read before the next
      have hat : AtRow stmt (past ++ [⟨.step (some stmt), res⟩]) :=
        ⟨h.append rfl ⟨id, id, not_not_intro hrow⟩, past, _, [], rfl, ⟨rfl, hrow⟩,
          List.forall_mem_nil _⟩
      exact Piece.bind (readRow_piece hat 0 tableColumns) fun row past hpast =>
        ih hpast.toUsable (rows ++ [row])
    · exact ⟨h.toHeld.append rfl res, nofun⟩

/-- Finalising what is held. -/
theorem finalize_piece {Q : Except Exc β → Calls F → Prop} {p : Api F β}
    (h : Held (some stmt) past)
    (hp : ∀ past, Released past → p.Guarded May Outcome Q past) :
    ((Prog.perform (.finalize (some stmt))).bind fun _ => p).Guarded May Outcome Q past :=
  ⟨⟨nofun, nofun, nofun, nofun⟩, fun r _ => hp _ (h.released r)⟩

/-- **The two places that finalise**: past a `try` block that ends as it should
the handle has been finalised once, on every path.

The shape is the same in both methods: finalise and rethrow on the one path,
finalise on the other. The proof uses that a path goes through exactly one of
them. -/
theorem catch_released {body : Api F α} {g : Exc → Exc} {x : α → β}
    (hbody : Piece pstmt (fun _ past => Held pstmt past ∧ pstmt ≠ none) body past) :
    ((body.catchStd fun ex => (SQLite.release pstmt).bind fun _ => .throw (g ex)).bind
      fun a => (Prog.perform (.finalize pstmt)).bind fun _ => .ret (x a)).Guarded
      May Outcome (fun _ => Released) past := by
  have hcatch : (body.catchStd fun ex => (SQLite.release pstmt).bind fun _ =>
      .throw (g ex)).Guarded May Outcome
      (fun r past => match r with
        | .ok _ => Held pstmt past ∧ pstmt ≠ none
        | .error _ => Released past) past := by
    refine Prog.Guarded.tryCatch hbody (fun _ _ h => h) fun ex past h => ?_
    have hrelease : ((SQLite.release pstmt).bind fun _ => (.throw (g ex) : Api F α)).Guarded
        May Outcome (fun r past => match r with
          | .ok _ => Held pstmt past ∧ pstmt ≠ none
          | .error _ => Released past) past := by
      cases pstmt with
      | none => exact h.1.released_none
      | some stmt => exact finalize_piece h.1 fun _ hreleased => hreleased
    cases ex with
    | nullString => exact absurd rfl h.2
    | _ => exact hrelease
  refine Prog.Guarded.bind hcatch (fun a past h => ?_) (fun _ _ h => h)
  obtain ⟨hheld, hsome⟩ := h
  obtain ⟨stmt, rfl⟩ := Option.ne_none_iff_exists'.mp hsome
  exact finalize_piece hheld fun _ hreleased => hreleased

/-! ## The methods

`selectOne` is `selectMany` for one row, and `createTable` makes no handle. -/

/-- A statement that has been prepared is held, and usable if there is one. -/
theorem prepared_held (sql : String) {r : ℕ × Option ℕ} (hr : r.1 = SQLITE_OK ↔ r.2 ≠ none) :
    Held r.2 ([⟨.prepareV2 sql, r⟩] : Calls F)
      ∧ (r.1 = SQLITE_OK → ∃ stmt, r.2 = some stmt
        ∧ Usable stmt ([⟨.prepareV2 sql, r⟩] : Calls F)) := by
  obtain ⟨res, pstmt⟩ := r
  have hheld : Held pstmt ([⟨.prepareV2 sql, (res, pstmt)⟩] : Calls F) := by
    cases pstmt <;> exact ⟨rfl, rfl⟩
  refine ⟨hheld, fun hres => ?_⟩
  obtain ⟨stmt, rfl⟩ := Option.ne_none_iff_exists'.mp (hr.mp hres)
  exact ⟨stmt, rfl, hheld, List.forall_mem_singleton.mpr ⟨not_not_intro hres, id, id⟩⟩

theorem insertOne_guarded (tableName : String) (tableValues : List (TableValue F)) :
    (SQLite.insertOne tableName tableValues).Guarded May Outcome (fun _ => Released) [] := by
  unfold SQLite.insertOne
  split_ifs
  · exact Held.released_none ⟨rfl, rfl⟩
  · refine ⟨⟨nofun, nofun, nofun, nofun⟩, fun r hr => catch_released (x := fun _ => ()) ?_⟩
    obtain ⟨hheld, husable⟩ := prepared_held (F := F) (SQLite.insertQuery tableName tableValues) hr
    unfold SQLite.insertBody
    split_ifs with hres
    · exact ⟨hheld, nofun⟩
    · obtain ⟨stmt, hstmt, husable⟩ := husable (not_not.mp hres)
      rw [hstmt]
      refine Piece.bind (bindValues_piece husable 1 tableValues) fun _ past hpast => ?_
      refine ⟨hpast.may rfl rfl, fun res _ => ?_⟩
      have hheld : Held (some stmt) (past ++ [⟨.step (some stmt), res⟩]) :=
        hpast.toHeld.append rfl res
      show Piece _ _ (if res ≠ SQLITE_DONE then _ else _) _
      split_ifs
      · exact ⟨hheld, nofun⟩
      · exact ⟨hheld, nofun⟩

theorem selectMany_guarded (tableName : String) (tableColumns : List TableColumn)
    (w : Option (WhereClause F)) (o : Option OrderByClause) (rowCount : ℕ) :
    (SQLite.selectMany tableName tableColumns w o rowCount).Guarded May Outcome
      (fun _ => Released) [] := by
  unfold SQLite.selectMany
  split_ifs
  · exact Held.released_none ⟨rfl, rfl⟩
  · refine ⟨⟨nofun, nofun, nofun, nofun⟩, fun r hr => catch_released (g := id) (x := id) ?_⟩
    obtain ⟨hheld, husable⟩ := prepared_held (F := F)
      (SQLite.selectQuery tableName tableColumns w o) hr
    unfold SQLite.selectBody
    split_ifs with hres
    · exact ⟨hheld, nofun⟩
    · obtain ⟨stmt, hstmt, husable⟩ := husable (not_not.mp hres)
      rw [hstmt]
      exact Piece.bind (bindWhere_piece husable w) fun _ past hpast =>
        fetchRows_piece hpast tableColumns rowCount []

/-- **Statement handles are used and released correctly on every path.** For all
arguments and over every sequence of answers, wherever `insertOne` or
`selectMany` is: every call it has made is one that may come next after those
before it; and when it has returned or thrown, every handle that was made has
been finalised, once.

It is said of every moment of the run: careful all along, and at the end
nothing is left. -/
theorem statements_released :
    (∀ (tableName : String) (tableValues : List (TableValue F))
        (es : List (Event Unit (Sqlite3 F) Sqlite3.Resp)) (q : Api F Unit),
      Steps outcomes Eq (SQLite.insertOne tableName tableValues) () es q () →
      Careful (es.map Event.call)
        ∧ ((∀ c k, q ≠ .call c k) → Released (es.map Event.call)))
    ∧ ∀ (tableName : String) (tableColumns : List TableColumn) (w : Option (WhereClause F))
        (o : Option OrderByClause) (rowCount : ℕ)
        (es : List (Event Unit (Sqlite3 F) Sqlite3.Resp))
        (q : Api F (List (List (TableValue F)))),
      Steps outcomes Eq (SQLite.selectMany tableName tableColumns w o rowCount) () es q () →
      Careful (es.map Event.call)
        ∧ ((∀ c k, q ≠ .call c k) → Released (es.map Event.call)) := by
  have hend : ∀ {α : Type} {q : Api F α} {calls : Calls F}, (∀ c k, q ≠ .call c k) →
      q.Guarded May Outcome (fun _ => Released) calls → Released calls := by
    intro α q calls hq hguarded
    cases q with
    | ret a => exact hguarded
    | throw ex => exact hguarded
    | call c k => exact absurd rfl (hq c k)
  refine ⟨fun tableName tableValues es q h => ?_,
    fun tableName tableColumns w o rowCount es q h => ?_⟩
  · obtain ⟨hmay, hq⟩ := h.guarded (fun _ _ _ _ h => h) (insertOne_guarded tableName tableValues)
    exact ⟨hmay, fun hdone => hend hdone hq⟩
  · obtain ⟨hmay, hq⟩ := h.guarded (fun _ _ _ _ h => h)
      (selectMany_guarded tableName tableColumns w o rowCount)
    exact ⟨hmay, fun hdone => hend hdone hq⟩

/-- In particular when a scan fails after its first row. -/
theorem statements_released_interrupted :
    ∃ (sql : String) (es : List (Event Unit (Sqlite3 ℚ) Sqlite3.Resp)),
      es.map Event.call = [⟨.prepareV2 sql, (SQLITE_OK, some 7)⟩,
        ⟨.step (some 7), SQLITE_ROW⟩, ⟨.columnInt64 (some 7) 0, (1 : Int)⟩,
        ⟨.step (some 7), (5 : ℕ)⟩, ⟨.finalize (some 7), SQLITE_OK⟩]
      ∧ Careful (es.map Event.call) ∧ Released (es.map Event.call) := by
  have hrun : Steps outcomes Eq (SQLite.selectMany "clients"
        [⟨"id", .CT_INTEGER, true, false, true⟩] none none 2 : Api ℚ _) ()
      [⟨(), .prepareV2 (SQLite.selectQuery "clients" [⟨"id", .CT_INTEGER, true, false, true⟩]
          (none : Option (WhereClause ℚ)) none), (SQLITE_OK, some 7), ()⟩,
        ⟨(), .step (some 7), SQLITE_ROW, ()⟩, ⟨(), .columnInt64 (some 7) 0, (1 : Int), ()⟩,
        ⟨(), .step (some 7), (5 : ℕ), ()⟩,
        ⟨(), .finalize (some 7), SQLITE_OK, ()⟩]
      (.ret [[⟨"id", .int64 1⟩]]) () := by
    unfold SQLite.selectMany
    rw [if_neg (by decide)]
    exact .own rfl (iff_of_true rfl nofun) (.own rfl trivial (.own rfl trivial
      (.own rfl trivial (.own rfl trivial (.done rfl)))))
  obtain ⟨hcareful, hreleased⟩ := statements_released.2 _ _ _ _ _ _ _ hrun
  exact ⟨_, _, rfl, hcareful, hreleased nofun⟩

end Methods
