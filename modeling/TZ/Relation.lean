import TZ.Engine
import TZ.Names

/-!
# Typed relations

What the wrapper is for: a table is a relation whose rows have one value for
each column, of the type the column declares, and a caller thinks of its
columns by name. `Record` is such a row, and it cannot be built with a value of
another type. A WHERE accepts some records, an ORDER BY puts them in order, and
a list of requested columns makes a row of results of each.

Nothing here knows of a statement, a placeholder or a cell's position. That the
methods of the wrapper do to a table what is said here of a relation is
`TZ.Refinement`.

A value is bound and read as a C string, so of a string only the part before its
first NUL byte counts (`DBVariants.shown`). A NaN is a value a caller may pass,
but no value that a relation holds: SQLite keeps it as `NULL`.
-/

open SqlText

variable {F : Type} [Double F]

/-! ## Values -/

/-- **The doubles that are no NaN are ordered.** -/
structure Double.Ordered (F : Type) [Double F] : Prop where
  /-- Swapping two doubles swaps their order. -/
  swap : ∀ {x y : F}, Double.isNaN x = false → Double.isNaN y = false →
    Double.cmp x y = (Double.cmp y x).swap
  /-- Not being larger is transitive. -/
  isLE_trans : ∀ {x y z : F}, Double.isNaN x = false → Double.isNaN y = false →
    Double.isNaN z = false → (Double.cmp x y).isLE = true → (Double.cmp y z).isLE = true →
    (Double.cmp x z).isLE = true

/-- The rationals are. -/
theorem Double.ordered_rat : Double.Ordered ℚ where
  swap {x y} _ _ := show compare x y = (compare y x).swap from Std.OrientedCmp.eq_swap
  isLE_trans {x y z} _ _ _ h h' :=
    show (compare x z).isLE = true from Std.TransCmp.isLE_trans (b := y) h h'

namespace DBVariants

omit [Double F] in
/-- The type that declares the alternative of a value. -/
def columnType : DBVariants F → ColumnType
  | .string _ => .CT_TEXT
  | .int64 _ => .CT_INTEGER
  | .double _ => .CT_REAL

/-- Whether a value is a NaN. -/
def isNaN : DBVariants F → Bool
  | .double x => Double.isNaN x
  | _ => false

/-- What a C string shows of a value: of a string, the part before its first
NUL byte. -/
def shown : DBVariants F → DBVariants F
  | .string s => .string (cstr s)
  | v => v

/-- The order of two values of one type. -/
def compare : DBVariants F → DBVariants F → Ordering
  | .string s, .string t => compareOfLessAndEq s t
  | .int64 m, .int64 n => Ord.compare m n
  | .double x, .double y => Double.cmp x y
  | _, _ => .eq

omit [Double F] in
@[simp] theorem columnType_shown (v : DBVariants F) : v.shown.columnType = v.columnType := by
  cases v <;> rfl

@[simp] theorem isNaN_shown (v : DBVariants F) : v.shown.isNaN = v.isNaN := by
  cases v <;> rfl

theorem compare_swap (hF : Double.Ordered F) {v w : DBVariants F} (hv : v.isNaN = false)
    (hw : w.isNaN = false) : v.compare w = (w.compare v).swap :=
  match v, w with
  | .string _, .string _ =>
    compareOfLessAndEq_eq_swap (fun h h' => List.le_antisymm h h')
      (fun s t => List.le_total s t) List.not_le
  | .int64 m, .int64 n =>
    show Ord.compare m n = (Ord.compare n m).swap from Std.OrientedCmp.eq_swap
  | .double _, .double _ => hF.swap hv hw
  | .string _, .int64 _ => rfl
  | .string _, .double _ => rfl
  | .int64 _, .string _ => rfl
  | .int64 _, .double _ => rfl
  | .double _, .string _ => rfl
  | .double _, .int64 _ => rfl

/-- Texts are compared as lists. -/
theorem isLE_compareOfLessAndEq_iff {s t : Bytes} :
    (compareOfLessAndEq s t).isLE = true ↔ s ≤ t :=
  isLE_compareOfLessAndEq (fun h h' => List.le_antisymm h h') List.not_le
    (fun s t => List.le_total s t)

theorem compare_isLE_trans (hF : Double.Ordered F) {u v w : DBVariants F}
    (huv : u.columnType = v.columnType) (hvw : v.columnType = w.columnType)
    (hu : u.isNaN = false) (hv : v.isNaN = false) (hw : w.isNaN = false)
    (h : (u.compare v).isLE = true) (h' : (v.compare w).isLE = true) :
    (u.compare w).isLE = true :=
  match u, v, w with
  | .string s, .string t, .string r => by
    have hst : s ≤ t := isLE_compareOfLessAndEq_iff.mp h
    have htr : t ≤ r := isLE_compareOfLessAndEq_iff.mp h'
    exact isLE_compareOfLessAndEq_iff.mpr (List.le_trans hst htr)
  | .int64 l, .int64 m, .int64 n =>
    show (Ord.compare l n).isLE = true from Std.TransCmp.isLE_trans (b := m) h h'
  | .double _, .double _, .double _ => hF.isLE_trans hu hv hw h h'

end DBVariants

/-! ## Records -/

/-- **A record over the columns of a table**: a value of each column's declared
type. -/
structure Record (F : Type) [Double F] (tableColumns : List TableColumn) where
  /-- The values, in the order of the columns. -/
  values : List (DBVariants F)
  /-- Each has the type of its column, and none is a NaN. -/
  typed : List.Forall₂ (fun (c : TableColumn) v => v.columnType = c.type ∧ v.isNaN = false)
    tableColumns values

/-- **A typed relation**: records, in the order in which they were inserted. -/
abbrev TypedRelation (F : Type) [Double F] (tableColumns : List TableColumn) :=
  List (Record F tableColumns)

/-- A column of this name and this type is declared. -/
def Declares (tableColumns : List TableColumn) (name : String) (type : ColumnType) : Prop :=
  ∃ c ∈ tableColumns, sameWord c.name name = true ∧ c.type = type

variable {tableColumns : List TableColumn}

namespace Record

/-- The position of a column. -/
def position (tableColumns : List TableColumn) (name : String) : ℕ :=
  tableColumns.findIdx (fun c => sameWord c.name name)

/-- **The value of a column**, which is asked for by its name. -/
def get (r : Record F tableColumns) (name : String) : DBVariants F :=
  r.values.getD (position tableColumns name) (.int64 0)

/-- The row of results for a list of requested columns. -/
def row (r : Record F tableColumns) (requested : List TableColumn) : List (TableValue F) :=
  requested.map fun c => ⟨c.name, (r.get c.name).shown⟩

theorem length_values (r : Record F tableColumns) : r.values.length = tableColumns.length :=
  r.typed.length_eq.symm

theorem position_lt {name : String} {type : ColumnType} (h : Declares tableColumns name type) :
    position tableColumns name < tableColumns.length := by
  obtain ⟨c, hc, hname, -⟩ := h
  exact List.findIdx_lt_length_of_exists ⟨c, hc, hname⟩

/-- The column of a name that is declared, at its position. -/
theorem column_position {name : String} {type : ColumnType}
    (hdistinct : Distinct TableColumn.name tableColumns)
    (h : Declares tableColumns name type) :
    ∃ c, tableColumns[position tableColumns name]? = some c ∧ sameWord c.name name = true
      ∧ c.type = type := by
  have hlt := position_lt h
  obtain ⟨c, hc, hname, htype⟩ := h
  have hfound : sameWord tableColumns[position tableColumns name].name name = true :=
    List.findIdx_getElem (p := fun c : TableColumn => sameWord c.name name)
  have heq : tableColumns[position tableColumns name] = c :=
    hdistinct.eq_of_sameWord (List.getElem_mem hlt) hc
      (sameWord_trans hfound (sameWord_symm hname))
  exact ⟨c, by rw [List.getElem?_eq_getElem hlt, heq], hname, htype⟩

/-- **The value of a column has the type it declares.** -/
theorem get_typed {name : String} {type : ColumnType}
    (hdistinct : Distinct TableColumn.name tableColumns)
    (h : Declares tableColumns name type) (r : Record F tableColumns) :
    (r.get name).columnType = type ∧ (r.get name).isNaN = false := by
  have hlt := position_lt h
  have hlt' : position tableColumns name < r.values.length := by rwa [r.length_values]
  have hget : r.get name = r.values[position tableColumns name] := by
    unfold get
    rw [List.getD_eq_getElem?_getD, List.getElem?_eq_getElem hlt', Option.getD_some]
  obtain ⟨c, hc, -, htype⟩ := column_position hdistinct h
  obtain ⟨hvalue, hnan⟩ := r.typed.get hlt hlt'
  rw [List.get_eq_getElem, List.get_eq_getElem,
    (List.getElem?_eq_some_iff.mp hc).choose_spec] at hvalue
  rw [hget]
  exact ⟨hvalue.trans htype, hnan⟩

end Record

/-! ## Queries -/

/-- **Whether a record satisfies a WHERE.** No value compares with a NaN. -/
def WhereClause.accepts (w : WhereClause F) (r : Record F tableColumns) : Bool :=
  !w.tableValue.value.isNaN
    && w.type.holds ((r.get w.tableValue.columnName).compare w.tableValue.value.shown)

/-- **Whether an ORDER BY lets a record stand before another.** -/
def OrderByClause.allows (o : OrderByClause) (r r' : Record F tableColumns) : Bool :=
  match o.order with
  | .SO_ASC => ((r.get o.columnName).compare (r'.get o.columnName)).isLE
  | .SO_DESC => ((r'.get o.columnName).compare (r.get o.columnName)).isLE

/-- **What a query may answer with**: the records of the relation that satisfy
its WHERE, in an order that its ORDER BY allows. -/
structure TypedRelation.Answers (R : TypedRelation F tableColumns) (w : Option (WhereClause F))
    (o : Option OrderByClause) (answer : TypedRelation F tableColumns) : Prop where
  /-- Each is answered as often as the relation holds it. -/
  perm : answer.Perm (R.filter fun r => w.all fun x => x.accepts r)
  /-- None stands before one that has to come first. -/
  ordered : ∀ x ∈ o, answer.Pairwise fun r r' => x.allows r r' = true

namespace OrderByClause

variable {o : OrderByClause}

theorem allows_trans (hF : Double.Ordered F) {type : ColumnType}
    (hdistinct : Distinct TableColumn.name tableColumns)
    (ho : Declares tableColumns o.columnName type) (r r' r'' : Record F tableColumns)
    (h : o.allows r r' = true) (h' : o.allows r' r'' = true) : o.allows r r'' = true := by
  obtain ⟨hr, hr₀⟩ := r.get_typed hdistinct ho
  obtain ⟨hr', hr'₀⟩ := r'.get_typed hdistinct ho
  obtain ⟨hr'', hr''₀⟩ := r''.get_typed hdistinct ho
  unfold allows at *
  cases horder : o.order with
  | SO_ASC =>
    rw [horder] at h h'
    exact DBVariants.compare_isLE_trans hF (hr.trans hr'.symm) (hr'.trans hr''.symm)
      hr₀ hr'₀ hr''₀ h h'
  | SO_DESC =>
    rw [horder] at h h'
    exact DBVariants.compare_isLE_trans hF (hr''.trans hr'.symm) (hr'.trans hr.symm)
      hr''₀ hr'₀ hr₀ h' h

theorem allows_total (hF : Double.Ordered F) {type : ColumnType}
    (hdistinct : Distinct TableColumn.name tableColumns)
    (ho : Declares tableColumns o.columnName type) (r r' : Record F tableColumns) :
    (o.allows r r' || o.allows r' r) = true := by
  have hswap := DBVariants.compare_swap hF (r.get_typed hdistinct ho).2
    (r'.get_typed hdistinct ho).2
  have htotal : ∀ c : Ordering, (c.swap.isLE || c.isLE) = true := by decide
  unfold allows
  cases o.order with
  | SO_ASC =>
    rw [hswap]
    exact htotal _
  | SO_DESC =>
    rw [hswap, Bool.or_comm]
    exact htotal _

/-- **Sorting makes an order that is allowed.** -/
theorem pairwise_mergeSort (hF : Double.Ordered F) {type : ColumnType}
    (hdistinct : Distinct TableColumn.name tableColumns)
    (ho : Declares tableColumns o.columnName type) (R : TypedRelation F tableColumns) :
    (R.mergeSort o.allows).Pairwise fun r r' => o.allows r r' = true :=
  List.pairwise_mergeSort (allows_trans hF hdistinct ho) (allows_total hF hdistinct ho) R

end OrderByClause
