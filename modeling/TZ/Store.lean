import Mathlib.Data.List.Nodup
import TZ.Server

/-!
# The store

What the two tables of the server are for: a list of clients, each with the
integer it was given, and a list of packets, each with the integer of its
client. `Store` is that, with the constraints of the tables as its fields,
and `Store.toDatabase` is the database file that holds it.

The server touches its database by five kinds of calls: it looks a client up
by its uuid, adds a client, adds a packet, lists the clients, and lists the
packets of a client. There is one lemma for each, saying all the call may do
to a store, whichever of the calls below it fail. Together they say that the
database of a server that has been set up always holds a store
(`Server.simulates_store`), so that the rest of the development never looks
at a table again.

A store cannot be built with two clients of one uuid, or with a NaN: the fields of
`Store` are what the constraints of the tables and the C interface rule out. So nothing
has to be proved about such states later, and each lemma about a call has to say once
that the new state is a store again.

The lemmas are in the form of what a handler may answer, and not of what a method
computes, since the same call has many outcomes: whatever may fail below it is left
open, and what is known is which outcomes are left. For each of the five calls the
outcome with a failure and the one without are in one statement, so that a caller who
assumes nothing fails just drops a case.
-/

open SqlText Server

namespace Server

/-! ## Names

The texts are built from names, and they are read back if the names are plain. Here it
is checked for the names in the source, once. -/

/-- The names of the tables are plain. -/
theorem plain_tables : Plain CLIENTS_TABLE_NAME ∧ Plain PACKETS_TABLE_NAME := by
  decide +kernel

/-- The names of the columns are plain. -/
theorem plain_columns : ∀ x ∈ clientsColumns ++ packetsColumns, Plain x.name := by
  decide +kernel

theorem plain_clientsColumns : ∀ x ∈ clientsColumns, Plain x.name :=
  fun x hx => plain_columns x (List.mem_append_left _ hx)

theorem plain_packetsColumns : ∀ x ∈ packetsColumns, Plain x.name :=
  fun x hx => plain_columns x (List.mem_append_right _ hx)

/-- The columns that are read are columns of the tables. -/
theorem plain_idColumns : ∀ x ∈ idColumns, Plain x.name := fun x hx =>
  plain_clientsColumns x (List.mem_of_mem_take (show x ∈ clientsColumns.take 1 from hx))

theorem plain_packetColumns : ∀ x ∈ packetColumns, Plain x.name := fun x hx =>
  plain_packetsColumns x (List.mem_of_mem_drop (show x ∈ packetsColumns.drop 2 from hx))

theorem plain_uuid : Plain CLIENTS_COLUMN_UUID :=
  plain_clientsColumns _ (List.mem_of_getElem? (show clientsColumns[1]? = some _ from rfl))

theorem plain_clientId : Plain PACKETS_COLUMN_CLIENT_ID :=
  plain_packetsColumns _ (List.mem_of_getElem? (show packetsColumns[1]? = some _ from rfl))

end Server

variable {F : Type} [Double F]

/-- A row of the `clients` table. -/
structure Client where
  /-- `id`. -/
  id : Int
  /-- `uuid`. -/
  uuid : Bytes
  deriving DecidableEq

/-- A row of the `packets` table. -/
structure Packet (F : Type) where
  /-- `id`. -/
  id : Int
  /-- `client_id`. -/
  clientId : Int
  /-- `timestamp`. -/
  timestamp : Int
  /-- `x`. -/
  x : F
  /-- `y`. -/
  y : F
  deriving DecidableEq

/-- **The contents of the two tables**, with what their constraints and the
conventions of the C interface impose.

Two conventions of the C interface are among the fields: a stored uuid has no
NUL byte, as it was bound without a length, and a stored coordinate is no NaN,
which would have been bound as `NULL`. -/
@[ext] structure Store (F : Type) [Double F] where
  /-- The rows of `clients`, in the order they were inserted. -/
  clients : List Client
  /-- The rows of `packets`, in the order they were inserted. -/
  packets : List (Packet F)
  /-- `id` is the primary key of `clients`. -/
  ids_nodup : (clients.map Client.id).Nodup
  /-- `uuid` is unique. -/
  uuids_nodup : (clients.map Client.uuid).Nodup
  /-- A bound text ends at its first NUL byte. -/
  uuids_plain : ∀ c ∈ clients, (0 : UInt8) ∉ c.uuid
  /-- `id` is the primary key of `packets`. -/
  packetIds_nodup : (packets.map Packet.id).Nodup
  /-- A NaN is bound as `NULL`, which the columns reject. -/
  finite : ∀ p ∈ packets, Double.isNaN p.x = false ∧ Double.isNaN p.y = false

/-! ## Rows

Clients and packets are structures here and lists of cells there. The functions back
are total, which is enough, because they are only used on rows that come from a store. -/

/-- The cells of a client. -/
def Client.cells (c : Client) : List (Cell F) := [.integer c.id, .text c.uuid]

/-- The client of a row. -/
def Client.ofCells : List (Cell F) → Client
  | [.integer id, .text uuid] => ⟨id, uuid⟩
  | _ => ⟨0, []⟩

omit [Double F] in
@[simp] theorem Client.ofCells_cells (c : Client) :
    Client.ofCells (c.cells : List (Cell F)) = c := rfl

/-- The cells of a packet. -/
def Packet.cells (p : Packet F) : List (Cell F) :=
  [.integer p.id, .integer p.clientId, .integer p.timestamp, .real p.x, .real p.y]

/-- The packet of a row. -/
def Packet.ofCells : List (Cell F) → Packet F
  | [.integer id, .integer clientId, .integer timestamp, .real x, .real y] =>
    ⟨id, clientId, timestamp, x, y⟩
  | _ => ⟨0, 0, 0, Double.zero, Double.zero⟩

@[simp] theorem Packet.ofCells_cells (p : Packet F) : Packet.ofCells p.cells = p := rfl

namespace Store

/-- The `clients` table. -/
def clientsTable (clients : List Client) : Table F :=
  ⟨CLIENTS_TABLE_NAME, clientsColumns, clients.map Client.cells⟩

/-- The `packets` table. -/
def packetsTable (packets : List (Packet F)) : Table F :=
  ⟨PACKETS_TABLE_NAME, packetsColumns, packets.map Packet.cells⟩

/-- **The database that holds a store.** -/
def toDatabase (s : Store F) : Database F :=
  [clientsTable s.clients, packetsTable s.packets]

/-- The store of a server that was never used. -/
def empty : Store F := ⟨[], [], .nil, .nil, by simp, .nil, by simp⟩

variable (s : Store F)

omit [Double F] in
theorem tables_differ : sameWord CLIENTS_TABLE_NAME PACKETS_TABLE_NAME = false
    ∧ sameWord PACKETS_TABLE_NAME CLIENTS_TABLE_NAME = false := by
  decide

@[simp] theorem find_clients :
    s.toDatabase.find CLIENTS_TABLE_NAME = some (clientsTable s.clients) := by
  simp [Database.find, toDatabase, clientsTable]

@[simp] theorem find_packets :
    s.toDatabase.find PACKETS_TABLE_NAME = some (packetsTable s.packets) := by
  simp [Database.find, toDatabase, clientsTable, packetsTable, tables_differ.1]

omit [Double F] in
/-- The columns of the tables, by name. -/
theorem column_clients (clients : List Client) :
    (clientsTable clients : Table F).column CLIENTS_COLUMN_ID
        = some ({ name := CLIENTS_COLUMN_ID, type := .CT_INTEGER, primaryKey := true }, 0)
      ∧ (clientsTable clients : Table F).column CLIENTS_COLUMN_UUID
        = some ({ name := CLIENTS_COLUMN_UUID, type := .CT_TEXT, unique := true }, 1) := by
  unfold clientsTable Table.column
  dsimp only
  decide

omit [Double F] in
theorem column_packets (packets : List (Packet F)) :
    (packetsTable packets).column PACKETS_COLUMN_CLIENT_ID
        = some ({ name := PACKETS_COLUMN_CLIENT_ID, type := .CT_INTEGER }, 1)
      ∧ (packetsTable packets).column PACKETS_COLUMN_TIMESTAMP
        = some ({ name := PACKETS_COLUMN_TIMESTAMP, type := .CT_INTEGER }, 2)
      ∧ (packetsTable packets).column PACKETS_COLUMN_X
        = some ({ name := PACKETS_COLUMN_X, type := .CT_REAL }, 3)
      ∧ (packetsTable packets).column PACKETS_COLUMN_Y
        = some ({ name := PACKETS_COLUMN_Y, type := .CT_REAL }, 4) := by
  unfold packetsTable Table.column
  dsimp only
  decide

/-- A store is determined by its database.

So a step over databases of stores is one over stores, and nothing is lost by
reading it so. -/
theorem toDatabase_injective : Function.Injective (toDatabase : Store F → Database F) := by
  intro s t h
  have hinj : ∀ {α β : Type} {f : α → β} {g : β → α}, (∀ a, g (f a) = a) →
      ∀ l l' : List α, l.map f = l'.map f → l = l' := by
    intro α β f g hfg l l' hl
    have := congrArg (List.map g) hl
    simpa [List.map_map, Function.comp_def, hfg] using this
  unfold toDatabase clientsTable packetsTable at h
  simp only [List.cons.injEq, Table.mk.injEq, true_and, and_true] at h
  exact Store.ext (hinj Client.ofCells_cells _ _ h.1) (hinj Packet.ofCells_cells _ _ h.2)

/-! ## What a SELECT reads

The engine visits the rows in an order of its own. What is listed is therefore known
up to a permutation, and for the lookup by uuid that is enough, as there is one such
row or none. -/

/-- The values read of a client. -/
def clientRow (c : Client) : List (TableValue F) :=
  [⟨CLIENTS_COLUMN_ID, .int64 c.id⟩, ⟨CLIENTS_COLUMN_UUID, .string c.uuid⟩]

/-- The id read of a client. -/
def idRow (c : Client) : List (TableValue F) := [⟨CLIENTS_COLUMN_ID, .int64 c.id⟩]

/-- The values read of a packet. -/
def packetRow (p : Packet F) : List (TableValue F) :=
  [⟨PACKETS_COLUMN_TIMESTAMP, .int64 p.timestamp⟩, ⟨PACKETS_COLUMN_X, .double p.x⟩,
    ⟨PACKETS_COLUMN_Y, .double p.y⟩]

variable (E : Engine F)

/-- The clients in the order a statement visits them. -/
def visitClients (stmt : Statement) : List Client :=
  (E.scan stmt (s.clients.map Client.cells)).map Client.ofCells

/-- The packets in the order a statement visits them. -/
def visitPackets (stmt : Statement) : List (Packet F) :=
  (E.scan stmt (s.packets.map Packet.cells)).map Packet.ofCells

/-- The statement that lists the clients. -/
def clientsStatement : Statement :=
  .select [CLIENTS_COLUMN_ID, CLIENTS_COLUMN_UUID] CLIENTS_TABLE_NAME none none

/-- The statement that looks a client up. -/
def lookupStatement : Statement :=
  .select [CLIENTS_COLUMN_ID] CLIENTS_TABLE_NAME
    (some (CLIENTS_COLUMN_UUID, .CT_EQUAL)) none

/-- The statement that lists the packets of a client. -/
def packetsStatement : Statement :=
  .select [PACKETS_COLUMN_TIMESTAMP, PACKETS_COLUMN_X, PACKETS_COLUMN_Y] PACKETS_TABLE_NAME
    (some (PACKETS_COLUMN_CLIENT_ID, .CT_EQUAL)) none

/-- The clients, as they are listed. -/
def listed : List Client := s.visitClients E clientsStatement

/-- The packets of a client, as they are listed. -/
def packetsOf (clientId : Int) : List (Packet F) :=
  (s.visitPackets E packetsStatement).filter (fun p => p.clientId = clientId)

theorem visitClients_perm (stmt : Statement) : (s.visitClients E stmt).Perm s.clients := by
  refine ((E.scan_perm stmt (s.clients.map Client.cells)).map Client.ofCells).trans ?_
  rw [List.map_map]
  exact .of_eq (List.map_id _)

theorem visitPackets_perm (stmt : Statement) : (s.visitPackets E stmt).Perm s.packets := by
  refine ((E.scan_perm stmt (s.packets.map Packet.cells)).map Packet.ofCells).trans ?_
  rw [List.map_map]
  exact .of_eq (List.map_id _)

/-- Every client is listed once. -/
theorem listed_perm : (s.listed E).Perm s.clients := s.visitClients_perm E _

/-- Every packet of a client is listed once. -/
theorem packetsOf_perm (clientId : Int) :
    (s.packetsOf E clientId).Perm (s.packets.filter (fun p => p.clientId = clientId)) :=
  (s.visitPackets_perm E _).filter _

omit [Double F] in
/-- A scan of rows that come from values visits such rows only.

The engine permutes rows without looking at what they stand for. -/
theorem scan_map {E : Engine F} {α : Type} {cells : α → List (Cell F)}
    {ofCells : List (Cell F) → α} (h : ∀ a, ofCells (cells a) = a) (stmt : Statement)
    (l : List α) :
    E.scan stmt (l.map cells) = ((E.scan stmt (l.map cells)).map ofCells).map cells := by
  rw [List.map_map]
  symm
  refine (List.map_congr_left (fun row hrow => ?_)).trans (List.map_id _)
  obtain ⟨a, -, rfl⟩ := List.mem_map.mp ((E.scan_perm stmt _).mem_iff.mp hrow)
  exact congrArg cells (h a)

theorem scan_clients (stmt : Statement) :
    E.scan stmt (s.clients.map Client.cells) = (s.visitClients E stmt).map Client.cells :=
  scan_map Client.ofCells_cells stmt s.clients

theorem scan_packets (stmt : Statement) :
    E.scan stmt (s.packets.map Packet.cells) = (s.visitPackets E stmt).map Packet.cells :=
  scan_map Packet.ofCells_cells stmt s.packets

omit [Double F] in
/-- Texts are equal when SQLite finds them so.

Texts are compared byte by byte, which is the default collation of a column. -/
theorem holds_text (s t : Bytes) :
    ComparisonType.CT_EQUAL.holds (E.cmp (.text s) (.text t)) = decide (s = t) := by
  rw [E.cmp_text, Bool.eq_iff_iff]
  unfold ComparisonType.holds compareOfLessAndEq
  by_cases hlt : s < t
  · have hne : s ≠ t := fun h => List.lt_irrefl t (h ▸ hlt)
    simp [hlt, hne]
  · by_cases heq : s = t
    · simp [heq]
    · simp [hlt, heq]

omit [Double F] in
/-- Integers are equal when SQLite finds them so. -/
theorem holds_integer (m n : Int) :
    ComparisonType.CT_EQUAL.holds (E.cmp (.integer m) (.integer n)) = decide (m = n) := by
  rw [E.cmp_integer, Bool.eq_iff_iff]
  simp [ComparisonType.holds]

/-- The result set of the list of clients. -/
theorem resultSet_clients :
    E.resultSet (clientsTable s.clients) [CLIENTS_COLUMN_ID, CLIENTS_COLUMN_UUID]
        none none .null
      = (s.listed E).map Client.cells := by
  show (E.scan clientsStatement (s.clients.map Client.cells)).map
    (Engine.project (clientsTable s.clients) _) = _
  rw [scan_clients, List.map_map]
  refine List.map_congr_left (fun c _ => ?_)
  obtain ⟨hid, huuid⟩ := column_clients (F := F) s.clients
  simp [Engine.project, hid, huuid, Client.cells, Cell.cellAt]

/-- The result set of the lookup of a client. -/
theorem resultSet_lookup (uuid : Bytes) :
    E.resultSet (clientsTable s.clients) [CLIENTS_COLUMN_ID]
        (some (CLIENTS_COLUMN_UUID, .CT_EQUAL)) none (.text uuid)
      = ((s.visitClients E lookupStatement).filter (fun c => c.uuid = uuid)).map
          (fun c => [.integer c.id]) := by
  show ((E.scan lookupStatement (s.clients.map Client.cells)).filter
    (E.satisfies (clientsTable s.clients) (CLIENTS_COLUMN_UUID, .CT_EQUAL) (.text uuid))).map
    (Engine.project (clientsTable s.clients) _) = _
  obtain ⟨hid, huuid⟩ := column_clients (F := F) s.clients
  rw [scan_clients, List.filter_map, List.map_map]
  refine (List.map_congr_left (fun c _ => ?_)).trans
    (congrArg _ (List.filter_congr (fun c _ => ?_)))
  · simp [Engine.project, hid, Client.cells, Cell.cellAt]
  · simp [Engine.satisfies, huuid, Client.cells, Cell.cellAt, E.affinity_text,
      holds_text]

/-- The result set of the list of the packets of a client. -/
theorem resultSet_packets (clientId : Int) :
    E.resultSet (packetsTable s.packets)
        [PACKETS_COLUMN_TIMESTAMP, PACKETS_COLUMN_X, PACKETS_COLUMN_Y]
        (some (PACKETS_COLUMN_CLIENT_ID, .CT_EQUAL)) none (.integer clientId)
      = (s.packetsOf E clientId).map
          (fun p => [.integer p.timestamp, .real p.x, .real p.y]) := by
  show ((E.scan packetsStatement (s.packets.map Packet.cells)).filter
    (E.satisfies (packetsTable s.packets) (PACKETS_COLUMN_CLIENT_ID, .CT_EQUAL)
      (.integer clientId))).map (Engine.project (packetsTable s.packets) _) = _
  obtain ⟨hclient, htime, hx, hy⟩ := column_packets s.packets
  rw [scan_packets, List.filter_map, List.map_map]
  refine (List.map_congr_left (fun p _ => ?_)).trans
    (congrArg _ (List.filter_congr (fun p _ => ?_)))
  · simp [Engine.project, htime, hx, hy, Packet.cells, Cell.cellAt]
  · simp [Engine.satisfies, hclient, Packet.cells, Cell.cellAt,
      E.affinity_integer, holds_integer]

/-! ## What an INSERT adds

The constraints of the source decide when a row is turned down: a uuid that is there,
or a `NULL` for a NaN. The new id is chosen by SQLite, and of it nothing is used but
that it is not in use. -/

/-- The client of a uuid. -/
def find (uuid : Bytes) : Option Client := s.clients.find? (fun c => c.uuid = uuid)

/-- A client has been added. -/
def AddsClient (s s' : Store F) (uuid : Bytes) : Prop :=
  ∃ id, s'.clients = s.clients ++ [⟨id, uuid⟩] ∧ s'.packets = s.packets

/-- A packet has been added. -/
def AddsPacket (s s' : Store F) (clientId : Int) (data : ClientPacket.Data F) : Prop :=
  ∃ id, s'.clients = s.clients
    ∧ s'.packets = s.packets ++ [⟨id, clientId, data.timestamp, data.x, data.y⟩]

theorem find_eq_none_iff {uuid : Bytes} :
    s.find uuid = none ↔ uuid ∉ s.clients.map Client.uuid := by
  simp [find, List.find?_eq_none]

theorem find_eq_some_iff {uuid : Bytes} {c : Client} :
    s.find uuid = some c ↔ c ∈ s.clients ∧ c.uuid = uuid := by
  constructor
  · intro h
    exact ⟨List.mem_of_find?_eq_some h, by simpa using List.find?_some h⟩
  · rintro ⟨hc, rfl⟩
    cases h : s.find c.uuid with
    | none =>
      exact absurd (List.mem_map_of_mem hc) ((find_eq_none_iff s).mp h)
    | some c' =>
      have hmem := List.mem_of_find?_eq_some h
      have huuid : c'.uuid = c.uuid := by simpa using List.find?_some h
      rw [List.inj_on_of_nodup_map s.uuids_nodup hmem hc huuid]

/-- The lookup of a client finds the one there is, in whatever order the
table is visited.

This is where `UNIQUE` is used for reading: without it the lookup would find a
client that depends on the order of the scan. -/
theorem head?_filter_visitClients (stmt : Statement) (uuid : Bytes) :
    ((s.visitClients E stmt).filter (fun c => c.uuid = uuid)).head? = s.find uuid := by
  have hperm := s.visitClients_perm E stmt
  rw [List.head?_filter]
  cases h : s.find uuid with
  | none =>
    rw [find_eq_none_iff] at h
    refine List.find?_eq_none.mpr (fun c hc => ?_)
    intro heq
    exact h (List.mem_map.mpr ⟨c, hperm.mem_iff.mp hc, by simpa using heq⟩)
  | some c =>
    obtain ⟨hc, hu⟩ := (s.find_eq_some_iff).mp h
    cases h' : (s.visitClients E stmt).find? (fun c => c.uuid = uuid) with
    | none =>
      have := List.find?_eq_none.mp h' c (hperm.mem_iff.mpr hc)
      exact absurd hu (by simpa using this)
    | some c' =>
      have hmem := hperm.mem_iff.mp (List.mem_of_find?_eq_some h')
      have hu' : c'.uuid = uuid := by simpa using List.find?_some h'
      exact h'.symm ▸ congrArg some
        (List.inj_on_of_nodup_map s.uuids_nodup hmem hc (hu'.trans hu.symm))

omit [Double F] in
theorem sameCell_integer (m n : Int) :
    E.sameCell (.integer m) (.integer n) = decide (m = n) := by
  have := holds_integer E m n
  simpa [Engine.sameCell, ComparisonType.holds] using this

omit [Double F] in
theorem sameCell_text (s t : Bytes) : E.sameCell (.text s) (.text t) = decide (s = t) := by
  have := holds_text E s t
  simpa [Engine.sameCell, ComparisonType.holds] using this

omit [Double F] in
theorem rowids_clients (clients : List Client) :
    (clientsTable clients : Table F).rowids = clients.map Client.id := by
  show List.filterMap _ (clients.map Client.cells) = _
  rw [List.filterMap_map, ← List.filterMap_eq_map]
  rfl

omit [Double F] in
theorem rowids_packets (packets : List (Packet F)) :
    (packetsTable packets).rowids = packets.map Packet.id := by
  show List.filterMap _ (packets.map Packet.cells) = _
  rw [List.filterMap_map, ← List.filterMap_eq_map]
  rfl

/-- The row that an `INSERT` of a client adds. -/
theorem newRow_client (uuid : Bytes) :
    E.newRow (clientsTable s.clients) [CLIENTS_COLUMN_UUID] [.text uuid]
      = Client.cells ⟨E.newRowid (s.clients.map Client.id), uuid⟩ := by
  have hid : sameWord CLIENTS_COLUMN_UUID CLIENTS_COLUMN_ID = false := by decide
  unfold Engine.newRow
  rw [rowids_clients]
  simp [clientsTable, clientsColumns, TableColumn.isRowid, hid, E.affinity_text,
    Client.cells]

/-- The `INSERT` of a client fails exactly when its uuid is registered. -/
theorem insert_client (uuid : Bytes) :
    E.insert (clientsTable s.clients) [CLIENTS_COLUMN_UUID] [.text uuid]
      = if uuid ∈ s.clients.map Client.uuid then .error SQLITE_CONSTRAINT
        else .ok (clientsTable (s.clients
          ++ [⟨E.newRowid (s.clients.map Client.id), uuid⟩])) := by
  have hfresh := E.newRowid_notMem (s.clients.map Client.id)
  have hviolates : E.violates (clientsTable s.clients)
      (Client.cells ⟨E.newRowid (s.clients.map Client.id), uuid⟩)
      = decide (uuid ∈ s.clients.map Client.uuid) := by
    rw [List.mem_map, not_exists] at hfresh
    rw [Bool.eq_iff_iff]
    simp only [Engine.violates, clientsTable, clientsColumns, List.zipIdx, List.any_cons,
      List.any_nil, Client.cells, Cell.cellAt, List.any_map, Function.comp_def,
      List.getD_cons_zero, List.getD_cons_succ, sameCell_integer, sameCell_text,
      Cell.isNull_integer, Cell.isNull_text, List.mem_map]
    simp only [Bool.or_false, Bool.or_true, Bool.true_and, Bool.or_eq_true,
      List.any_eq_true, decide_eq_true_eq, Bool.and_false, Bool.false_or]
    constructor
    · rintro (⟨c, hc, heq⟩ | ⟨c, hc, heq⟩)
      · exact absurd ⟨hc, heq⟩ (hfresh c)
      · exact ⟨c, hc, heq⟩
    · rintro ⟨c, hc, heq⟩
      exact Or.inr ⟨c, hc, heq⟩
  unfold Engine.insert
  rw [newRow_client]
  dsimp only
  rw [hviolates, if_neg (by simp [clientsTable, clientsColumns, Client.cells, Cell.isInteger,
    TableColumn.isRowid])]
  by_cases hu : uuid ∈ s.clients.map Client.uuid
  · rw [if_pos hu, if_pos (decide_eq_true hu)]
  · rw [if_neg hu, if_neg (by simpa using hu)]
    unfold clientsTable
    rw [List.map_append]
    rfl

/-- The cell a coordinate is bound as. -/
def coordinate (x : F) : Cell F := if Double.isNaN x then .null else .real x

/-- The row that an `INSERT` of a packet adds. -/
theorem newRow_packet (clientId timestamp : Int) (x y : F) :
    E.newRow (packetsTable s.packets)
        [PACKETS_COLUMN_CLIENT_ID, PACKETS_COLUMN_TIMESTAMP, PACKETS_COLUMN_X,
          PACKETS_COLUMN_Y]
        [.integer clientId, .integer timestamp, coordinate x, coordinate y]
      = [.integer (E.newRowid (s.packets.map Packet.id)), .integer clientId,
        .integer timestamp, coordinate x, coordinate y] := by
  have haff : ∀ z : F, E.affinity .CT_REAL (coordinate z) = coordinate z := by
    intro z
    unfold coordinate
    split_ifs
    · exact E.affinity_null _
    · exact E.affinity_real z
  have hnames : (sameWord PACKETS_COLUMN_CLIENT_ID PACKETS_COLUMN_ID = false
      ∧ sameWord PACKETS_COLUMN_TIMESTAMP PACKETS_COLUMN_ID = false
      ∧ sameWord PACKETS_COLUMN_X PACKETS_COLUMN_ID = false
      ∧ sameWord PACKETS_COLUMN_Y PACKETS_COLUMN_ID = false)
      ∧ (sameWord PACKETS_COLUMN_CLIENT_ID PACKETS_COLUMN_TIMESTAMP = false
      ∧ sameWord PACKETS_COLUMN_CLIENT_ID PACKETS_COLUMN_X = false
      ∧ sameWord PACKETS_COLUMN_CLIENT_ID PACKETS_COLUMN_Y = false)
      ∧ (sameWord PACKETS_COLUMN_TIMESTAMP PACKETS_COLUMN_X = false
      ∧ sameWord PACKETS_COLUMN_TIMESTAMP PACKETS_COLUMN_Y = false)
      ∧ sameWord PACKETS_COLUMN_X PACKETS_COLUMN_Y = false := by
    decide
  unfold Engine.newRow
  rw [rowids_packets]
  simp [packetsTable, packetsColumns, TableColumn.isRowid, hnames,
    E.affinity_integer, haff]

/-- The `INSERT` of a packet fails exactly when a coordinate is a NaN. -/
theorem insert_packet (clientId timestamp : Int) (x y : F) :
    E.insert (packetsTable s.packets)
        [PACKETS_COLUMN_CLIENT_ID, PACKETS_COLUMN_TIMESTAMP, PACKETS_COLUMN_X,
          PACKETS_COLUMN_Y]
        [.integer clientId, .integer timestamp, coordinate x, coordinate y]
      = if Double.isNaN x || Double.isNaN y then .error SQLITE_CONSTRAINT
        else .ok (packetsTable (s.packets
          ++ [⟨E.newRowid (s.packets.map Packet.id), clientId, timestamp, x, y⟩])) := by
  have hfresh := E.newRowid_notMem (s.packets.map Packet.id)
  have hnull : ∀ z : F, (coordinate z).isNull = Double.isNaN z := by
    intro z
    unfold coordinate
    cases Double.isNaN z <;> rfl
  have hviolates : E.violates (packetsTable s.packets)
      [.integer (E.newRowid (s.packets.map Packet.id)), .integer clientId,
        .integer timestamp, coordinate x, coordinate y]
      = (Double.isNaN x || Double.isNaN y) := by
    have hid : (s.packets.any fun p =>
        decide (p.id = E.newRowid (s.packets.map Packet.id))) = false := by
      rw [List.any_eq_false]
      intro p hp heq
      exact hfresh (List.mem_map.mpr ⟨p, hp, by simpa using heq⟩)
    simp [Engine.violates, packetsTable, packetsColumns, List.zipIdx, Packet.cells,
      Cell.cellAt, Function.comp_def, sameCell_integer, hnull, hid]
  unfold Engine.insert
  rw [newRow_packet]
  dsimp only
  rw [hviolates, if_neg (by simp [packetsTable, packetsColumns, Cell.isInteger,
    TableColumn.isRowid])]
  by_cases hnan : (Double.isNaN x || Double.isNaN y) = true
  · rw [if_pos hnan, if_pos hnan]
  · rw [if_neg hnan, if_neg hnan]
    rw [Bool.or_eq_true, not_or, Bool.not_eq_true, Bool.not_eq_true] at hnan
    unfold packetsTable coordinate
    rw [List.map_append, hnan.1, hnan.2]
    rfl

/-! ## The five calls

One lemma each, about the handler, with every outcome. These are the only statements
of this module that the server is proved with. -/

section Calls

variable {E} {s} {φ : Faults} {faulty : Prop} {clock : Int → Prop} {d : Database F}

/-- The answer to the lookup of a client. -/
def lookup (s : Store F) (uuid : Bytes) : List (TableValue F) :=
  ((s.find (cstr uuid)).map idRow).getD []

/-- **Looking a client up** changes nothing, and answers with the id of the
client, if there is one. A call below it that fails makes it throw or, when
that call is the step, answer as if there were none.

That a failed step looks like an empty result is how a client that exists is
taken for a new one when a call fails. -/
theorem handler_lookup {uuid : Bytes} {r : Except Exc (List (TableValue F))}
    (h : handler E faulty clock s.toDatabase
      (.selectOne CLIENTS_TABLE_NAME idColumns (some (whereUuid uuid)) none) r d) :
    d = s.toDatabase
      ∧ (r = .ok (s.lookup uuid)
        ∨ faulty ∧ (r = .ok [] ∨ ∃ what, r = .error (.exception what))) := by
  obtain ⟨φ, hφ, hrun⟩ := h
  obtain ⟨hid, huuid⟩ := column_clients (F := F) s.clients
  have hhead := s.head?_filter_visitClients E lookupStatement (cstr uuid)
  have hone := Engine.perform_selectOne (E := E) (φ := φ) (d := s.toDatabase)
    CLIENTS_TABLE_NAME idColumns (some (whereUuid uuid)) none
  rcases Engine.perform_selectMany_typed (E := E) (φ := φ) idRow idColumns
    (some (whereUuid uuid)) none 1
    plain_tables.1 (List.cons_ne_nil _ _) plain_idColumns (by rintro _ ⟨⟩; exact plain_uuid)
    (by rintro _ ⟨⟩) s.find_clients
    (by simp [Database.resolves, idColumns, hid, huuid, WhereClause.condition, whereUuid])
    (resultSet_lookup s E (cstr uuid))
    (fun c _ => by simp [Engine.row, Row.values, Row.column, idColumns, idRow, Cell.cellAt,
      E.toInt64_integer, bind, Except.bind]) with
    ⟨hne, what, hmany⟩ | ⟨k, hk, hnever, hmany⟩
  · obtain ⟨what', herr⟩ := hone.2 what hmany
    rw [← hrun] at herr
    exact ⟨congrArg Prod.snd herr,
      Or.inr ⟨hφ.resolve_right hne, Or.inr ⟨what', congrArg Prod.fst herr⟩⟩⟩
  · have hok := hone.1 _ hmany
    rw [← hrun, List.head?_map, List.head?_take] at hok
    refine ⟨congrArg Prod.snd hok, ?_⟩
    have hr : r = _ := congrArg Prod.fst hok
    rcases Nat.le_one_iff_eq_zero_or_eq_one.mp hk with rfl | rfl
    · -- no row is delivered: there is none, or the step failed
      by_cases hφ' : φ = Faults.never
      · have hnil := List.length_eq_zero_iff.mp
          (show (((s.visitClients E lookupStatement).filter
            (fun c => c.uuid = cstr uuid)).length = 0) by have := hnever hφ'; omega)
        rw [hnil, List.head?_nil] at hhead
        refine Or.inl (hr.trans ?_)
        rw [lookup, ← hhead]
        rfl
      · exact Or.inr ⟨hφ.resolve_right hφ', Or.inl hr⟩
    · rw [if_neg one_ne_zero, hhead] at hr
      exact Or.inl hr

/-- A part of the rows that a SELECT returns: all of them, unless a call
below it failed or there are more than a `size_t` can count.

The order is that of the list, so a part is a prefix; a scan that is
interrupted has delivered the first rows. -/
def IsPart {α : Type} (faulty : Prop) (part rows : List α) : Prop :=
  ∃ k ≤ SQLite.sizeMax, part = rows.take k
    ∧ (¬ faulty → k = min SQLite.sizeMax rows.length)

omit [Double F] in
theorem isPart_of {α : Type} {l : List α} {k : ℕ} (hk : k ≤ SQLite.sizeMax)
    (hφ : faulty ∨ φ = Faults.never) (hnever : φ = Faults.never → k = min SQLite.sizeMax l.length) :
    IsPart faulty (l.take k) l :=
  ⟨k, hk, rfl, fun hf => hnever (hφ.resolve_left hf)⟩

/-- **A SELECT lists values**: if it is not turned down it returns the readings
of the values that are delivered. -/
def Lists {α : Type} (E : Engine F) (d : Database F) (tableName : String)
    (tableColumns : List TableColumn) (w : Option (WhereClause F)) (l : List α)
    (reading : α → List (TableValue F)) : Prop :=
  ∃ rows : List (List (Cell F)), rows.length = l.length ∧ ∀ φ : Faults,
    ((φ.prepare ≠ none ∨ (w ≠ none ∧ φ.bind 1 ≠ none)) →
        ∃ what, E.perform φ (SQLite.selectMany tableName tableColumns w none SQLite.sizeMax) d
          = (.error (.exception what), d))
      ∧ (¬ (φ.prepare ≠ none ∨ (w ≠ none ∧ φ.bind 1 ≠ none)) →
        E.perform φ (SQLite.selectMany tableName tableColumns w none SQLite.sizeMax) d
          = (.ok ((l.take ((E.cursor φ rows).deliveredFrom 0 SQLite.sizeMax)).map reading), d))

section Lists

variable {α : Type} {d₀ : Database F} {tableName : String} {tableColumns : List TableColumn}
  {w : Option (WhereClause F)} {l : List α} {reading : α → List (TableValue F)}

/-- **What a SELECT that lists values answers**: all of them, unless a call
below it fails. -/
theorem Lists.answer (h : Lists E d₀ tableName tableColumns w l reading)
    {r : Except Exc (List (List (TableValue F)))}
    (hr : handler E faulty clock d₀
      (.selectMany tableName tableColumns w none SQLite.sizeMax) r d) :
    d = d₀ ∧ ((∃ part, IsPart faulty part l ∧ r = .ok (part.map reading))
      ∨ faulty ∧ ∃ what, r = .error (.exception what)) := by
  obtain ⟨φ, hφ, hrun⟩ := hr
  obtain ⟨rows, hlen, hperform⟩ := h
  obtain ⟨hreject, hok⟩ := hperform φ
  by_cases hr : φ.prepare ≠ none ∨ (w ≠ none ∧ φ.bind 1 ≠ none)
  · obtain ⟨what, herr⟩ := hreject hr
    rw [← hrun] at herr
    refine ⟨congrArg Prod.snd herr, Or.inr ⟨hφ.resolve_right ?_, what, congrArg Prod.fst herr⟩⟩
    rintro rfl
    rcases hr with hr | ⟨-, hr⟩
    · exact hr rfl
    · exact hr rfl
  · have hrd := hrun.trans (hok hr)
    refine ⟨congrArg Prod.snd hrd, Or.inl ⟨_, isPart_of
      ((Cursor.deliveredFrom_le _ 0 _).trans (Nat.min_le_left _ _)) hφ ?_,
      congrArg Prod.fst hrd⟩⟩
    rintro rfl
    rw [Engine.deliveredFrom_never, hlen]

/-- Any part of the values may be the answer if calls may fail, and all of them
are if not. -/
theorem Lists.answers (h : Lists E d₀ tableName tableColumns w l reading) {part : List α}
    (hpart : IsPart faulty part l) :
    handler E faulty clock d₀ (.selectMany tableName tableColumns w none SQLite.sizeMax)
      (.ok (part.map reading)) d₀ := by
  obtain ⟨rows, hlen, hperform⟩ := h
  obtain ⟨k, hk, rfl, hall⟩ := hpart
  by_cases hcut : faulty ∧ k < l.length
  · -- the step after the last row of the part fails
    let φ : Faults := { step := fun j => if j = k then some ⟨SQLITE_ERROR, by decide⟩ else none }
    have hok := (hperform φ).2 (by rintro (hr | ⟨-, hr⟩) <;> exact hr rfl)
    rw [Cursor.deliveredFrom_of_fault (j := k) (E.cursor φ rows) 0 SQLite.sizeMax
      (by simp only [Engine.cursor, List.length_map]; omega)
      (fun i hi => if_neg (by omega))
      (ne_of_eq_of_ne (if_pos (Nat.zero_add k)) (Option.some_ne_none _))] at hok
    exact ⟨φ, Or.inl hcut.1, hok.symm⟩
  · have hok := (hperform Faults.never).2 (by rintro (hr | ⟨-, hr⟩) <;> exact hr rfl)
    have htake : l.take k = l.take (min SQLite.sizeMax l.length) := by
      rw [List.take_eq_take_iff]
      by_cases hf : faulty
      · have := not_and.mp hcut hf
        omega
      · have := hall hf
        omega
    rw [Engine.deliveredFrom_never, hlen, ← htake] at hok
    exact ⟨Faults.never, Or.inr rfl, hok.symm⟩

end Lists

/-- The clients are listed. -/
theorem lists_clients (s : Store F) (E : Engine F) :
    Lists E s.toDatabase CLIENTS_TABLE_NAME clientColumns none (s.listed E) clientRow := by
  obtain ⟨hid, huuid⟩ := column_clients (F := F) s.clients
  refine ⟨_, List.length_map _, fun φ => Engine.perform_selectMany_reading (E := E) (φ := φ)
    clientRow clientColumns none none SQLite.sizeMax
    plain_tables.1 (List.cons_ne_nil _ _) plain_clientsColumns (by rintro _ ⟨⟩)
    (by rintro _ ⟨⟩) s.find_clients
    (by simp [Database.resolves, clientColumns, clientsColumns, hid, huuid])
    (resultSet_clients s E) (fun c hc => ?_)⟩
  have hplain := cstr_eq_self (s.uuids_plain c ((s.listed_perm E).mem_iff.mp hc))
  simp [Engine.row, Row.values, Row.column, clientColumns, clientsColumns, clientRow,
    Client.cells, Cell.cellAt, E.toInt64_integer, E.toText_text, hplain, bind, Except.bind]

/-- The packets of a client are listed. -/
theorem lists_packets (s : Store F) (E : Engine F) (clientId : Int) :
    Lists E s.toDatabase PACKETS_TABLE_NAME packetColumns (some (whereClientId clientId))
      (s.packetsOf E clientId) packetRow := by
  obtain ⟨hclient, htime, hx, hy⟩ := column_packets s.packets
  refine ⟨_, List.length_map _, fun φ => Engine.perform_selectMany_reading (E := E) (φ := φ)
    packetRow packetColumns (some (whereClientId clientId)) none SQLite.sizeMax
    plain_tables.2 (List.cons_ne_nil _ _) plain_packetColumns
    (by rintro _ ⟨⟩; exact plain_clientId) (by rintro _ ⟨⟩) s.find_packets
    (by simp [Database.resolves, packetColumns, hclient, htime, hx, hy,
      WhereClause.condition, whereClientId])
    (resultSet_packets s E clientId) (fun p _ => ?_)⟩
  simp [Engine.row, Row.values, Row.column, packetColumns, packetRow, Cell.cellAt,
    E.toInt64_integer, E.toDouble_real, bind, Except.bind]

/-- **Listing the clients** changes nothing, and answers with all of them
unless a call below it fails. -/
theorem handler_listClients {r : Except Exc (List (List (TableValue F)))}
    (h : handler E faulty clock s.toDatabase
      (.selectMany CLIENTS_TABLE_NAME clientColumns none none SQLite.sizeMax) r d) :
    d = s.toDatabase
      ∧ ((∃ part, IsPart faulty part (s.listed E) ∧ r = .ok (part.map clientRow))
        ∨ faulty ∧ ∃ what, r = .error (.exception what)) :=
  (s.lists_clients E).answer h

/-- **Listing the packets of a client** changes nothing, and answers with all
of them unless a call below it fails. -/
theorem handler_listPackets {clientId : Int} {r : Except Exc (List (List (TableValue F)))}
    (h : handler E faulty clock s.toDatabase
      (.selectMany PACKETS_TABLE_NAME packetColumns (some (whereClientId clientId)) none
        SQLite.sizeMax) r d) :
    d = s.toDatabase
      ∧ ((∃ part, IsPart faulty part (s.packetsOf E clientId) ∧ r = .ok (part.map packetRow))
        ∨ faulty ∧ ∃ what, r = .error (.exception what)) :=
  (s.lists_packets E clientId).answer h

/-- **Adding a client** adds it with an id that is not in use, or throws and
changes nothing – which happens if its uuid is registered or a call below it
fails.

The exception does not say which of the two it was. -/
theorem handler_addClient {uuid : Bytes} {r : Except Exc Unit}
    (h : handler E faulty clock s.toDatabase
      (.insertOne CLIENTS_TABLE_NAME (clientValues uuid)) r d) :
    ∃ s' : Store F, d = s'.toDatabase
      ∧ ((r = .ok () ∧ s.find (cstr uuid) = none ∧ s.AddsClient s' (cstr uuid))
        ∨ (s' = s ∧ (∃ what, r = .error (.exception what))
          ∧ (faulty ∨ s.find (cstr uuid) ≠ none))) := by
  obtain ⟨φ, hφ, hrun⟩ := h
  have huuid := (column_clients (F := F) s.clients).2
  rcases Engine.perform_insertOne_cases (E := E) (φ := φ) (clientValues uuid)
    plain_tables.1 (List.cons_ne_nil _ _)
    (by
      intro x hx
      rw [List.mem_singleton.mp hx]
      exact plain_uuid)
    s.find_clients (by simp [Database.resolves, clientValues, huuid])
    (insert_client s E (cstr uuid)) with ⟨t', hok, hperform⟩ | ⟨hcause, what, hperform⟩
  · have hrd := hrun.trans hperform
    by_cases hu : cstr uuid ∈ s.clients.map Client.uuid
    · rw [if_pos hu] at hok
      cases hok
    rw [if_neg hu] at hok
    cases hok
    refine ⟨⟨s.clients ++ [⟨E.newRowid (s.clients.map Client.id), cstr uuid⟩], s.packets,
      ?_, ?_, ?_, s.packetIds_nodup, s.finite⟩, ?_,
      Or.inl ⟨congrArg Prod.fst hrd, (find_eq_none_iff s).mpr hu, _, rfl, rfl⟩⟩
    · rw [List.map_append]
      exact s.ids_nodup.append (List.nodup_singleton _)
        (List.disjoint_singleton.mpr (E.newRowid_notMem _))
    · rw [List.map_append]
      exact s.uuids_nodup.append (List.nodup_singleton _) (List.disjoint_singleton.mpr hu)
    · intro c hc
      rcases List.mem_append.mp hc with hc | hc
      · exact s.uuids_plain c hc
      · rw [List.mem_singleton.mp hc]
        exact zero_notMem_cstr uuid
    · have hd : d = s.toDatabase.replace _ := congrArg Prod.snd hrd
      rw [hd]
      simp [Database.replace, toDatabase, clientsTable, packetsTable, tables_differ.2]
  · have hrd := hrun.trans hperform
    refine ⟨s, congrArg Prod.snd hrd, Or.inr ⟨rfl, ⟨what, congrArg Prod.fst hrd⟩, ?_⟩⟩
    refine hcause.imp hφ.resolve_right ?_
    rintro ⟨code, hcode⟩ hnone
    rw [if_neg ((find_eq_none_iff s).mp hnone)] at hcode
    cases hcode

/-- **Adding a packet** adds it, or throws and changes nothing – which happens
if a coordinate is a NaN or a call below it fails. -/
theorem handler_addPacket {clientId : Int} {data : ClientPacket.Data F}
    {r : Except Exc Unit}
    (h : handler E faulty clock s.toDatabase
      (.insertOne PACKETS_TABLE_NAME (packetValues (.int64 clientId) data)) r d) :
    ∃ s' : Store F, d = s'.toDatabase
      ∧ ((r = .ok () ∧ Double.isNaN data.x = false ∧ Double.isNaN data.y = false
          ∧ s.AddsPacket s' clientId data)
        ∨ (s' = s ∧ (∃ what, r = .error (.exception what))
          ∧ (faulty ∨ (Double.isNaN data.x || Double.isNaN data.y) = true))) := by
  obtain ⟨φ, hφ, hrun⟩ := h
  obtain ⟨hclient, htime, hx, hy⟩ := column_packets s.packets
  rcases Engine.perform_insertOne_cases (E := E) (φ := φ)
    (packetValues (.int64 clientId) data)
    plain_tables.2 (List.cons_ne_nil _ _)
    (by
      intro x hx
      obtain ⟨column, hcolumn, hname⟩ := List.mem_map.mp
        (show x.columnName ∈ (packetsColumns.drop 1).map TableColumn.name from
          List.mem_map_of_mem (f := TableValue.columnName) hx)
      exact hname ▸ plain_packetsColumns column (List.mem_of_mem_drop hcolumn))
    s.find_packets (by simp [Database.resolves, packetValues, hclient, htime, hx, hy])
    (insert_packet s E clientId data.timestamp data.x data.y) with
    ⟨t', hok, hperform⟩ | ⟨hcause, what, hperform⟩
  · have hrd := hrun.trans hperform
    by_cases hnan : (Double.isNaN data.x || Double.isNaN data.y) = true
    · rw [if_pos hnan] at hok
      cases hok
    rw [if_neg hnan] at hok
    cases hok
    rw [Bool.or_eq_true, not_or, Bool.not_eq_true, Bool.not_eq_true] at hnan
    refine ⟨⟨s.clients, s.packets ++ [⟨E.newRowid (s.packets.map Packet.id), clientId,
      data.timestamp, data.x, data.y⟩], s.ids_nodup, s.uuids_nodup, s.uuids_plain, ?_, ?_⟩,
      ?_, Or.inl ⟨congrArg Prod.fst hrd, hnan.1, hnan.2, _, rfl, rfl⟩⟩
    · rw [List.map_append]
      exact s.packetIds_nodup.append (List.nodup_singleton _)
        (List.disjoint_singleton.mpr (E.newRowid_notMem _))
    · intro p hp
      rcases List.mem_append.mp hp with hp | hp
      · exact s.finite p hp
      · rw [List.mem_singleton.mp hp]
        exact hnan
    · have hd : d = s.toDatabase.replace _ := congrArg Prod.snd hrd
      rw [hd]
      simp [Database.replace, toDatabase, clientsTable, packetsTable, tables_differ.1]
  · have hrd := hrun.trans hperform
    refine ⟨s, congrArg Prod.snd hrd, Or.inr ⟨rfl, ⟨what, congrArg Prod.fst hrd⟩, ?_⟩⟩
    refine hcause.imp hφ.resolve_right ?_
    rintro ⟨code, hcode⟩
    by_contra hnan
    rw [if_neg hnan] at hcode
    cases hcode

end Calls

end Store
