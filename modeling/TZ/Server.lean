import TZ.Messages
import TZ.Methods

/-!
# The server

`Server/Server.hpp` and `Server/Server.cpp`: what the server does with its
two tables and with its connections. The commands of its programs are the
method calls of the wrapper, each taken as one step on the shared
connection, the clock, the flag that asks the threads to end, and the two
operations of a websocket.

What is printed is left out. The acceptor and the threads themselves are left
to the module about the whole process: the acceptor only starts a
`clientThread` for every connection, and any number of them run side by side.
-/

/-- **What a program of the server asks of its surroundings.** -/
inductive Cmd (F : Type) where
  /-- `m_psqlite3->createTable`. -/
  | createTable (tableName : String) (tableColumns : List TableColumn)
  /-- `m_psqlite3->insertOne`. -/
  | insertOne (tableName : String) (tableValues : List (TableValue F))
  /-- `m_psqlite3->selectOne`. -/
  | selectOne (tableName : String) (tableColumns : List TableColumn)
      (pWhereClause : Option (WhereClause F)) (pOrderByClause : Option OrderByClause)
  /-- `m_psqlite3->selectMany`. -/
  | selectMany (tableName : String) (tableColumns : List TableColumn)
      (pWhereClause : Option (WhereClause F)) (pOrderByClause : Option OrderByClause)
      (rowCount : ℕ)
  /-- `std::chrono::system_clock::now()`, in ticks since the epoch. -/
  | now
  /-- `m_needExit`. -/
  | needExit
  /-- `ws.read(buffer)`. -/
  | read
  /-- `ws.write(net::buffer(stats->SerializeAsString()))`. -/
  | write (stats : ServerStatistic F)

/-- The answers: a result or an exception, the time, or the flag. -/
abbrev Cmd.Resp {F : Type} : Cmd F → Type
  | .createTable .. => Except Exc Unit
  | .insertOne .. => Except Exc Unit
  | .selectOne .. => Except Exc (List (TableValue F))
  | .selectMany .. => Except Exc (List (List (TableValue F)))
  | .now => Int
  | .needExit => Bool
  | .read => Except Exc Bytes
  | .write _ => Except Exc Unit

/-- A program of the server. -/
abbrev ServerProg (F α : Type) := Prog (Cmd F) Cmd.Resp Exc α

variable {F : Type}

/-- `std::get<std::string>`. -/
def DBVariants.getString : DBVariants F → Except Exc Bytes
  | .string s => .ok s
  | _ => .error .badVariantAccess

/-- `std::get<int64_t>`. -/
def DBVariants.getInt64 : DBVariants F → Except Exc Int
  | .int64 n => .ok n
  | _ => .error .badVariantAccess

/-- `std::get<double>`. -/
def DBVariants.getDouble : DBVariants F → Except Exc F
  | .double x => .ok x
  | _ => .error .badVariantAccess

/-- `std::vector::at`. -/
def vectorAt {α : Type} (v : List α) (i : ℕ) : Except Exc α :=
  match v[i]? with
  | some a => .ok a
  | none => .error (.exception "invalid vector subscript")

namespace Server

/-! ## Names and intervals -/

/-- `CLIENTS_TABLE_NAME`. -/
def CLIENTS_TABLE_NAME : String := "clients"
/-- `PACKETS_TABLE_NAME`. -/
def PACKETS_TABLE_NAME : String := "packets"
/-- `CLIENTS_COLUMN_ID`. -/
def CLIENTS_COLUMN_ID : String := "id"
/-- `CLIENTS_COLUMN_UUID`. -/
def CLIENTS_COLUMN_UUID : String := "uuid"
/-- `PACKETS_COLUMN_ID`. -/
def PACKETS_COLUMN_ID : String := "id"
/-- `PACKETS_COLUMN_CLIENT_ID`. -/
def PACKETS_COLUMN_CLIENT_ID : String := "client_id"
/-- `PACKETS_COLUMN_TIMESTAMP`. -/
def PACKETS_COLUMN_TIMESTAMP : String := "timestamp"
/-- `PACKETS_COLUMN_X`. -/
def PACKETS_COLUMN_X : String := "x"
/-- `PACKETS_COLUMN_Y`. -/
def PACKETS_COLUMN_Y : String := "y"

/-- A minute in ticks of `std::chrono::system_clock`, which are 100 ns. -/
def ticksPerMinute : Int := 600000000

/-- `STATS_INTERVAL_MINUTES_1`. -/
def STATS_INTERVAL_MINUTES_1 : Int := 1 * ticksPerMinute
/-- `STATS_INTERVAL_MINUTES_2`. -/
def STATS_INTERVAL_MINUTES_2 : Int := 5 * ticksPerMinute

/-- The columns of the `clients` table. -/
def clientsColumns : List TableColumn :=
  [{ name := CLIENTS_COLUMN_ID, type := .CT_INTEGER, primaryKey := true },
    { name := CLIENTS_COLUMN_UUID, type := .CT_TEXT, primaryKey := false, unique := true }]

/-- The columns of the `packets` table. -/
def packetsColumns : List TableColumn :=
  [{ name := PACKETS_COLUMN_ID, type := .CT_INTEGER, primaryKey := true },
    { name := PACKETS_COLUMN_CLIENT_ID, type := .CT_INTEGER },
    { name := PACKETS_COLUMN_TIMESTAMP, type := .CT_INTEGER },
    { name := PACKETS_COLUMN_X, type := .CT_REAL },
    { name := PACKETS_COLUMN_Y, type := .CT_REAL }]

/-! ## Method calls -/

/-- `m_psqlite3->createTable`. -/
def createTable (tableName : String) (tableColumns : List TableColumn) :
    ServerProg F Unit :=
  .call (.createTable tableName tableColumns) .ofExcept

/-- `m_psqlite3->insertOne`. -/
def insertOne (tableName : String) (tableValues : List (TableValue F)) :
    ServerProg F Unit :=
  .call (.insertOne tableName tableValues) .ofExcept

/-- `m_psqlite3->selectOne`, without an ORDER BY clause. -/
def selectOne (tableName : String) (tableColumns : List TableColumn)
    (pWhereClause : Option (WhereClause F)) : ServerProg F (List (TableValue F)) :=
  .call (.selectOne tableName tableColumns pWhereClause none) .ofExcept

/-- `m_psqlite3->selectMany`, without an ORDER BY clause and with the default
number of rows. -/
def selectMany (tableName : String) (tableColumns : List TableColumn)
    (pWhereClause : Option (WhereClause F)) :
    ServerProg F (List (List (TableValue F))) :=
  .call (.selectMany tableName tableColumns pWhereClause none SQLite.sizeMax) .ofExcept

/-- The constructor `Server::Server`. -/
def construct : ServerProg F Unit := do
  createTable CLIENTS_TABLE_NAME clientsColumns
  createTable PACKETS_TABLE_NAME packetsColumns

/-! ## saveClientPacket -/

/-- The `columns` of `saveClientPacket`. -/
def idColumns : List TableColumn :=
  [{ name := CLIENTS_COLUMN_ID, type := .CT_INTEGER, primaryKey := true }]

/-- The `whereClause` of `saveClientPacket`. -/
def whereUuid (uuid : Bytes) : WhereClause F :=
  ⟨⟨CLIENTS_COLUMN_UUID, .string uuid⟩, .CT_EQUAL⟩

/-- The `values` of a new client. -/
def clientValues (uuid : Bytes) : List (TableValue F) :=
  [⟨CLIENTS_COLUMN_UUID, .string uuid⟩]

/-- The `values` of a packet. -/
def packetValues (clientId : DBVariants F) (data : ClientPacket.Data F) :
    List (TableValue F) :=
  [⟨PACKETS_COLUMN_CLIENT_ID, clientId⟩,
    ⟨PACKETS_COLUMN_TIMESTAMP, .int64 data.timestamp⟩,
    ⟨PACKETS_COLUMN_X, .double data.x⟩, ⟨PACKETS_COLUMN_Y, .double data.y⟩]

/-- The exception `saveClientPacket` rethrows. -/
def saveError (ex : Exc) : Exc := .exception ("Can't save packet: " ++ ex.what)

/-- `Server::saveClientPacket`. -/
def saveClientPacket (packet : ClientPacket F) : ServerProg F Unit :=
  match packet.data with
  | none => .ret ()
  | some data =>
    Prog.catchStd (do
      let client ← selectOne CLIENTS_TABLE_NAME idColumns (some (whereUuid data.uuid))
      let client ← if client.isEmpty then do
          insertOne CLIENTS_TABLE_NAME (clientValues data.uuid)
          selectOne CLIENTS_TABLE_NAME idColumns (some (whereUuid data.uuid))
        else .ret client
      let first ← .ofExcept (vectorAt client 0)
      insertOne PACKETS_TABLE_NAME (packetValues first.value data))
    fun ex => .throw (saveError ex)

/-! ## collectStatistics -/

/-- The columns of a client that are read. -/
def clientColumns : List TableColumn := clientsColumns

/-- The columns of a packet that are read. -/
def packetColumns : List TableColumn :=
  [{ name := PACKETS_COLUMN_TIMESTAMP, type := .CT_INTEGER },
    { name := PACKETS_COLUMN_X, type := .CT_REAL },
    { name := PACKETS_COLUMN_Y, type := .CT_REAL }]

/-- The `whereClause` of `collectStatistics`. -/
def whereClientId (clientId : Int) : WhereClause F :=
  ⟨⟨PACKETS_COLUMN_CLIENT_ID, .int64 clientId⟩, .CT_EQUAL⟩

/-- `++` of an `int`. -/
def increment (n : Int) : Int := (n + 1).bmod (2 ^ 32)

/-- The local variables of the loop over the packets of a client. -/
structure Sums (F : Type) where
  /-- `sumX1`. -/
  sumX1 : F
  /-- `sumX5`. -/
  sumX5 : F
  /-- `countX1`. -/
  countX1 : Int
  /-- `countX5`. -/
  countX5 : Int
  /-- `y1`. -/
  y1 : F
  /-- `y5`. -/
  y5 : F
  /-- `needToAdd1`. -/
  needToAdd1 : Bool
  /-- `needToAdd5`. -/
  needToAdd5 : Bool

section Statistics

variable [Double F]

/-- Their initial values. -/
def Sums.zero : Sums F where
  sumX1 := Double.zero
  sumX5 := Double.zero
  countX1 := 0
  countX5 := 0
  y1 := Double.zero
  y5 := Double.zero
  needToAdd1 := false
  needToAdd5 := false

/-- `if (timestamp >= interval1)`. -/
def Sums.add1 (s : Sums F) (interval1 timestamp : Int) (x y : F) : Sums F :=
  if timestamp ≥ interval1 then
    { s with
      sumX1 := Double.add s.sumX1 x
      countX1 := increment s.countX1
      y1 := Double.add s.y1 (Double.abs y)
      needToAdd1 := true }
  else s

/-- `if (timestamp >= interval2)`. -/
def Sums.add5 (s : Sums F) (interval2 timestamp : Int) (x y : F) : Sums F :=
  if timestamp ≥ interval2 then
    { s with
      sumX5 := Double.add s.sumX5 x
      countX5 := increment s.countX5
      y5 := Double.add s.y5 (Double.abs y)
      needToAdd5 := true }
  else s

/-- The body of the loop over the packets of a client. -/
def addRow (interval1 interval2 : Int) (s : Sums F) (packet : List (TableValue F)) :
    Except Exc (Sums F) := do
  let timestamp ← (← vectorAt packet 0).value.getInt64
  let x ← (← vectorAt packet 1).value.getDouble
  let y ← (← vectorAt packet 2).value.getDouble
  .ok ((s.add1 interval1 timestamp x y).add5 interval2 timestamp x y)

/-- The loop over the packets of a client. -/
def sumRows (interval1 interval2 : Int) :
    List (List (TableValue F)) → Sums F → Except Exc (Sums F)
  | [], s => .ok s
  | packet :: packets, s => do
    let s ← addRow interval1 interval2 s packet
    sumRows interval1 interval2 packets s

/-- The entry that is added for a client, if one is. -/
def Sums.entry (s : Sums F) (clientUuid : Bytes) :
    Option (ServerStatistic.Statistic F) :=
  let avgX1 := if s.needToAdd1 then Double.divInt s.sumX1 s.countX1 else Double.zero
  let avgX5 := if s.needToAdd5 then Double.divInt s.sumX5 s.countX5 else Double.zero
  if s.needToAdd1 || s.needToAdd5 then
    some { uuid := clientUuid, x1 := avgX1, y1 := s.y1, x5 := avgX5, y5 := s.y5 }
  else none

/-- The loop over the clients, with the entries added so far. -/
def collectClients (interval1 interval2 : Int) :
    List (List (TableValue F)) → List (ServerStatistic.Statistic F) →
      ServerProg F (List (ServerStatistic.Statistic F))
  | [], stats => .ret stats
  | client :: clients, stats => do
    let clientId ← .ofExcept (do (← vectorAt client 0).value.getInt64)
    let clientUuid ← .ofExcept (do (← vectorAt client 1).value.getString)
    let packets ← selectMany PACKETS_TABLE_NAME packetColumns (some (whereClientId clientId))
    let sums ← .ofExcept (sumRows interval1 interval2 packets Sums.zero)
    collectClients interval1 interval2 clients (stats ++ (sums.entry clientUuid).toList)

/-- `Server::collectStatistics`. -/
def collectStatistics : ServerProg F (ServerStatistic F) := do
  let clients ← selectMany CLIENTS_TABLE_NAME clientColumns none
  let currentTime ← Prog.perform .now
  let interval1 := currentTime - STATS_INTERVAL_MINUTES_1
  let interval2 := currentTime - STATS_INTERVAL_MINUTES_2
  let stats ← collectClients interval1 interval2 clients []
  .ret ⟨stats⟩

/-! ## clientThread -/

/-- The `switch` on the type of a packet. -/
def handlePacket (packet : ClientPacket F) : ServerProg F Unit :=
  if packet.type = ClientPacket.DATA then saveClientPacket packet
  else if packet.type = ClientPacket.STATISTICS then do
    let stats ← collectStatistics
    .call (.write stats) .ofExcept
  else .ret ()

variable (ParseFromString : Bytes → Bool × ClientPacket F)

/-- What the loop does with a message. The result of `ParseFromString`, the
first component, is discarded. -/
def handleMessage (buffer : Bytes) : ServerProg F Unit :=
  let packet := (ParseFromString buffer).2
  handlePacket packet

/-- The loop `while (!m_needExit)`, for at most a given number of messages. -/
def messageLoop : ℕ → ServerProg F Unit
  | 0 => .ret ()
  | n + 1 => do
    let needExit ← Prog.perform .needExit
    if needExit then .ret ()
    else do
      let buffer ← .call .read .ofExcept
      handleMessage ParseFromString buffer
      messageLoop n

/-- `Server::clientThread`, for at most `n` messages. The three `catch`
clauses differ in what they print. -/
def clientThread (n : ℕ) : ServerProg F Unit :=
  (messageLoop ParseFromString n).catchStd fun _ => .ret ()

end Statistics

/-! ## What the surroundings answer -/

variable [Double F] (E : Engine F)

/-- **The surroundings of the server.** A method call is one step on the
database; it may fail only if `faulty` holds. The clock may show any time of
`clock`, and a connection may deliver any message and end at any time. -/
def handler (faulty : Prop) (clock : Int → Prop) : Handler (Database F) (Cmd F) Cmd.Resp
  | d, .createTable tableName tableColumns, r, d' =>
    ∃ φ, (faulty ∨ φ = Faults.never)
      ∧ (r, d') = E.perform φ (SQLite.createTable tableName tableColumns) d
  | d, .insertOne tableName tableValues, r, d' =>
    ∃ φ, (faulty ∨ φ = Faults.never)
      ∧ (r, d') = E.perform φ (SQLite.insertOne tableName tableValues) d
  | d, .selectOne tableName tableColumns w o, r, d' =>
    ∃ φ, (faulty ∨ φ = Faults.never)
      ∧ (r, d') = E.perform φ (SQLite.selectOne tableName tableColumns w o) d
  | d, .selectMany tableName tableColumns w o n, r, d' =>
    ∃ φ, (faulty ∨ φ = Faults.never)
      ∧ (r, d') = E.perform φ (SQLite.selectMany tableName tableColumns w o n) d
  | d, .now, r, d' => clock r ∧ d' = d
  | d, .needExit, _, d' => d' = d
  | d, .read, r, d' => (∀ ex, r = .error ex → ∃ what, ex = .systemError what) ∧ d' = d
  | d, .write _, r, d' => (∀ ex, r = .error ex → ∃ what, ex = .systemError what) ∧ d' = d

variable {E}

/-- Surroundings that may fail, or whose clock may show more, allow what the
others allow. -/
theorem handler_mono {faulty faulty' : Prop} {clock clock' : Int → Prop}
    (hf : faulty → faulty') (hclock : ∀ n, clock n → clock' n)
    {d d' : Database F} {c : Cmd F} {r : c.Resp} (h : handler E faulty clock d c r d') :
    handler E faulty' clock' d c r d' := by
  cases c with
  | createTable tableName tableColumns =>
    obtain ⟨φ, hφ, hrun⟩ := h
    exact ⟨φ, hφ.imp_left hf, hrun⟩
  | insertOne tableName tableValues =>
    obtain ⟨φ, hφ, hrun⟩ := h
    exact ⟨φ, hφ.imp_left hf, hrun⟩
  | selectOne tableName tableColumns w o =>
    obtain ⟨φ, hφ, hrun⟩ := h
    exact ⟨φ, hφ.imp_left hf, hrun⟩
  | selectMany tableName tableColumns w o n =>
    obtain ⟨φ, hφ, hrun⟩ := h
    exact ⟨φ, hφ.imp_left hf, hrun⟩
  | now => exact ⟨hclock r h.1, h.2⟩
  | _ => exact h

end Server
