import Mathlib.Algebra.GroupWithZero.Nat
import TZ.Interleaving
import TZ.Store

/-!
# Saving a packet

`Server::saveClientPacket` makes up to four method calls: it looks the client
up, adds it if there is none, looks it up again, and adds the packet. This
module reads the program as the machine it is – `Saving.Phase`, one phase
for each call it may be about to make – and says what each of its steps does
to a store. Every result about saves, alone or among others, rests on that
one case analysis (`Saving.step`).

A save that fails half-way leaves what it did before: there is no
transaction around the two inserts.

The program is written in a monad with exceptions, and its steps are hidden in binds and
a `try` block. As a machine it has six phases, and what comes next depends on the phase
and on the answer alone. `Saving.saveClientPacket_eq` says that the program is this
machine, and it is proved once; after it nobody unfolds the program.

A step says two things: what its call has found in the store, and what it has added to
it. It does not say that a lookup which found nothing was right, because the call may
have failed and `selectOne` have returned an empty row without an exception. That is why
the condition of such a step is a disjunction.
-/

open Server

variable {F : Type} [Double F]

/-! ## The calls the server makes -/

/-- **The calls the server makes** once it is set up.

The arguments are listed with the calls, because what a call does to a store
depends on them: another SELECT might ask for a column that does not exist. -/
inductive ServerCall : Cmd F → Prop
  /-- It looks a client up. -/
  | lookup (uuid : Bytes) :
      ServerCall (.selectOne CLIENTS_TABLE_NAME idColumns (some (whereUuid uuid)) none)
  /-- It adds a client. -/
  | addClient (uuid : Bytes) :
      ServerCall (.insertOne CLIENTS_TABLE_NAME (clientValues uuid))
  /-- It adds a packet. -/
  | addPacket (clientId : Int) (data : ClientPacket.Data F) :
      ServerCall (.insertOne PACKETS_TABLE_NAME (packetValues (.int64 clientId) data))
  /-- It lists the clients. -/
  | listClients :
      ServerCall (.selectMany CLIENTS_TABLE_NAME clientColumns none none SQLite.sizeMax)
  /-- It lists the packets of a client. -/
  | listPackets (clientId : Int) :
      ServerCall (.selectMany PACKETS_TABLE_NAME packetColumns
        (some (whereClientId clientId)) none SQLite.sizeMax)
  /-- It reads the clock. -/
  | now : ServerCall .now
  /-- It asks whether to end. -/
  | needExit : ServerCall .needExit
  /-- It reads a message. -/
  | read : ServerCall .read
  /-- It writes a reply. -/
  | write (stats : ServerStatistic F) : ServerCall (.write stats)

/-- **The calls of a save.** -/
inductive SaveCall : Cmd F → Prop
  /-- It looks a client up. -/
  | lookup (uuid : Bytes) :
      SaveCall (.selectOne CLIENTS_TABLE_NAME idColumns (some (whereUuid uuid)) none)
  /-- It adds a client. -/
  | addClient (uuid : Bytes) :
      SaveCall (.insertOne CLIENTS_TABLE_NAME (clientValues uuid))
  /-- It adds a packet. -/
  | addPacket (clientId : Int) (data : ClientPacket.Data F) :
      SaveCall (.insertOne PACKETS_TABLE_NAME (packetValues (.int64 clientId) data))

omit [Double F] in
theorem SaveCall.serverCall {c : Cmd F} (h : SaveCall c) : ServerCall c := by
  cases h with
  | lookup uuid => exact .lookup uuid
  | addClient uuid => exact .addClient uuid
  | addPacket clientId data => exact .addPacket clientId data

/-- What the server relies on in the answer to a call: an id is an integer.

This is the part of a typed row that the program would otherwise have to
check. A value of another type would make `std::get` throw. -/
def Answered : (c : Cmd F) → c.Resp → Prop
  | .selectOne .., .ok row => ∀ v ∈ row, ∃ n, v.value = .int64 n
  | _, _ => True

namespace Store

/-- **A store has grown into another**: nothing that was in it has changed
or gone.

A prefix and not only a part: rows are appended. This is the guarantee of
every call of the server and the rely of every program of it. -/
structure Grows (s t : Store F) : Prop where
  /-- The clients are still there. -/
  clients : s.clients <+: t.clients
  /-- The packets are still there. -/
  packets : s.packets <+: t.packets

instance : Std.Refl (Grows (F := F)) := ⟨fun _ => ⟨List.prefix_rfl, List.prefix_rfl⟩⟩

instance : IsTrans (Store F) Grows :=
  ⟨fun _ _ _ h h' => ⟨h.clients.trans h'.clients, h.packets.trans h'.packets⟩⟩

theorem Grows.refl (s : Store F) : s.Grows s := Std.Refl.refl s

theorem Grows.trans {s t u : Store F} (h : s.Grows t) (h' : t.Grows u) : s.Grows u :=
  IsTrans.trans _ _ _ h h'

theorem AddsClient.grows {s s' : Store F} {uuid : Bytes} (h : s.AddsClient s' uuid) :
    s.Grows s' := by
  obtain ⟨id, hc, hp⟩ := h
  exact ⟨hc ▸ List.prefix_append _ _, hp ▸ List.prefix_rfl⟩

theorem AddsPacket.grows {s s' : Store F} {clientId : Int} {data : ClientPacket.Data F}
    (h : s.AddsPacket s' clientId data) : s.Grows s' := by
  obtain ⟨id, hc, hp⟩ := h
  exact ⟨hc ▸ List.prefix_rfl, hp ▸ List.prefix_append _ _⟩

/-- A client that was registered still is, with the same id. -/
theorem Grows.find {s t : Store F} (h : s.Grows t) {uuid : Bytes} {c : Client}
    (hc : s.find uuid = some c) : t.find uuid = some c := by
  rw [find_eq_some_iff] at hc ⊢
  exact ⟨h.clients.subset hc.1, hc.2⟩

end Store

namespace Server

variable {E : Engine F} {faulty : Prop} {clock : Int → Prop}

/-- **The database of a server that has been set up always holds a store**,
and a call makes the store grow.

A step of a database becomes a step of a store, so from here on a run of the
server is one over stores, in which ids are distinct and every row has its
types. -/
theorem handler_store {s : Store F} {c : Cmd F} (hc : ServerCall c) {r : c.Resp}
    {d : Database F} (h : handler E faulty clock s.toDatabase c r d) :
    Answered c r ∧ ∃ s' : Store F, d = s'.toDatabase ∧ s.Grows s' := by
  cases hc with
  | lookup uuid =>
    obtain ⟨rfl, hr⟩ := Store.handler_lookup h
    refine ⟨?_, s, rfl, .refl s⟩
    rcases hr with rfl | ⟨-, rfl | ⟨what, rfl⟩⟩
    · unfold Store.lookup
      cases s.find (cstr uuid) with
      | none => exact fun v hv => absurd hv List.not_mem_nil
      | some c =>
        intro v hv
        rw [List.mem_singleton.mp hv]
        exact ⟨c.id, rfl⟩
    · exact fun v hv => absurd hv List.not_mem_nil
    · trivial
  | addClient uuid =>
    obtain ⟨s', rfl, ⟨-, -, hadds⟩ | ⟨rfl, -, -⟩⟩ := Store.handler_addClient h
    · exact ⟨trivial, s', rfl, hadds.grows⟩
    · exact ⟨trivial, s', rfl, .refl s'⟩
  | addPacket clientId data =>
    obtain ⟨s', rfl, ⟨-, -, -, hadds⟩ | ⟨rfl, -, -⟩⟩ := Store.handler_addPacket h
    · exact ⟨trivial, s', rfl, hadds.grows⟩
    · exact ⟨trivial, s', rfl, .refl s'⟩
  | listClients => exact ⟨trivial, s, (Store.handler_listClients h).1, .refl s⟩
  | listPackets clientId => exact ⟨trivial, s, (Store.handler_listPackets h).1, .refl s⟩
  | now => exact ⟨trivial, s, h.2, .refl s⟩
  | needExit => exact ⟨trivial, s, h, .refl s⟩
  | read => exact ⟨trivial, s, h.2, .refl s⟩
  | write stats => exact ⟨trivial, s, h.2, .refl s⟩

/-- The surroundings of a server, with the store in place of the database. -/
def storeHandler (E : Engine F) (faulty : Prop) (clock : Int → Prop) :
    Handler (Store F) (Cmd F) Cmd.Resp :=
  (handler E faulty clock).pull Store.toDatabase

theorem simulates_store :
    (handler E faulty clock).Simulates Store.toDatabase ServerCall Answered := by
  intro s c r d hc h
  obtain ⟨ha, s', hd, -⟩ := handler_store hc h
  exact ⟨ha, s', hd⟩

/-- **The surroundings always answer.**

Without it the statements about runs could be empty. -/
theorem exists_answer (E : Engine F) (faulty : Prop) {clock : Int → Prop}
    (hclock : ∃ n, clock n) (s : Store F) {c : Cmd F} (hc : ServerCall c) :
    ∃ r s', storeHandler E faulty clock s c r s' := by
  have hanswer : ∃ r d, handler E faulty clock s.toDatabase c r d := by
    cases hc with
    | lookup uuid => exact ⟨_, _, Faults.never, Or.inr rfl, rfl⟩
    | addClient uuid => exact ⟨_, _, Faults.never, Or.inr rfl, rfl⟩
    | addPacket clientId data => exact ⟨_, _, Faults.never, Or.inr rfl, rfl⟩
    | listClients => exact ⟨_, _, Faults.never, Or.inr rfl, rfl⟩
    | listPackets clientId => exact ⟨_, _, Faults.never, Or.inr rfl, rfl⟩
    | now => exact ⟨hclock.choose, _, hclock.choose_spec, rfl⟩
    | needExit => exact ⟨true, _, rfl⟩
    | read => exact ⟨.ok [], _, ⟨fun _ h => (nomatch h), rfl⟩⟩
    | write stats => exact ⟨.ok (), _, ⟨fun _ h => (nomatch h), rfl⟩⟩
  obtain ⟨r, d, h⟩ := hanswer
  obtain ⟨-, s', rfl, -⟩ := handler_store hc h
  exact ⟨r, s', h⟩

theorem storeHandler_grows {s s' : Store F} {c : Cmd F} (hc : ServerCall c) {r : c.Resp}
    (h : storeHandler E faulty clock s c r s') : s.Grows s' := by
  obtain ⟨-, s'', hd, hg⟩ := handler_store hc h
  rwa [Store.toDatabase_injective hd]

/-- **A program of the server runs to its end**, if it is left alone. -/
theorem exists_run (E : Engine F) (faulty : Prop) {clock : Int → Prop}
    (hclock : ∃ n, clock n) {α : Type} {Q : α → Prop} {p : ServerProg F α}
    (hp : p.Conforms ServerCall Answered Q) (s : Store F) :
    ∃ es q t, Steps (storeHandler E faulty clock) Eq p s es q t
      ∧ ((∃ a, q = .ret a) ∨ ∃ ex, q = .throw ex) := by
  induction p generalizing s with
  | ret a => exact ⟨[], _, s, .done rfl, Or.inl ⟨a, rfl⟩⟩
  | throw ex => exact ⟨[], _, s, .done rfl, Or.inr ⟨ex, rfl⟩⟩
  | call c k ih =>
    obtain ⟨r, s', h⟩ := exists_answer E faulty hclock s hp.1
    obtain ⟨es, q, t, hrun, hend⟩ := ih r (hp.2 r (handler_store hp.1 h).1) s'
    exact ⟨_, q, t, .own rfl h hrun, hend⟩

end Server

namespace Saving

/-! ## The machine

The phases are the calls of the source in the order of the source. The two lookups are
different phases, as the second must find what the first did not. -/

/-- **The phases of a save**: the call it is about to make, or how it
ended. -/
inductive Phase where
  /-- It looks the client up. -/
  | looking
  /-- There is none: it adds one. -/
  | registering
  /-- It has added one, and looks it up again. -/
  | lookingAgain
  /-- It knows the client, and adds the packet. -/
  | storing (clientId : Int)
  /-- It has returned. -/
  | stored
  /-- It has thrown. -/
  | failed (what : String)
  deriving DecidableEq

variable (data : ClientPacket.Data F)

/-- What the `catch` clause does with an exception.

The exception that leaves a save has another text than the one that was
caught, but there is one. -/
def rethrow : Exc → ServerProg F Unit
  | .nullString => .throw .nullString
  | ex => .throw (saveError ex)

/-- The save once it knows the client. -/
def storing (clientId : DBVariants F) : ServerProg F Unit :=
  .call (.insertOne PACKETS_TABLE_NAME (packetValues clientId data)) fun r =>
    match r with
    | .ok () => .ret ()
    | .error ex => rethrow ex

/-- The save from its second lookup on.

`client[0]` of an empty row throws, which happens if the second lookup fails
silently. -/
def lookingAgain : ServerProg F Unit :=
  .call (.selectOne CLIENTS_TABLE_NAME idColumns (some (whereUuid data.uuid)) none) fun r =>
    match r with
    | .ok [] => rethrow (.exception "invalid vector subscript")
    | .ok (first :: _) => storing data first.value
    | .error ex => rethrow ex

/-- The save from the insert of the client on. -/
def registering : ServerProg F Unit :=
  .call (.insertOne CLIENTS_TABLE_NAME (clientValues data.uuid)) fun r =>
    match r with
    | .ok () => lookingAgain data
    | .error ex => rethrow ex

/-- The save from its first lookup on. -/
def looking : ServerProg F Unit :=
  .call (.selectOne CLIENTS_TABLE_NAME idColumns (some (whereUuid data.uuid)) none) fun r =>
    match r with
    | .ok [] => registering data
    | .ok (first :: _) => storing data first.value
    | .error ex => rethrow ex

/-- The program that is left in a phase. -/
def Phase.prog : Phase → ServerProg F Unit
  | .looking => Saving.looking data
  | .registering => Saving.registering data
  | .lookingAgain => Saving.lookingAgain data
  | .storing clientId => Saving.storing data (.int64 clientId)
  | .stored => .ret ()
  | .failed what => .throw (.exception what)

omit [Double F] in
theorem insertOne_catch (tableName : String) (tableValues : List (TableValue F))
    (f : Unit → ServerProg F Unit) :
    Prog.catchStd ((insertOne tableName tableValues).bind f) (fun ex => .throw (saveError ex))
      = .call (.insertOne tableName tableValues) (fun r => match r with
        | .ok () => Prog.catchStd (f ()) (fun ex => .throw (saveError ex))
        | .error ex => rethrow ex) := by
  refine congrArg (Prog.call _) (funext fun r => ?_)
  cases r with
  | ok a => rfl
  | error ex => cases ex <;> rfl

omit [Double F] in
theorem selectOne_catch (tableName : String) (tableColumns : List TableColumn)
    (w : Option (WhereClause F)) (f : List (TableValue F) → ServerProg F Unit) :
    Prog.catchStd ((selectOne tableName tableColumns w).bind f)
        (fun ex => .throw (saveError ex))
      = .call (.selectOne tableName tableColumns w none) (fun r => match r with
        | .ok row => Prog.catchStd (f row) (fun ex => .throw (saveError ex))
        | .error ex => rethrow ex) := by
  refine congrArg (Prog.call _) (funext fun r => ?_)
  cases r with
  | ok a => rfl
  | error ex => cases ex <;> rfl

omit [Double F] in
/-- The end of a save. -/
theorem storing_eq (clientId : DBVariants F) :
    Prog.catchStd (insertOne PACKETS_TABLE_NAME (packetValues clientId data))
        (fun ex => .throw (saveError ex))
      = storing data clientId := by
  refine congrArg (Prog.call _) (funext fun r => ?_)
  cases r with
  | ok a => rfl
  | error ex => cases ex <;> rfl

omit [Double F] in
/-- **`saveClientPacket` is the machine.**

The packet type does not occur: the caller has looked at it. -/
theorem saveClientPacket_eq (type : Int) :
    saveClientPacket ⟨type, some data⟩ = Phase.looking.prog data := by
  show Prog.catchStd ((selectOne CLIENTS_TABLE_NAME idColumns
    (some (whereUuid data.uuid))).bind _) _ = looking data
  rw [selectOne_catch]
  refine congrArg (Prog.call _) (funext fun r => ?_)
  cases r with
  | error ex => rfl
  | ok row =>
    cases row with
    | cons first row => exact storing_eq data first.value
    | nil =>
      show Prog.catchStd ((insertOne CLIENTS_TABLE_NAME (clientValues data.uuid)).bind
        (fun _ => (selectOne CLIENTS_TABLE_NAME idColumns
          (some (whereUuid data.uuid))).bind _)) _ = registering data
      rw [insertOne_catch]
      refine congrArg (Prog.call _) (funext fun r => ?_)
      cases r with
      | error ex => rfl
      | ok u =>
        show Prog.catchStd ((selectOne CLIENTS_TABLE_NAME idColumns
          (some (whereUuid data.uuid))).bind _) _ = lookingAgain data
        rw [selectOne_catch]
        refine congrArg (Prog.call _) (funext fun r => ?_)
        cases r with
        | error ex => rfl
        | ok row =>
          cases row with
          | nil => rfl
          | cons first row => exact storing_eq data first.value

/-- **What a step of a save does.** `faulty` says that calls may fail. -/
inductive Step (faulty : Prop) (data : ClientPacket.Data F) :
    Phase → Store F → Phase → Store F → Prop
  /-- The client is found. -/
  | found {s : Store F} {c : Client} (h : s.find (cstr data.uuid) = some c) :
      Step faulty data .looking s (.storing c.id) s
  /-- No client is found: there is none, or the step of the lookup failed. -/
  | unknown {s : Store F} (h : faulty ∨ s.find (cstr data.uuid) = none) :
      Step faulty data .looking s .registering s
  /-- The lookup fails. -/
  | lookupFailed {s : Store F} (what : String) (h : faulty) :
      Step faulty data .looking s (.failed what) s
  /-- The client is added. -/
  | registered {s s' : Store F} (h : s.find (cstr data.uuid) = none)
      (hadds : s.AddsClient s' (cstr data.uuid)) :
      Step faulty data .registering s .lookingAgain s'
  /-- The client is not added: it has been in the meantime, or the call
  failed. -/
  | rejected {s : Store F} (what : String) (h : faulty ∨ s.find (cstr data.uuid) ≠ none) :
      Step faulty data .registering s (.failed what) s
  /-- The new client is found. -/
  | foundAgain {s : Store F} {c : Client} (h : s.find (cstr data.uuid) = some c) :
      Step faulty data .lookingAgain s (.storing c.id) s
  /-- The new client is not found. -/
  | vanished {s : Store F} (what : String) (h : faulty ∨ s.find (cstr data.uuid) = none) :
      Step faulty data .lookingAgain s (.failed what) s
  /-- The packet is added. -/
  | stored {s s' : Store F} {clientId : Int} (hx : Double.isNaN data.x = false)
      (hy : Double.isNaN data.y = false) (hadds : s.AddsPacket s' clientId data) :
      Step faulty data (.storing clientId) s .stored s'
  /-- The packet is not added: a coordinate is a NaN, or the call failed. -/
  | refused {s : Store F} {clientId : Int} (what : String)
      (h : faulty ∨ (Double.isNaN data.x || Double.isNaN data.y) = true) :
      Step faulty data (.storing clientId) s (.failed what) s

variable {data} {E : Engine F} {faulty : Prop} {clock : Int → Prop}

/-- The answer to a lookup, as a phase sees it. -/
theorem storeHandler_lookup {s s' : Store F} {r : Except Exc (List (TableValue F))}
    (h : storeHandler E faulty clock s
      (.selectOne CLIENTS_TABLE_NAME idColumns (some (whereUuid data.uuid)) none) r s') :
    s' = s ∧ ((∃ c, s.find (cstr data.uuid) = some c ∧ r = .ok (Store.idRow c))
      ∨ ((faulty ∨ s.find (cstr data.uuid) = none) ∧ r = .ok [])
      ∨ (faulty ∧ ∃ what, r = .error (.exception what))) := by
  have h : handler E faulty clock s.toDatabase (.selectOne CLIENTS_TABLE_NAME idColumns
    (some (whereUuid data.uuid)) none) r s'.toDatabase := h
  obtain ⟨hd, hr⟩ := Store.handler_lookup h
  refine ⟨Store.toDatabase_injective hd, ?_⟩
  rcases hr with rfl | ⟨hf, rfl | ⟨what, rfl⟩⟩
  · unfold Store.lookup
    cases hc : s.find (cstr data.uuid) with
    | none => exact Or.inr (Or.inl ⟨Or.inr rfl, rfl⟩)
    | some c => exact Or.inl ⟨c, rfl, rfl⟩
  · exact Or.inr (Or.inl ⟨Or.inl hf, rfl⟩)
  · exact Or.inr (Or.inr ⟨hf, what, rfl⟩)

/-- **A turn of a save is a step of its machine.**

Every statement about a save goes through this one: it says what the next
phase is and what has happened to the store, for each answer there can be. -/
theorem step {phase : Phase} {c : Cmd F} {k : c.Resp → ServerProg F Unit} {s s' : Store F}
    {r : c.Resp} (hp : phase.prog data = .call c k)
    (h : storeHandler E faulty clock s c r s') :
    ∃ phase' : Phase, k r = phase'.prog data ∧ Step faulty data phase s phase' s' := by
  cases phase with
  | looking =>
    cases hp
    obtain ⟨rfl, ⟨c, hc, rfl⟩ | ⟨hnone, rfl⟩ | ⟨hf, what, rfl⟩⟩ := storeHandler_lookup h
    · exact ⟨.storing c.id, rfl, .found hc⟩
    · exact ⟨.registering, rfl, .unknown hnone⟩
    · exact ⟨.failed _, rfl, .lookupFailed _ hf⟩
  | registering =>
    cases hp
    have h : handler E faulty clock s.toDatabase _ r s'.toDatabase := h
    obtain ⟨s'', hd, hr⟩ := Store.handler_addClient h
    obtain rfl := Store.toDatabase_injective hd
    rcases hr with ⟨rfl, hnone, hadds⟩ | ⟨rfl, ⟨what, rfl⟩, hcause⟩
    · exact ⟨.lookingAgain, rfl, .registered hnone hadds⟩
    · exact ⟨.failed _, rfl, .rejected _ hcause⟩
  | lookingAgain =>
    cases hp
    obtain ⟨rfl, ⟨c, hc, rfl⟩ | ⟨hnone, rfl⟩ | ⟨hf, what, rfl⟩⟩ := storeHandler_lookup h
    · exact ⟨.storing c.id, rfl, .foundAgain hc⟩
    · exact ⟨.failed _, rfl, .vanished _ hnone⟩
    · exact ⟨.failed _, rfl, .vanished _ (Or.inl hf)⟩
  | storing clientId =>
    cases hp
    have h : handler E faulty clock s.toDatabase _ r s'.toDatabase := h
    obtain ⟨s'', hd, hr⟩ := Store.handler_addPacket h
    obtain rfl := Store.toDatabase_injective hd
    rcases hr with ⟨rfl, hx, hy, hadds⟩ | ⟨rfl, ⟨what, rfl⟩, hcause⟩
    · exact ⟨.stored, rfl, .stored hx hy hadds⟩
    · exact ⟨.failed _, rfl, .refused _ hcause⟩
  | stored => cases hp
  | failed what => cases hp

theorem Step.grows {phase phase' : Phase} {s s' : Store F}
    (h : Step faulty data phase s phase' s') : s.Grows s' := by
  cases h with
  | registered h hadds => exact hadds.grows
  | stored hx hy hadds => exact hadds.grows
  | _ => exact .refl _

omit [Double F] in
theorem rethrow_conforms (ex : Exc) {pre : Cmd F → Prop} {post : (c : Cmd F) → c.Resp → Prop}
    {Q : Unit → Prop} : (rethrow ex : ServerProg F Unit).Conforms pre post Q := by
  cases ex <;> trivial

/-- **The calls of the save of one packet.** -/
inductive CallOf (data : ClientPacket.Data F) : Cmd F → Prop
  /-- It looks the client of the packet up. -/
  | lookup : CallOf data
      (.selectOne CLIENTS_TABLE_NAME idColumns (some (whereUuid data.uuid)) none)
  /-- It adds the client of the packet. -/
  | addClient : CallOf data (.insertOne CLIENTS_TABLE_NAME (clientValues data.uuid))
  /-- It adds the packet. -/
  | addPacket (clientId : Int) :
      CallOf data (.insertOne PACKETS_TABLE_NAME (packetValues (.int64 clientId) data))

omit [Double F] in
theorem CallOf.saveCall {data : ClientPacket.Data F} {c : Cmd F} (h : CallOf data c) :
    SaveCall c := by
  cases h with
  | lookup => exact .lookup data.uuid
  | addClient => exact .addClient data.uuid
  | addPacket clientId => exact .addPacket clientId data

omit [Double F] in
/-- A save makes only the calls of its packet.

Together with `Server.handler_store` it makes every run of a save one over
stores. -/
theorem Phase.calls (data : ClientPacket.Data F) (phase : Phase) :
    (phase.prog data).Conforms (CallOf data) Answered (fun _ => True) := by
  have hstoring : ∀ n, (Saving.storing data (.int64 n)).Conforms (CallOf data) Answered
      (fun _ => True) := by
    intro n
    refine ⟨.addPacket n, fun r _ => ?_⟩
    cases r with
    | ok u => trivial
    | error ex => exact rethrow_conforms ex
  have hagain : (Saving.lookingAgain data).Conforms (CallOf data) Answered
      (fun _ => True) := by
    refine ⟨.lookup, fun r hr => ?_⟩
    cases r with
    | error ex => exact rethrow_conforms ex
    | ok row =>
      cases row with
      | nil => exact rethrow_conforms _
      | cons first row =>
        obtain ⟨n, hn⟩ := hr first List.mem_cons_self
        show (Saving.storing data first.value).Conforms _ _ _
        rw [hn]
        exact hstoring n
  have hregistering : (Saving.registering data).Conforms (CallOf data) Answered
      (fun _ => True) := by
    refine ⟨.addClient, fun r _ => ?_⟩
    cases r with
    | ok u => exact hagain
    | error ex => exact rethrow_conforms ex
  cases phase with
  | looking =>
    refine ⟨.lookup, fun r hr => ?_⟩
    cases r with
    | error ex => exact rethrow_conforms ex
    | ok row =>
      cases row with
      | nil => exact hregistering
      | cons first row =>
        obtain ⟨n, hn⟩ := hr first List.mem_cons_self
        show (Saving.storing data first.value).Conforms _ _ _
        rw [hn]
        exact hstoring n
  | registering => exact hregistering
  | lookingAgain => exact hagain
  | storing n => exact hstoring n
  | stored => trivial
  | failed what => trivial

omit [Double F] in
/-- A save makes only the calls of a save. -/
theorem Phase.saves (data : ClientPacket.Data F) (phase : Phase) :
    (phase.prog data).Conforms SaveCall Answered (fun _ => True) :=
  (phase.calls data).mono (fun _ h => h.saveCall) (fun _ _ h => h) (fun _ h => h)

omit [Double F] in
theorem Phase.conforms (data : ClientPacket.Data F) (phase : Phase) :
    (phase.prog data).Conforms ServerCall Answered (fun _ => True) :=
  (phase.saves data).mono (fun _ h => h.serverCall) (fun _ _ h => h) (fun _ h => h)

omit [Double F] in
theorem saveClientPacket_saves (packet : ClientPacket F) :
    (saveClientPacket packet).Conforms SaveCall Answered (fun _ => True) := by
  obtain ⟨type, data⟩ := packet
  cases data with
  | none => trivial
  | some data =>
    rw [saveClientPacket_eq]
    exact Phase.saves data .looking

omit [Double F] in
theorem saveClientPacket_conforms (packet : ClientPacket F) :
    (saveClientPacket packet).Conforms ServerCall Answered (fun _ => True) :=
  (saveClientPacket_saves packet).mono (fun _ h => h.serverCall) (fun _ _ h => h)
    (fun _ h => h)

/-! ## A save by itself

Alone a save sees no store but its own, so what a phase has seen stays true, and the
phases can be described by the store at the start. -/

/-- The client of a uuid has been added to a store, unless it was there. -/
def Registered (s t : Store F) (uuid : Bytes) : Prop :=
  t = s ∨ (s.find uuid = none ∧ s.AddsClient t uuid)

/-- What a save that runs by itself has done, from a store `s₀` on.

With failing calls a save may believe that a client is new that is there; then
the insert is turned down by the constraint, and nothing is added. -/
def Phase.Alone (faulty : Prop) (data : ClientPacket.Data F) (s₀ : Store F) :
    Phase → Store F → Prop
  | .looking, s => s = s₀
  | .registering, s => s = s₀ ∧ (faulty ∨ s₀.find (cstr data.uuid) = none)
  | .lookingAgain, s =>
    s₀.find (cstr data.uuid) = none ∧ s₀.AddsClient s (cstr data.uuid)
  | .storing clientId, s =>
    s.find (cstr data.uuid) = some ⟨clientId, cstr data.uuid⟩
      ∧ Registered s₀ s (cstr data.uuid)
  | .stored, t => ∃ s clientId,
    s.find (cstr data.uuid) = some ⟨clientId, cstr data.uuid⟩
      ∧ Registered s₀ s (cstr data.uuid) ∧ s.AddsPacket t clientId data
  | .failed _, s => Registered s₀ s (cstr data.uuid)
      ∧ (faulty ∨ (Double.isNaN data.x || Double.isNaN data.y) = true)

theorem find_mk {s : Store F} {uuid : Bytes} {c : Client} (h : s.find uuid = some c) :
    s.find uuid = some ⟨c.id, uuid⟩ := by
  have := (s.find_eq_some_iff.mp h).2
  rw [h, ← this]

theorem AddsClient.find {s t : Store F} {uuid : Bytes} (h : s.AddsClient t uuid) :
    ∃ id, t.find uuid = some ⟨id, uuid⟩ := by
  obtain ⟨id, hc, -⟩ := h
  exact ⟨id, t.find_eq_some_iff.mpr ⟨hc ▸ List.mem_append_right _ List.mem_cons_self, rfl⟩⟩

theorem Step.alone {phase phase' : Phase} {s₀ s s' : Store F}
    (h : Step faulty data phase s phase' s') (hs : phase.Alone faulty data s₀ s) :
    phase'.Alone faulty data s₀ s' := by
  cases h with
  | found hc =>
    exact ⟨find_mk hc, Or.inl hs⟩
  | unknown h =>
    cases hs
    exact ⟨rfl, h⟩
  | lookupFailed what h => exact ⟨Or.inl hs, Or.inl h⟩
  | registered h hadds =>
    obtain ⟨rfl, -⟩ := hs
    exact ⟨h, hadds⟩
  | rejected what h =>
    obtain ⟨rfl, hs⟩ := hs
    refine ⟨Or.inl rfl, Or.inl ?_⟩
    rcases h with h | h
    · exact h
    · exact hs.resolve_right h
  | foundAgain hc => exact ⟨find_mk hc, Or.inr hs⟩
  | vanished what h =>
    refine ⟨Or.inr hs, Or.inl (h.resolve_right ?_)⟩
    obtain ⟨id, hid⟩ := AddsClient.find hs.2
    rw [hid]
    exact Option.some_ne_none _
  | stored hx hy hadds => exact ⟨_, _, hs.1, hs.2, hadds⟩
  | refused what h => exact ⟨hs.2, h⟩

/-- **What a save that runs by itself does**, wherever it is stopped.

It is also said of all stores on the way, since a process may die anywhere. -/
theorem steps_alone {phase : Phase} {s₀ s t : Store F} {q : ServerProg F Unit}
    {es : List (Event (Store F) (Cmd F) Cmd.Resp)}
    (h : Steps (storeHandler E faulty clock) Eq (phase.prog data) s es q t)
    (hs : phase.Alone faulty data s₀ s) :
    (∃ phase' : Phase, q = phase'.prog data ∧ phase'.Alone faulty data s₀ t)
      ∧ ∀ e ∈ es, (∃ phase' : Phase, phase'.Alone faulty data s₀ e.pre)
        ∧ ∃ phase' : Phase, phase'.Alone faulty data s₀ e.post := by
  generalize hp : phase.prog data = p at h
  induction h generalizing phase with
  | done hr =>
    subst hr
    exact ⟨⟨phase, hp.symm, hs⟩, by simp⟩
  | own hr hc _ ih =>
    subst hr
    obtain ⟨phase', hk, hstep⟩ := step hp hc
    obtain ⟨hend, hes⟩ := ih (hstep.alone hs) hk.symm
    exact ⟨hend, List.forall_mem_cons.mpr
      ⟨⟨⟨phase, hs⟩, phase', hstep.alone hs⟩, hes⟩⟩

/-! ## How much a save writes

Among other saves nothing can be said about the store as a whole, but the events of
one save can be counted. A phase has so much left to write, each step uses up what it
writes, and so the sum is bounded by what the first phase has. -/

/-- The number of clients that events have added. -/
def clientsAdded (es : List (Event (Store F) (Cmd F) Cmd.Resp)) : ℕ :=
  (es.map fun e => e.post.clients.length - e.pre.clients.length).sum

/-- The number of packets that events have added. -/
def packetsAdded (es : List (Event (Store F) (Cmd F) Cmd.Resp)) : ℕ :=
  (es.map fun e => e.post.packets.length - e.pre.packets.length).sum

/-- The number of clients a save may still add. -/
def Phase.clientsLeft : Phase → ℕ
  | .looking => 1
  | .registering => 1
  | _ => 0

/-- The number of packets a save may still add. -/
def Phase.packetsLeft : Phase → ℕ
  | .stored => 0
  | .failed _ => 0
  | _ => 1

theorem Phase.packetsLeft_le_one (phase : Phase) : phase.packetsLeft ≤ 1 := by
  cases phase <;> simp [Phase.packetsLeft]

/-- A step writes at most what its phase had left to write, and writes a
packet when it ends in `stored`.

The subtractions are of natural numbers, and a step never removes a row. -/
theorem Step.writes {phase phase' : Phase} {s s' : Store F}
    (h : Step faulty data phase s phase' s') :
    s'.clients.length - s.clients.length + phase'.clientsLeft ≤ phase.clientsLeft
      ∧ s'.packets.length - s.packets.length + phase'.packetsLeft ≤ phase.packetsLeft
      ∧ (phase' = .stored → s'.packets.length - s.packets.length = 1) := by
  cases h with
  | registered h hadds =>
    obtain ⟨id, hc, hp⟩ := hadds
    simp [hc, hp, Phase.clientsLeft, Phase.packetsLeft]
  | stored hx hy hadds =>
    obtain ⟨id, hc, hp⟩ := hadds
    simp [hc, hp, Phase.clientsLeft, Phase.packetsLeft]
  | _ => simp [Phase.clientsLeft, Phase.packetsLeft]

/-- **A save adds at most one client and at most one packet**, among whatever
others, and exactly one packet if it returns.

The `Rely` is arbitrary: what others do between the steps does not count. -/
theorem steps_writes {Rely : Store F → Store F → Prop} {phase : Phase} {s t : Store F}
    {q : ServerProg F Unit} {es : List (Event (Store F) (Cmd F) Cmd.Resp)}
    (h : Steps (storeHandler E faulty clock) Rely (phase.prog data) s es q t) :
    ∃ phase' : Phase, q = phase'.prog data
      ∧ clientsAdded es + phase'.clientsLeft ≤ phase.clientsLeft
      ∧ packetsAdded es + phase'.packetsLeft ≤ phase.packetsLeft
      ∧ (phase' = .stored → phase = .stored ∨ packetsAdded es = 1) := by
  generalize hp : phase.prog data = p at h
  induction h generalizing phase with
  | done hr => exact ⟨phase, hp.symm, by simp [clientsAdded], by simp [packetsAdded], Or.inl⟩
  | own hr hc _ ih =>
    obtain ⟨phase₁, hk, hstep⟩ := step hp hc
    obtain ⟨phase', hq, hcs, hps, hstored⟩ := ih hk.symm
    obtain ⟨hc₁, hp₁, hs₁⟩ := hstep.writes
    unfold clientsAdded packetsAdded at *
    rw [List.map_cons, List.sum_cons, List.map_cons, List.sum_cons]
    dsimp only
    have hle := phase.packetsLeft_le_one
    refine ⟨phase', hq, by omega, by omega, fun h => Or.inr ?_⟩
    rcases hstored h with rfl | h₁
    · have := hs₁ rfl
      have hleft : Phase.stored.packetsLeft = 0 := rfl
      omega
    · omega

/-- A save that is about to make a call makes it. -/
theorem exists_step (E : Engine F) (faulty : Prop) (hclock : ∃ n, clock n)
    (data : ClientPacket.Data F) (s : Store F) (phase : Phase)
    (hphase : phase ≠ .stored ∧ ∀ what, phase ≠ .failed what) :
    ∃ (c : Cmd F) (k : c.Resp → ServerProg F Unit) (r : c.Resp) (s' : Store F)
      (phase' : Phase), phase.prog data = .call c k ∧ k r = phase'.prog data
        ∧ storeHandler E faulty clock s c r s'
        ∧ Step faulty data phase s phase' s' := by
  have hcall : ∃ (c : Cmd F) (k : c.Resp → ServerProg F Unit),
      phase.prog data = .call c k := by
    cases phase with
    | stored => exact absurd rfl hphase.1
    | failed what => exact absurd rfl (hphase.2 what)
    | _ => exact ⟨_, _, rfl⟩
  obtain ⟨c, k, hp⟩ := hcall
  have hc := Phase.conforms data phase
  rw [hp] at hc
  obtain ⟨r, s', h⟩ := exists_answer E faulty hclock s hc.1
  obtain ⟨phase', hk, hstep⟩ := step hp h
  exact ⟨c, k, r, s', phase', hp, hk, h, hstep⟩

/-- **A save by itself that meets no failure** finds or adds its client, and
then adds its packet – unless a coordinate is a NaN, when it throws.

A NaN is bound as `NULL`, and the columns are `NOT NULL`: the insert of the
packet is turned down, after the client has been added. -/
theorem exists_alone (E : Engine F) (hclock : ∃ n, clock n) (s : Store F)
    (data : ClientPacket.Data F) :
    ∃ es q t m clientId,
      Steps (storeHandler E False clock) Eq (Phase.looking.prog data) s es q t
        ∧ m.find (cstr data.uuid) = some ⟨clientId, cstr data.uuid⟩
        ∧ Registered s m (cstr data.uuid)
        ∧ if (Double.isNaN data.x || Double.isNaN data.y) = true
          then t = m ∧ ∃ what, q = .throw (.exception what)
          else q = .ret () ∧ m.AddsPacket t clientId data := by
  -- what is left once the client is known
  have hstoring : ∀ m clientId, ∃ es q t,
      Steps (storeHandler E False clock) Eq ((Phase.storing clientId).prog data)
        m es q t
      ∧ if (Double.isNaN data.x || Double.isNaN data.y) = true
        then t = m ∧ ∃ what, q = .throw (.exception what)
        else q = .ret () ∧ m.AddsPacket t clientId data := by
    intro m clientId
    obtain ⟨c, k, r, t, phase', hp, hk, hH, hstep⟩ := exists_step E False hclock data m
      (.storing clientId) ⟨by simp, by simp⟩
    rw [hp]
    refine ⟨_, k r, t, .own rfl hH (.done rfl), ?_⟩
    rw [hk]
    cases hstep with
    | stored hx hy hadds =>
      rw [hx, hy]
      exact ⟨rfl, hadds⟩
    | refused what h =>
      rw [if_pos (h.resolve_left id)]
      exact ⟨rfl, what, rfl⟩
  obtain ⟨c₁, k₁, r₁, s₁, phase₁, hp₁, hk₁, hH₁, hstep₁⟩ := exists_step E False
    hclock data s .looking ⟨by simp, by simp⟩
  cases hstep₁ with
  | lookupFailed what h => exact h.elim
  | @found _ c h =>
    obtain ⟨es, q, t, hrun, hend⟩ := hstoring s c.id
    have hrun₁ : Steps (storeHandler E False clock) Eq (Phase.looking.prog data) s
        (⟨s, c₁, r₁, s⟩ :: es) q t := by
      rw [hp₁]
      exact .own rfl hH₁ (hk₁ ▸ hrun)
    exact ⟨_, q, t, s, c.id, hrun₁, find_mk h, Or.inl rfl, hend⟩
  | unknown h =>
    have hnone := h.resolve_left id
    obtain ⟨c₂, k₂, r₂, m, phase₂, hp₂, hk₂, hH₂, hstep₂⟩ := exists_step E False
      hclock data s .registering ⟨by simp, by simp⟩
    cases hstep₂ with
    | rejected what h => exact (h.resolve_left id hnone).elim
    | registered _ hadds =>
      obtain ⟨c₃, k₃, r₃, m', phase₃, hp₃, hk₃, hH₃, hstep₃⟩ := exists_step E False
        hclock data m .lookingAgain ⟨by simp, by simp⟩
      cases hstep₃ with
      | vanished what h =>
        obtain ⟨id, hid⟩ := AddsClient.find hadds
        rw [h.resolve_left fun h => h] at hid
        cases hid
      | @foundAgain _ c hc =>
        obtain ⟨es, q, t, hrun, hend⟩ := hstoring m c.id
        have hrun₁ : Steps (storeHandler E False clock) Eq (Phase.looking.prog data) s
            (⟨s, c₁, r₁, s⟩ :: ⟨s, c₂, r₂, m⟩ :: ⟨m, c₃, r₃, m⟩ :: es) q t := by
          rw [hp₁]
          refine .own rfl hH₁ ?_
          rw [hk₁, hp₂]
          refine .own rfl hH₂ ?_
          rw [hk₂, hp₃]
          exact .own rfl hH₃ (hk₃ ▸ hrun)
        exact ⟨_, q, t, m, c.id, hrun₁, find_mk hc, Or.inr ⟨hnone, hadds⟩, hend⟩

/-- **The first save of all** adds a client and a packet of it. -/
theorem exists_first (E : Engine F) (hclock : ∃ n, clock n) (data : ClientPacket.Data F)
    (hx : Double.isNaN data.x = false) (hy : Double.isNaN data.y = false) :
    ∃ es t id packetId,
      Steps (storeHandler E False clock) Eq (Phase.looking.prog data) Store.empty es (.ret ()) t
        ∧ t.clients = [⟨id, cstr data.uuid⟩]
        ∧ t.packets = [⟨packetId, id, data.timestamp, data.x, data.y⟩] := by
  obtain ⟨es, q, t, m, clientId, hrun, hfind, hregistered, hend⟩ :=
    exists_alone E hclock Store.empty data
  rw [hx, hy] at hend
  obtain ⟨rfl, packetId, hcs, hps⟩ := hend
  obtain ⟨-, id, hcs', hps'⟩ := hregistered.resolve_left fun h => by
    rw [h] at hfind
    cases hfind
  -- the client it has found is the one it has added
  have hid : clientId = id := by
    have hmem := (m.find_eq_some_iff.mp hfind).1
    rw [hcs'] at hmem
    exact congrArg Client.id (List.mem_singleton.mp hmem)
  refine ⟨es, t, id, packetId, hrun, hcs.trans hcs', ?_⟩
  rw [hps, hps', hid]
  rfl

/-! ## A save is not a transaction

What a save that throws has done before stays done, since the calls are not put
between a `BEGIN` and a `COMMIT`. What it leaves is small, and it is known exactly. -/

/-- A packet of a client not seen before, with a coordinate that is a NaN. -/
def nanPacket : ClientPacket Binary64 :=
  ⟨ClientPacket.DATA, some ⟨[97], 0, ⟨0x7FF8000000000000⟩, ⟨0⟩⟩⟩

/-- No call fails, and the packet is an ordinary one but for its coordinate:
the insert of the client succeeds, that of the packet is turned down. -/
theorem exists_nanPacket_run :
    ∃ es what id, ∃ t : Store Binary64,
      Steps (handler (Engine.reference : Engine Binary64) False (fun _ => True)) Eq
        (saveClientPacket nanPacket) Store.empty.toDatabase es (.throw (.exception what))
        t.toDatabase
      ∧ t.find [97] = some ⟨id, [97]⟩ := by
  obtain ⟨es, q, t, m, clientId, hrun, hfind, -, hend⟩ := exists_alone
    (Engine.reference : Engine Binary64)
    (show ∃ n, (fun _ : Int => True) n from ⟨0, trivial⟩) Store.empty
    ⟨[97], 0, ⟨0x7FF8000000000000⟩, ⟨0⟩⟩
  have hnan : (Double.isNaN (⟨0x7FF8000000000000⟩ : Binary64)
    || Double.isNaN (⟨0⟩ : Binary64)) = true := by decide
  rw [if_pos hnan] at hend
  obtain ⟨rfl, what, rfl⟩ := hend
  have hsave : saveClientPacket nanPacket = Phase.looking.prog _ := saveClientPacket_eq _ _
  exact ⟨_, what, clientId, t, hsave ▸ hrun.unlift, hfind⟩

/-- **A save that throws may leave a client behind.** -/
theorem saveClientPacket_not_atomic :
    ∃ es what d, Steps (handler (Engine.reference : Engine Binary64) False (fun _ => True)) Eq
        (saveClientPacket nanPacket) Store.empty.toDatabase es (.throw (.exception what)) d
      ∧ d ≠ Store.empty.toDatabase := by
  obtain ⟨es, what, id, t, hrun, hfind⟩ := exists_nanPacket_run
  refine ⟨es, what, _, hrun, fun h => ?_⟩
  rw [Store.toDatabase_injective h] at hfind
  cases hfind

/-- **A save that throws has added no packet, and at most its client.** From
any store and whichever calls fail, the packets are what they were, and so
are the clients unless one was added for the uuid of the packet, which had
none.

It needs no assumption about what has failed: the two inserts are in this
order, and the second is the last call. -/
theorem saveClientPacket_throws {packet : ClientPacket F} {s : Store F} {ex : Exc}
    {es : List (Event (Database F) (Cmd F) Cmd.Resp)} {d : Database F}
    (h : Steps (handler E faulty clock) Eq (saveClientPacket packet) s.toDatabase es
      (.throw ex) d) :
    ∃ t : Store F, d = t.toDatabase ∧ t.packets = s.packets
      ∧ (t.clients = s.clients
        ∨ ∃ data id, packet.data = some data ∧ s.find (cstr data.uuid) = none
          ∧ t.clients = s.clients ++ [⟨id, cstr data.uuid⟩]) := by
  obtain ⟨type, data⟩ := packet
  cases data with
  | none =>
    obtain ⟨-, hq, -⟩ := h.ret_inv
    cases hq
  | some data =>
    rw [saveClientPacket_eq] at h
    obtain ⟨t, es', rfl, -, hrun, -⟩ := h.lift simulates_store (Phase.conforms data .looking)
    obtain ⟨⟨phase', hq, halone⟩, -⟩ :=
      steps_alone hrun (show Phase.looking.Alone faulty data s s from rfl)
    refine ⟨t, rfl, ?_⟩
    cases phase' with
    | failed what =>
      rcases halone.1 with rfl | ⟨hnone, id, hc, hp⟩
      · exact ⟨rfl, Or.inl rfl⟩
      · exact ⟨hp, Or.inr ⟨data, id, rfl, hnone, hc⟩⟩
    | _ => cases hq

/-- In particular the packet with a NaN: its save throws, it has not added the
packet, and the client it has added stays. -/
theorem nanPacket_throws :
    ∃ es what id, ∃ t : Store Binary64,
      Steps (handler (Engine.reference : Engine Binary64) False (fun _ => True)) Eq
        (saveClientPacket nanPacket) Store.empty.toDatabase es (.throw (.exception what))
        t.toDatabase
      ∧ t.packets = [] ∧ t.clients = [⟨id, [97]⟩] := by
  obtain ⟨es, what, id, t, hrun, hfind⟩ := exists_nanPacket_run
  obtain ⟨t', ht, hpackets, hclients⟩ := saveClientPacket_throws hrun
  obtain rfl := Store.toDatabase_injective ht
  rcases hclients with hclients | ⟨data, id', hdata, -, hclients⟩
  · -- the client that was found would not be there
    rw [Store.find, hclients] at hfind
    cases hfind
  · cases hdata
    exact ⟨es, what, id', t, hrun, hpackets, hclients⟩

end Saving
