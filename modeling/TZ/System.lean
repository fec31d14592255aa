import TZ.Collecting

/-!
# The server over its whole life

A database file outlives the processes that use it. A *history* is a
sequence of epochs: a process starts, sets its tables up, runs any number of
saves and collections side by side, and dies between any two of its calls;
the next process finds what is left. Any call may fail at any time.

Nothing but the order of the calls of a save keeps the two tables together:
there is no foreign key and no transaction. That order is enough
(`History.integrity`). A packet is added only by a save that has read the
id of its client, clients are never removed, and a save that is cut short
has added its client at most.

The unit of time is a call on the database, and everything that can go wrong does so
between two of them: a call fails, another connection takes a turn, the process is
killed. So a history is built from two relations that are already there, the runs of a
program and the interleavings of a family, and from a death, which is nothing but a run
that is not continued.

The invariant that is carried along a history, `Sound`, is about more than the store. To
say that a row is that of a save one has to remember the saves; that is why an epoch
keeps the list of its turns, and why the statement is about histories and not about
reachable states.
-/

open Server

variable {F : Type} [Double F]

/-! ## Rows

A file may be in a state no server leaves on purpose: set up half-way, with one table
or none. The rows of a table that does not exist are none, so growth can be said of
all files. -/

namespace Database

omit [Double F]

/-- The rows of a table; a table that does not exist has none. -/
def rowsOf (d : Database F) (name : String) : List (List (Cell F)) :=
  ((d.find name).map Table.rows).getD []

/-- **No row has been changed or removed.**

Appending is all that ever happens to a table: there is no UPDATE and no
DELETE in the source. -/
def Grows (d d' : Database F) : Prop := ∀ name, d.rowsOf name <+: d'.rowsOf name

theorem Grows.refl (d : Database F) : d.Grows d := fun _ => List.prefix_rfl

theorem Grows.trans {d d' d'' : Database F} (h : d.Grows d') (h' : d'.Grows d'') :
    d.Grows d'' := fun name => (h name).trans (h' name)

end Database

namespace Store

@[simp] theorem rowsOf_clients (s : Store F) :
    s.toDatabase.rowsOf CLIENTS_TABLE_NAME = s.clients.map Client.cells := by
  rw [Database.rowsOf, find_clients]
  rfl

@[simp] theorem rowsOf_packets (s : Store F) :
    s.toDatabase.rowsOf PACKETS_TABLE_NAME = s.packets.map Packet.cells := by
  rw [Database.rowsOf, find_packets]
  rfl

/-- The rows of a table that holds a store are its clients, its packets, or
none. -/
theorem rowsOf_toDatabase (s : Store F) (name : String) :
    s.toDatabase.rowsOf name
      = if SqlText.sameWord CLIENTS_TABLE_NAME name then s.clients.map Client.cells
        else if SqlText.sameWord PACKETS_TABLE_NAME name then s.packets.map Packet.cells
        else [] := by
  unfold Database.rowsOf Database.find toDatabase
  rw [List.find?_cons, List.find?_cons]
  show (Option.map Table.rows (match SqlText.sameWord CLIENTS_TABLE_NAME name with
    | true => _
    | false => match SqlText.sameWord PACKETS_TABLE_NAME name with
      | true => _
      | false => _)).getD [] = _
  cases SqlText.sameWord CLIENTS_TABLE_NAME name <;>
    cases SqlText.sameWord PACKETS_TABLE_NAME name <;> rfl

theorem Grows.toDatabase {s t : Store F} (h : s.Grows t) :
    s.toDatabase.Grows t.toDatabase := by
  intro name
  rw [rowsOf_toDatabase, rowsOf_toDatabase]
  split_ifs
  · exact h.clients.map _
  · exact h.packets.map _
  · exact List.prefix_rfl

end Store

/-- **What a database file holds**: the two tables of a store – or, before the
server has ever been set up, no table or only the first, which hold
nothing. -/
def Database.Holds (d : Database F) (s : Store F) : Prop :=
  d = s.toDatabase ∨ (s = Store.empty ∧ (d = [] ∨ d = [Store.clientsTable []]))

theorem Database.Holds.rowsOf {d : Database F} {s : Store F} (h : d.Holds s) (name : String) :
    d.rowsOf name = s.toDatabase.rowsOf name := by
  rcases h with rfl | ⟨rfl, rfl | rfl⟩
  · rfl
  · rw [Store.rowsOf_toDatabase]
    split_ifs <;> rfl
  · rw [Store.rowsOf_toDatabase]
    unfold Database.rowsOf Database.find
    rw [List.find?_cons]
    show (Option.map Table.rows (match SqlText.sameWord CLIENTS_TABLE_NAME name with
      | true => _
      | false => none)).getD [] = _
    cases SqlText.sameWord CLIENTS_TABLE_NAME name with
    | true => rfl
    | false => split_ifs <;> rfl

theorem Database.Holds.grows {d d' : Database F} {s s' : Store F} (h : d.Holds s)
    (h' : d'.Holds s') (hg : s.Grows s') : d.Grows d' := by
  intro name
  rw [h.rowsOf, h'.rowsOf]
  exact hg.toDatabase name

/-! ## Starting the server

The two tables are created by two calls, each of which may fail. A server that finds
the first and not the second is one whose predecessor died in between. -/

namespace Server

variable {E : Engine F} {faulty : Prop} {clock : Int → Prop}

/-- A call that creates a table creates it, or fails and changes nothing. -/
theorem handler_createTable {tableName : String} {tableColumns : List TableColumn}
    {d d' d₁ : Database F} {r : Except Exc Unit} (htable : SqlText.Plain tableName)
    (hne : tableColumns ≠ []) (hcols : ∀ x ∈ tableColumns, SqlText.Plain x.name)
    (hd : d.createTable tableName tableColumns = .ok d₁)
    (h : handler E faulty clock d (.createTable tableName tableColumns) r d') :
    (r = .ok () ∧ d' = d₁) ∨ (faulty ∧ (∃ e, r = .error e) ∧ d' = d) := by
  obtain ⟨φ, hφ, hrun⟩ := h
  obtain ⟨c, cs, rfl⟩ := List.exists_cons_of_ne_nil hne
  obtain ⟨hfail, hdone⟩ := Engine.perform_createTable (E := E) (φ := φ) (d := d) htable hcols
  by_cases hexec : φ.exec = none
  · have hdone := hdone hexec
    rw [hd] at hdone
    have hrd := hrun.trans hdone
    exact Or.inl ⟨congrArg Prod.fst hrd, congrArg Prod.snd hrd⟩
  · obtain ⟨e, hperform⟩ := hfail hexec
    have hrd := hrun.trans hperform
    refine Or.inr ⟨hφ.resolve_right ?_, ⟨e, congrArg Prod.fst hrd⟩, congrArg Prod.snd hrd⟩
    rintro rfl
    exact hexec rfl

/-- The tables of the server are created if they do not exist. -/
theorem createTable_holds {d : Database F} {s : Store F} (h : d.Holds s) :
    ∃ d₁, d.createTable CLIENTS_TABLE_NAME clientsColumns = .ok d₁ ∧ d₁.Holds s
      ∧ d₁.createTable PACKETS_TABLE_NAME packetsColumns = .ok s.toDatabase := by
  have hexists : s.toDatabase.createTable CLIENTS_TABLE_NAME clientsColumns
        = .ok s.toDatabase
      ∧ s.toDatabase.createTable PACKETS_TABLE_NAME packetsColumns = .ok s.toDatabase := by
    simp [Database.createTable]
  have hclients : ∀ d : Database F, (d.find CLIENTS_TABLE_NAME).isSome = false →
      d.createTable CLIENTS_TABLE_NAME clientsColumns
        = .ok (d ++ [Store.clientsTable []]) := by
    intro d hd
    unfold Database.createTable
    rw [hd, if_neg Bool.false_ne_true, if_neg (by decide), if_neg (by decide)]
    rfl
  have hpackets : ∀ d : Database F, (d.find PACKETS_TABLE_NAME).isSome = false →
      d.createTable PACKETS_TABLE_NAME packetsColumns
        = .ok (d ++ [Store.packetsTable []]) := by
    intro d hd
    unfold Database.createTable
    rw [hd, if_neg Bool.false_ne_true, if_neg (by decide), if_neg (by decide)]
    rfl
  have hfind : Database.find ([Store.clientsTable []] : Database F) PACKETS_TABLE_NAME
      = none := by
    simp [Database.find, Store.clientsTable, Store.tables_differ.1]
  rcases h with rfl | ⟨rfl, rfl | rfl⟩
  · exact ⟨s.toDatabase, hexists.1, Or.inl rfl, hexists.2⟩
  · exact ⟨_, hclients [] rfl, Or.inr ⟨rfl, Or.inr rfl⟩, hpackets _ (congrArg Option.isSome hfind)⟩
  · refine ⟨[Store.clientsTable []], ?_, Or.inr ⟨rfl, Or.inr rfl⟩,
      hpackets _ (congrArg Option.isSome hfind)⟩
    simp [Database.createTable, Database.find, Store.clientsTable]

/-- **Starting a server changes no row**, whether or not it gets to its end;
and when it does, both tables are there. It throws only if a call fails.

It is said of every run, also one that is broken off, for the process may die
here too. -/
theorem construct_steps {d d' : Database F} {s : Store F} {q : ServerProg F Unit}
    {es : List (Event (Database F) (Cmd F) Cmd.Resp)} (hd : d.Holds s)
    (h : Steps (handler E faulty clock) Eq construct d es q d') :
    d'.Holds s ∧ (q = .ret () → d' = s.toDatabase) ∧ (∀ ex, q = .throw ex → faulty)
      ∧ ∀ e ∈ es, e.pre.Holds s ∧ e.post.Holds s := by
  obtain ⟨d₁, hd₁, hholds₁, hd₂⟩ := createTable_holds hd
  rcases Steps.call_inv h with ⟨rfl, rfl, rfl⟩ | ⟨_, r, m, es', rfl, rfl, hc, rest⟩
  · exact ⟨hd, nofun, nofun, by simp⟩
  · rcases handler_createTable plain_tables.1 (List.cons_ne_nil _ _) plain_clientsColumns
      hd₁ hc with ⟨rfl, rfl⟩ | ⟨hf, ⟨e, rfl⟩, rfl⟩
    · rcases Steps.call_inv rest with ⟨rfl, rfl, rfl⟩ | ⟨_, r, m, es'', rfl, rfl, hc, last⟩
      · exact ⟨hholds₁, nofun, nofun,
          List.forall_mem_cons.mpr ⟨⟨hd, hholds₁⟩, by simp⟩⟩
      · rcases handler_createTable plain_tables.2 (List.cons_ne_nil _ _)
          plain_packetsColumns hd₂ hc with ⟨rfl, rfl⟩ | ⟨hf, ⟨e, rfl⟩, rfl⟩
        · have last : Steps _ Eq (.ret ()) _ es'' q d' := last
          obtain ⟨rfl, rfl, rfl⟩ := last.ret_inv
          exact ⟨Or.inl rfl, fun _ => rfl, nofun, List.forall_mem_cons.mpr ⟨⟨hd, hholds₁⟩,
            List.forall_mem_cons.mpr ⟨⟨hholds₁, Or.inl rfl⟩, by simp⟩⟩⟩
        · have last : Steps _ Eq (.throw e) _ es'' q d' := last
          obtain ⟨rfl, rfl, rfl⟩ := last.throw_inv
          exact ⟨hholds₁, nofun, fun _ _ => hf, List.forall_mem_cons.mpr ⟨⟨hd, hholds₁⟩,
            List.forall_mem_cons.mpr ⟨⟨hholds₁, hholds₁⟩, by simp⟩⟩⟩
    · have rest : Steps _ Eq (.throw e) _ es' q d' := rest
      obtain ⟨rfl, rfl, rfl⟩ := rest.throw_inv
      exact ⟨hd, nofun, fun _ _ => hf, List.forall_mem_cons.mpr ⟨⟨hd, hd⟩, by simp⟩⟩

/-- **A server that meets no failure sets its tables up.** -/
theorem exists_construct (E : Engine F) (faulty : Prop) (clock : Int → Prop)
    {d : Database F} {s : Store F} (hd : d.Holds s) :
    ∃ es, Steps (handler E faulty clock) Eq construct d es (.ret ()) s.toDatabase := by
  obtain ⟨d₁, hd₁, -, hd₂⟩ := createTable_holds hd
  have hcreate : ∀ {tableName : String} {tableColumns : List TableColumn} {d d₁ : Database F},
      SqlText.Plain tableName → tableColumns ≠ [] →
      (∀ x ∈ tableColumns, SqlText.Plain x.name) →
      d.createTable tableName tableColumns = .ok d₁ →
      handler E faulty clock d (.createTable tableName tableColumns) (.ok ()) d₁ := by
    intro tableName tableColumns d d₁ htable hne hcols hd
    obtain ⟨c, cs, rfl⟩ := List.exists_cons_of_ne_nil hne
    have hdone := (Engine.perform_createTable (E := E) (φ := Faults.never) (d := d) htable
      hcols).2 rfl
    rw [hd] at hdone
    exact ⟨Faults.never, Or.inr rfl, hdone.symm⟩
  exact ⟨_, .own rfl
    (hcreate plain_tables.1 (List.cons_ne_nil _ _) plain_clientsColumns hd₁)
    (.own rfl (hcreate plain_tables.2 (List.cons_ne_nil _ _) plain_packetsColumns hd₂)
      (.done rfl))⟩

end Server

/-! ## Saves and collections side by side

An execution is one save or one collection. A connection of the server runs them one
after another, which is a special case: a family of executions in which one waits for
the other. -/

/-- What an execution of the server does. -/
inductive Job (F : Type) where
  /-- It saves a packet. -/
  | save (packet : ClientPacket F)
  /-- It collects the statistics. -/
  | collect

/-- The program of an execution. -/
def Job.prog : Job F → ServerProg F Unit
  | .save packet => saveClientPacket packet
  | .collect => do
    let _ ← collectStatistics
    .ret ()

/-- What a save knows of the store: once it has read the id of its client,
the client is there.

This is the only thing a save has to remember of the store, and it cannot
become false, since clients are not removed. -/
def Saving.Phase.Known (data : ClientPacket.Data F) : Saving.Phase → Store F → Prop
  | .storing clientId, s => ⟨clientId, cstr data.uuid⟩ ∈ s.clients
  | _, _ => True

/-- What a save knows it still knows when the store has grown. -/
theorem Saving.Phase.Known.grows {data : ClientPacket.Data F} {phase : Saving.Phase}
    {s t : Store F} (h : phase.Known data s) (hg : s.Grows t) : phase.Known data t := by
  cases phase with
  | storing clientId => exact hg.clients.subset h
  | _ => trivial

/-- What a save has just read it knows. -/
theorem Saving.Step.known {faulty : Prop} {data : ClientPacket.Data F} {phase phase' : Saving.Phase}
    {s s' : Store F} (h : Saving.Step faulty data phase s phase' s') :
    phase'.Known data s' := by
  cases h with
  | found h => exact (s.find_eq_some_iff.mp (Saving.find_mk h)).1
  | foundAgain h => exact (s.find_eq_some_iff.mp (Saving.find_mk h)).1
  | _ => trivial

/-- **What is left of an execution**, and what it relies on in the store.

The assertion about one execution that the rely-guarantee rule asks for. -/
def Job.Runs (job : Job F) (q : ServerProg F Unit) (s : Store F) : Prop :=
  match job with
  | .save ⟨_, some data⟩ => ∃ phase : Saving.Phase, q = phase.prog data ∧ phase.Known data s
  | .save ⟨_, none⟩ => q = .ret ()
  | .collect => q.Conforms ReadCall (fun _ _ => True) (fun _ => True)

namespace Job

variable {E : Engine F} {faulty : Prop} {clock : Int → Prop}

theorem runs_prog (job : Job F) (s : Store F) : job.Runs job.prog s := by
  cases job with
  | collect =>
    exact Prog.Conforms.bind Collecting.collectStatistics_reads (fun _ _ => trivial)
  | save packet =>
    obtain ⟨type, data⟩ := packet
    cases data with
    | none => rfl
    | some data => exact ⟨.looking, Saving.saveClientPacket_eq data type, trivial⟩

/-- What an execution relies on is not lost when the store grows. -/
theorem Runs.grows {job : Job F} {q : ServerProg F Unit} {s t : Store F}
    (h : job.Runs q s) (hg : s.Grows t) : job.Runs q t := by
  cases job with
  | collect => exact h
  | save packet =>
    obtain ⟨type, data⟩ := packet
    cases data with
    | none => exact h
    | some data =>
      obtain ⟨phase, hq, hknown⟩ := h
      exact ⟨phase, hq, hknown.grows hg⟩

/-- What a turn of an execution does: nothing, or a step of a save.

Everything that a turn of any execution can do to the store, so the guarantee
of each is the rely of all others. -/
theorem Runs.step {job : Job F} {c : Cmd F} {k : c.Resp → ServerProg F Unit}
    {s s' : Store F} {r : c.Resp} (h : job.Runs (.call c k) s)
    (hc : storeHandler E faulty clock s c r s') :
    job.Runs (k r) s' ∧ (s' = s
      ∨ ∃ type data phase phase', job = .save ⟨type, some data⟩
        ∧ Saving.Phase.Known data phase s ∧ Saving.Step faulty data phase s phase' s') := by
  cases job with
  | collect => exact ⟨h.2 r trivial, Or.inl (h.1.store_eq hc)⟩
  | save packet =>
    obtain ⟨type, data⟩ := packet
    cases data with
    | none => cases h
    | some data =>
      obtain ⟨phase, hq, hknown⟩ := h
      obtain ⟨phase', hk, hstep⟩ := Saving.step hq.symm hc
      exact ⟨⟨phase', hk, hstep.known⟩,
        Or.inr ⟨type, data, phase, phase', rfl, hknown, hstep⟩⟩

theorem Runs.step_grows {job : Job F} {c : Cmd F} {k : c.Resp → ServerProg F Unit}
    {s s' : Store F} {r : c.Resp} (h : job.Runs (.call c k) s)
    (hc : storeHandler E faulty clock s c r s') : s.Grows s' := by
  obtain ⟨-, rfl | ⟨_, _, _, _, -, -, hstep⟩⟩ := h.step hc
  · exact .refl _
  · exact hstep.grows

omit [Double F] in
/-- Calls that change nothing are calls the server makes. -/
theorem reads_conforms {α : Type} {p : ServerProg F α}
    (h : p.Conforms ReadCall (fun _ _ => True) (fun _ => True)) :
    p.Conforms ServerCall Answered (fun _ => True) := by
  exact h.mono (fun _ hc => hc.serverCall) (fun _ _ _ => trivial) (fun _ h => h)

theorem prog_conforms (job : Job F) :
    job.prog.Conforms ServerCall Answered (fun _ => True) := by
  cases job with
  | save packet => exact Saving.saveClientPacket_conforms packet
  | collect =>
    exact reads_conforms (Collecting.collectStatistics_reads.bind fun _ _ => trivial)

end Job

/-- The number of rows that events have added to a table. -/
def rowsAdded (name : String) (es : List (Event (Database F) (Cmd F) Cmd.Resp)) : ℕ :=
  (es.map fun e => (e.post.rowsOf name).length - (e.pre.rowsOf name).length).sum

theorem rowsAdded_clients (es : List (Event (Store F) (Cmd F) Cmd.Resp)) :
    rowsAdded CLIENTS_TABLE_NAME (es.map (Event.map Store.toDatabase))
      = Saving.clientsAdded es := by
  simp [rowsAdded, Saving.clientsAdded, Event.map, Function.comp_def]

theorem rowsAdded_packets (es : List (Event (Store F) (Cmd F) Cmd.Resp)) :
    rowsAdded PACKETS_TABLE_NAME (es.map (Event.map Store.toDatabase))
      = Saving.packetsAdded es := by
  simp [rowsAdded, Saving.packetsAdded, Event.map, Function.comp_def]

/-! ## Histories

Any call may fail at any time, which is what `True` stands for in the handlers below,
and the clock may show anything. -/

/-- **The life of one process**: the calls it made to set its tables up, the
executions it ran side by side with the turns they took, and what was left of
them when it died.

It is a record of what has happened and not only of what is left, because the
statements are about who wrote which row. -/
structure Epoch (F : Type) where
  /-- The calls of `Server::Server`. -/
  boot : List (Event (Database F) (Cmd F) Cmd.Resp)
  /-- The executions. -/
  job : ℕ → Job F
  /-- The turns they took. -/
  turns : List (Turn ℕ (Database F) (Cmd F) Cmd.Resp)
  /-- What was left of them. -/
  left : ℕ → ServerProg F Unit

namespace Epoch

/-- Every call of an epoch. -/
def events (epoch : Epoch F) : List (Event (Database F) (Cmd F) Cmd.Resp) :=
  epoch.boot ++ epoch.turns.map Prod.snd

/-- Execution `i` wrote the row of a packet.

By the row itself: an event of that execution after which the table has this
row at its end. -/
def Wrote (epoch : Epoch F) (i : ℕ) (p : Packet F) : Prop :=
  ∃ e, (i, e) ∈ epoch.turns
    ∧ e.post.rowsOf PACKETS_TABLE_NAME = e.pre.rowsOf PACKETS_TABLE_NAME ++ [p.cells]

end Epoch

/-- **The histories of a database file**: it starts empty, and every process
that used it died while starting or while serving, possibly between any two
of its calls. Any call may have failed. -/
inductive History (E : Engine F) : List (Epoch F) → Database F → Prop
  /-- No process has used the file. -/
  | fresh : History E [] []
  /-- A process died, or threw, while it set its tables up. -/
  | started {hist : List (Epoch F)} {d d' : Database F}
      {boot : List (Event (Database F) (Cmd F) Cmd.Resp)} {q : ServerProg F Unit}
      {job : ℕ → Job F} (h : History E hist d)
      (hboot : Steps (handler E True (fun _ => True)) Eq construct d boot q d') :
      History E (⟨boot, job, [], fun i => (job i).prog⟩ :: hist) d'
  /-- A process died while it served. -/
  | served {hist : List (Epoch F)} {d m d' : Database F}
      {boot : List (Event (Database F) (Cmd F) Cmd.Resp)} {job : ℕ → Job F}
      {turns : List (Turn ℕ (Database F) (Cmd F) Cmd.Resp)} {left : ℕ → ServerProg F Unit}
      (h : History E hist d)
      (hboot : Steps (handler E True (fun _ => True)) Eq construct d boot (.ret ()) m)
      (hrun : Interleaved (handler E True (fun _ => True)) (fun i => (job i).prog) m turns
        left d') :
      History E (⟨boot, job, turns, left⟩ :: hist) d'

section Served

variable {E : Engine F} {faulty : Prop} {clock : Int → Prop} {job : ℕ → Job F}
  {s : Store F} {turns : List (Turn ℕ (Database F) (Cmd F) Cmd.Resp)}
  {left : ℕ → ServerProg F Unit} {d : Database F}

/-- **What executions side by side do to a store**, turn by turn.

From cells to stores, once for the whole run; afterwards an event is about
clients and packets. -/
theorem served_turns
    (h : Interleaved (handler E faulty clock) (fun i => (job i).prog) s.toDatabase turns left
      d) :
    ∃ t turns', d = t.toDatabase ∧ turns = turns'.map (Interleaved.mapTurn Store.toDatabase)
      ∧ Interleaved (storeHandler E faulty clock) (fun i => (job i).prog) s turns' left t
      ∧ s.Grows t
      ∧ ∀ e ∈ turns', e.2.pre.Grows e.2.post ∧ e.2.post.Grows t
        ∧ (e.2.post = e.2.pre ∨ ∃ type data phase phase',
          job e.1 = .save ⟨type, some data⟩ ∧ Saving.Phase.Known data phase e.2.pre
            ∧ Saving.Step faulty data phase e.2.pre phase' e.2.post) := by
  obtain ⟨t, turns', rfl, rfl, hrun, -, -⟩ := h.lift simulates_store
    (fun i => (job i).prog_conforms)
  obtain ⟨-, hturns⟩ := hrun.rely_guarantee (J := fun i => (job i).Runs) (G := Store.Grows)
    (fun i c k s r s' hi hc => ⟨(hi.step hc).1, hi.step_grows hc⟩)
    (fun i q s s' hi hg => hi.grows hg) (fun i => (job i).runs_prog s)
  obtain ⟨hst, hbetween⟩ := hrun.between (fun e he => (hturns e he).1)
  refine ⟨t, turns', rfl, rfl, hrun, hst, fun e he => ?_⟩
  obtain ⟨hg, k, hi, hc⟩ := hturns e he
  exact ⟨hg, (hbetween e he).2, (hi.step hc).2⟩

/-- **How much each save writes**, among whatever others. -/
theorem served_writes
    (h : Interleaved (handler E faulty clock) (fun i => (job i).prog) s.toDatabase turns left
      d) {i : ℕ} {packet : ClientPacket F} (hi : job i = .save packet) :
    rowsAdded PACKETS_TABLE_NAME (ownTurns i turns) ≤ 1
      ∧ rowsAdded CLIENTS_TABLE_NAME (ownTurns i turns) ≤ 1
      ∧ (packet.data ≠ none → left i = .ret () →
        rowsAdded PACKETS_TABLE_NAME (ownTurns i turns) = 1) := by
  obtain ⟨t, turns', rfl, rfl, hrun, hst, hturns⟩ := served_turns h
  have hown := hrun.project (i := i) (fun e he _ => (hturns e he).1)
  rw [Interleaved.ownTurns_mapTurn, rowsAdded_packets, rowsAdded_clients]
  rw [hi] at hown
  obtain ⟨type, data⟩ := packet
  cases data with
  | none =>
    obtain ⟨hnil, -, -⟩ := hown.ret_inv
    rw [hnil]
    exact ⟨Nat.zero_le _, Nat.zero_le _, fun h => absurd rfl h⟩
  | some data =>
    rw [show (Job.save ⟨type, some data⟩).prog = Saving.Phase.looking.prog data from
      Saving.saveClientPacket_eq data type] at hown
    obtain ⟨phase', hq, hclients, hpackets, hstored⟩ := Saving.steps_writes hown
    have hone : Saving.Phase.looking.clientsLeft = 1 ∧ Saving.Phase.looking.packetsLeft = 1 :=
      ⟨rfl, rfl⟩
    refine ⟨by omega, by omega, fun _ hleft => ?_⟩
    have hphase : phase' = .stored := by
      rw [hleft] at hq
      cases phase' with
      | stored => rfl
      | _ => cases hq
    exact (hstored hphase).resolve_left (by simp)

end Served

/-! ## Integrity

What one epoch adds to the invariant, and then the induction on the history. -/

/-- The row a step of a save adds to the packets is that of its packet. -/
theorem Saving.Step.wrote {faulty : Prop} {data : ClientPacket.Data F}
    {phase phase' : Saving.Phase} {s s' : Store F} {p : Packet F}
    (h : Saving.Step faulty data phase s phase' s') (hp : p ∈ s'.packets)
    (hnew : p ∉ s.packets) :
    s'.packets = s.packets ++ [p] ∧ phase = .storing p.clientId
      ∧ p.timestamp = data.timestamp ∧ p.x = data.x ∧ p.y = data.y := by
  cases h with
  | registered h hadds =>
    obtain ⟨id, -, hpackets⟩ := hadds
    exact absurd (hpackets ▸ hp) hnew
  | stored hx hy hadds =>
    obtain ⟨id, -, hpackets⟩ := hadds
    rw [hpackets, List.mem_append, List.mem_singleton] at hp
    obtain rfl := hp.resolve_left hnew
    exact ⟨hpackets, rfl, rfl, rfl, rfl⟩
  | _ => exact absurd hp hnew

/-- Rows that are appended to the packets are packets that were not there. -/
theorem Store.wrote_iff {s t : Store F} {p : Packet F} :
    t.toDatabase.rowsOf PACKETS_TABLE_NAME
        = s.toDatabase.rowsOf PACKETS_TABLE_NAME ++ [p.cells]
      ↔ t.packets = s.packets ++ [p] := by
  rw [Store.rowsOf_packets, Store.rowsOf_packets]
  constructor
  · intro h
    have h := congrArg (List.map Packet.ofCells) h
    simpa [List.map_map, Function.comp_def] using h
  · intro h
    rw [h, List.map_append]
    rfl

/-- The last packet of a store is there once. -/
theorem Store.notMem_of_append {s t : Store F} {p : Packet F}
    (h : t.packets = s.packets ++ [p]) : p ∉ s.packets := by
  have hnodup := t.packetIds_nodup
  rw [h, List.map_append, List.nodup_append] at hnodup
  intro hp
  exact hnodup.2.2 _ (List.mem_map_of_mem hp) _ List.mem_cons_self rfl

namespace Epoch

/-- **The packet of a row is that of the save that wrote it**, and the row of
its client is in a store.

The row has the timestamp and coordinates of the packet, and the uuid up to
its first NUL byte, as it is bound. -/
def Attributed (epoch : Epoch F) (clients : List Client) (i : ℕ) (p : Packet F) : Prop :=
  ∃ type data, epoch.job i = .save ⟨type, some data⟩ ∧ ⟨p.clientId, cstr data.uuid⟩ ∈ clients
    ∧ p.timestamp = data.timestamp ∧ p.x = data.x ∧ p.y = data.y

/-- **How much the saves of an epoch wrote.** -/
def Counted (epoch : Epoch F) : Prop :=
  ∀ i packet, epoch.job i = .save packet →
    rowsAdded PACKETS_TABLE_NAME (ownTurns i epoch.turns) ≤ 1
      ∧ rowsAdded CLIENTS_TABLE_NAME (ownTurns i epoch.turns) ≤ 1
      ∧ (packet.data ≠ none → epoch.left i = .ret () →
        rowsAdded PACKETS_TABLE_NAME (ownTurns i epoch.turns) = 1)

end Epoch

/-- **What is true after a history** of the store a file holds.

Each field is preserved for its own reason; together they are strong enough
for the next epoch. `attributed` is about all that were written and `written`
about all that are there, and one without the other would leave rows of
nobody, or saves without a row. -/
structure Sound (hist : List (Epoch F)) (d : Database F) (s : Store F) : Prop where
  /-- The file holds the store. -/
  holds : d.Holds s
  /-- Every packet was written. -/
  written : ∀ p ∈ s.packets, ∃ epoch ∈ hist, ∃ i, epoch.Wrote i p
  /-- Every packet is that of the save that wrote it. -/
  attributed : ∀ epoch ∈ hist, ∀ i p, epoch.Wrote i p → epoch.Attributed s.clients i p
  /-- No save wrote too much. -/
  counted : ∀ epoch ∈ hist, epoch.Counted
  /-- No row was changed or removed. -/
  grown : ∀ epoch ∈ hist, ∀ e ∈ epoch.events, e.pre.Grows e.post ∧ e.post.Grows d

namespace Sound

variable {hist : List (Epoch F)} {d d' : Database F} {s t : Store F}

/-- Another epoch keeps what is true of the earlier ones, if the store grew
and it keeps what is true of an epoch. -/
theorem cons (h : Sound hist d s) {epoch : Epoch F} (hholds : d'.Holds t) (hg : s.Grows t)
    (hwritten : ∀ p ∈ t.packets, p ∈ s.packets ∨ ∃ i, epoch.Wrote i p)
    (hattributed : ∀ i p, epoch.Wrote i p → epoch.Attributed t.clients i p)
    (hcounted : epoch.Counted)
    (hgrown : ∀ e ∈ epoch.events, e.pre.Grows e.post ∧ e.post.Grows d') :
    Sound (epoch :: hist) d' t where
  holds := hholds
  written p hp := by
    rcases hwritten p hp with hp | ⟨i, hi⟩
    · obtain ⟨epoch', hmem, hw⟩ := h.written p hp
      exact ⟨epoch', List.mem_cons_of_mem _ hmem, hw⟩
    · exact ⟨epoch, List.mem_cons_self, i, hi⟩
  attributed := List.forall_mem_cons.mpr ⟨hattributed, fun epoch' hmem i p hw => by
    obtain ⟨type, data, hjob, hc, hrest⟩ := h.attributed epoch' hmem i p hw
    exact ⟨type, data, hjob, hg.clients.subset hc, hrest⟩⟩
  counted := List.forall_mem_cons.mpr ⟨hcounted, h.counted⟩
  grown := List.forall_mem_cons.mpr ⟨hgrown, fun epoch' hmem e he =>
    ⟨(h.grown epoch' hmem e he).1,
      (h.grown epoch' hmem e he).2.trans (h.holds.grows hholds hg)⟩⟩

/-- A process that dies while it sets its tables up. -/
theorem started {E : Engine F} {faulty : Prop} {clock : Int → Prop}
    {boot : List (Event (Database F) (Cmd F) Cmd.Resp)} {q : ServerProg F Unit}
    {job : ℕ → Job F} (h : Sound hist d s)
    (hboot : Steps (handler E faulty clock) Eq construct d boot q d') :
    Sound (⟨boot, job, [], fun i => (job i).prog⟩ :: hist) d' s := by
  obtain ⟨hd', -, -, hevents⟩ := construct_steps h.holds hboot
  refine h.cons hd' (.refl s) (fun p hp => Or.inl hp) (fun i p ⟨e, he, _⟩ => nomatch he) ?_ ?_
  · -- no turn was taken, and a save with data that has not begun has not returned
    intro i packet hi
    refine ⟨Nat.zero_le _, Nat.zero_le _, fun hdata hleft => ?_⟩
    obtain ⟨type, data⟩ := packet
    cases data with
    | none => exact absurd rfl hdata
    | some data =>
      have hleft : (job i).prog = .ret () := hleft
      rw [show job i = .save ⟨type, some data⟩ from hi] at hleft
      cases (Saving.saveClientPacket_eq data type).symm.trans hleft
  · intro e he
    rw [Epoch.events, List.map_nil, List.append_nil] at he
    obtain ⟨hpre, hpost⟩ := hevents e he
    exact ⟨hpre.grows hpost (.refl s), hpost.grows hd' (.refl s)⟩

/-- A process that dies while it serves. -/
theorem served {E : Engine F} {faulty : Prop} {clock : Int → Prop} {m : Database F}
    {boot : List (Event (Database F) (Cmd F) Cmd.Resp)} {job : ℕ → Job F}
    {turns : List (Turn ℕ (Database F) (Cmd F) Cmd.Resp)} {left : ℕ → ServerProg F Unit}
    (h : Sound hist d s)
    (hboot : Steps (handler E faulty clock) Eq construct d boot (.ret ()) m)
    (hrun : Interleaved (handler E faulty clock) (fun i => (job i).prog) m turns left d') :
    ∃ t, Sound (⟨boot, job, turns, left⟩ :: hist) d' t := by
  obtain ⟨-, hm, -, hevents⟩ := construct_steps h.holds hboot
  obtain rfl := hm rfl
  have hcounted : (Epoch.mk boot job turns left).Counted :=
    fun i packet hi => served_writes hrun hi
  obtain ⟨t, turns', rfl, rfl, hrun', hg, hturns⟩ := served_turns hrun
  refine ⟨t, h.cons (Or.inl rfl) hg ?_ ?_ hcounted ?_⟩
  · -- the turn that brought a packet about is the one that wrote it
    intro p hp
    rcases hrun'.origin (P := fun s => p ∈ s.packets) hp with hp | ⟨e, he, hpre, hpost⟩
    · exact Or.inl hp
    · obtain ⟨-, -, heq | ⟨_, _, _, _, -, -, hstep⟩⟩ := hturns e he
      · rw [heq] at hpost
        exact absurd hpost hpre
      · exact Or.inr ⟨e.1, e.2.map Store.toDatabase, List.mem_map_of_mem he,
          Store.wrote_iff.mpr (hstep.wrote hpost hpre).1⟩
  · rintro i p ⟨e, he, hw⟩
    obtain ⟨⟨j, e'⟩, he', heq⟩ := List.mem_map.mp he
    cases heq
    have hpackets := Store.wrote_iff.mp hw
    have hnew := Store.notMem_of_append hpackets
    have hp : p ∈ e'.post.packets := hpackets ▸ List.mem_append_right _ List.mem_cons_self
    obtain ⟨hturn, hrest, heq | ⟨type, data, _, _, hjob, hknown, hstep⟩⟩ := hturns _ he'
    · rw [heq] at hp
      exact absurd hp hnew
    · obtain ⟨-, rfl, hfields⟩ := hstep.wrote hp hnew
      -- the save read the id of its client before it wrote the row
      exact ⟨type, data, hjob, (hturn.trans hrest).clients.subset hknown, hfields⟩
  · intro e he
    rw [Epoch.events] at he
    rcases List.mem_append.mp he with he | he
    · obtain ⟨hpre, hpost⟩ := hevents e he
      exact ⟨hpre.grows hpost (.refl s), hpost.grows (Or.inl rfl) hg⟩
    · obtain ⟨e₁, he₁, rfl⟩ := List.mem_map.mp he
      obtain ⟨e', he', rfl⟩ := List.mem_map.mp he₁
      obtain ⟨hturn, hrest, -⟩ := hturns e' he'
      exact ⟨hturn.toDatabase, hrest.toDatabase⟩

end Sound

/-- **Every history keeps the store sound.** -/
theorem History.sound {E : Engine F} {hist : List (Epoch F)} {d : Database F}
    (h : History E hist d) : ∃ s, Sound hist d s := by
  induction h with
  | fresh => exact ⟨Store.empty, Or.inr ⟨rfl, Or.inl rfl⟩, by simp [Store.empty], by simp, by simp,
      by simp⟩
  | started _ hboot ih =>
    obtain ⟨s, hs⟩ := ih
    exact ⟨s, hs.started hboot⟩
  | served _ hboot hrun ih =>
    obtain ⟨s, hs⟩ := ih
    exact hs.served hboot hrun

/-- **Integrity of the store over whole runs.** After any history of server
starts, saves and collections side by side, failures and deaths, the file
holds a store in which ids and uuids of clients are distinct; every packet
was written by a save, whose packet it is, and belongs to the one client of
that packet; no save added more than one packet and one client, and one that
returned added its packet; and no call changed or removed a row.

None of this is due to a foreign key or a transaction. It follows from the
order of the calls of a save, and from no call ever taking a row away. -/
theorem History.integrity {E : Engine F} {hist : List (Epoch F)} {d : Database F}
    (h : History E hist d) :
    ∃ s : Store F, d.Holds s
      ∧ ((s.clients.map Client.id).Nodup ∧ (s.clients.map Client.uuid).Nodup)
      ∧ (∀ p ∈ s.packets, (∃ epoch ∈ hist, ∃ i, epoch.Wrote i p)
        ∧ ∀ epoch ∈ hist, ∀ i, epoch.Wrote i p →
          ∃ packet data, epoch.job i = .save packet ∧ packet.data = some data
            ∧ p.timestamp = data.timestamp ∧ p.x = data.x ∧ p.y = data.y
            ∧ ∃ c ∈ s.clients, c.id = p.clientId ∧ c.uuid = cstr data.uuid
              ∧ ∀ c' ∈ s.clients, c'.id = p.clientId → c' = c)
      ∧ (∀ epoch ∈ hist, ∀ i packet, epoch.job i = .save packet →
        rowsAdded PACKETS_TABLE_NAME (ownTurns i epoch.turns) ≤ 1
          ∧ rowsAdded CLIENTS_TABLE_NAME (ownTurns i epoch.turns) ≤ 1
          ∧ (packet.data ≠ none → epoch.left i = .ret () →
            rowsAdded PACKETS_TABLE_NAME (ownTurns i epoch.turns) = 1))
      ∧ ∀ epoch ∈ hist, ∀ e ∈ epoch.events, e.pre.Grows e.post ∧ e.post.Grows d := by
  obtain ⟨s, hs⟩ := h.sound
  refine ⟨s, hs.holds, ⟨s.ids_nodup, s.uuids_nodup⟩, fun p hp => ⟨hs.written p hp, ?_⟩,
    hs.counted, hs.grown⟩
  intro epoch hmem i hw
  obtain ⟨type, data, hjob, hc, htime, hx, hy⟩ := hs.attributed epoch hmem i p hw
  exact ⟨⟨type, some data⟩, data, hjob, rfl, htime, hx, hy, _, hc, rfl, rfl,
    fun c' hc' hid => List.inj_on_of_nodup_map s.ids_nodup hc' hc hid⟩

/-- **A process that saves a packet on each of two connections and dies.** The
second save runs in the store the first has left, so this is the shortest history
in which a save may find a client that it did not add. -/
theorem History.exists_served (E : Engine F) (type : Int) (data : ℕ → ClientPacket.Data F)
    (hfinite : ∀ i, (Double.isNaN (data i).x || Double.isNaN (data i).y) = false) :
    ∃ epoch d, History E [epoch] d ∧ (∀ i, epoch.job i = .save ⟨type, some (data i)⟩)
      ∧ epoch.left 0 = .ret () ∧ epoch.left 1 = .ret () := by
  let job : ℕ → Job F := fun i => .save ⟨type, some (data i)⟩
  obtain ⟨boot, hboot⟩ := exists_construct E True (fun _ => True)
    (show Database.Holds [] Store.empty from Or.inr ⟨rfl, Or.inl rfl⟩)
  have hsave : ∀ (s : Store F) i, ∃ es, ∃ t : Store F,
      Steps (handler E True (fun _ => True)) Eq (job i).prog s.toDatabase es (.ret ())
        t.toDatabase := by
    intro s i
    obtain ⟨es, q, t, m, clientId, hrun, -, -, hend⟩ := Saving.exists_alone E
      (show ∃ n, (fun _ : Int => True) n from ⟨0, trivial⟩) s (data i)
    rw [hfinite] at hend
    obtain ⟨rfl, -⟩ := hend
    refine ⟨es.map (Event.map Store.toDatabase), t, ?_⟩
    rw [show (job i).prog = Saving.Phase.looking.prog (data i) from
      Saving.saveClientPacket_eq (data i) type]
    exact hrun.unlift.mono (fun _ _ _ _ h => handler_mono (fun h => h.elim) (fun _ h => h) h)
      fun _ _ h => h
  obtain ⟨es, s, hfirst⟩ := hsave Store.empty 0
  obtain ⟨es', t, hsecond⟩ := hsave s 1
  obtain ⟨left, hrun, hleft, hleft'⟩ : ∃ left, Interleaved (handler E True fun _ => True)
      (fun i => (job i).prog) Store.empty.toDatabase (es.map (Prod.mk 0) ++ es'.map (Prod.mk 1))
      left t.toDatabase ∧ left 0 = .ret () ∧ left 1 = .ret () :=
    Interleaved.one_then_other Nat.zero_ne_one hfirst hsecond
  exact ⟨⟨boot, job, _, left⟩, _, .served .fresh hboot hrun, fun _ => rfl, hleft, hleft'⟩

/-- In particular after a process that saved one packet and died. -/
theorem History.integrity_served :
    ∃ (epoch : Epoch Binary64) (d : Database Binary64),
      History (Engine.reference : Engine Binary64) [epoch] d
        ∧ epoch.left 0 = .ret ()
        ∧ rowsAdded PACKETS_TABLE_NAME (ownTurns 0 epoch.turns) = 1 := by
  obtain ⟨epoch, d, hserved, hjob, hleft, -⟩ := History.exists_served
    (Engine.reference : Engine Binary64) ClientPacket.DATA (fun _ => ⟨[97], 0, ⟨0⟩, ⟨0⟩⟩)
    (fun _ => show (Double.isNaN (⟨0⟩ : Binary64) || Double.isNaN (⟨0⟩ : Binary64)) = false by
      decide)
  obtain ⟨s, -, -, -, hcounted, -⟩ := History.integrity hserved
  exact ⟨epoch, d, hserved, hleft,
    (hcounted _ List.mem_cons_self 0 _ (hjob 0)).2.2 (Option.some_ne_none _) hleft⟩
