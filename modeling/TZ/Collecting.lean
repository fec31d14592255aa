import Mathlib.Data.List.ReduceOption
import TZ.Saving

/-!
# Collecting the statistics

`Server::collectStatistics` lists the clients, reads the clock, and then
lists the packets of one client after another. It changes nothing, whatever
fails (`Collecting.collectStatistics_reads`). When nothing fails it is the
machine `Collecting.Phase`: each client's entry is computed from the packets
the store holds when they are listed, so among others that save packets the
entries of one reply may belong to different stores.

`Collecting.entry` is the entry of one client in one store, by the very loop
of the source.

Nothing about the machine depends on who else is at work. What makes a reply of a server
under load different from one on an idle server is in the list of stores in which the
calls were issued, and this list is an argument of `Collecting.entriesOf`: given the
stores, the reply is a function. All statements about replies – what is fresh, what is a
snapshot, what has expired – are statements about such a list.
-/

open Server

variable {F : Type} [Double F]

/-- **The calls that change nothing.**

They are what a collection is made of, so a collection can be run at any point
without changing what others see. -/
inductive ReadCall : Cmd F → Prop
  /-- It lists the clients. -/
  | listClients :
      ReadCall (.selectMany CLIENTS_TABLE_NAME clientColumns none none SQLite.sizeMax)
  /-- It lists the packets of a client. -/
  | listPackets (clientId : Int) :
      ReadCall (.selectMany PACKETS_TABLE_NAME packetColumns
        (some (whereClientId clientId)) none SQLite.sizeMax)
  /-- It reads the clock. -/
  | now : ReadCall .now

namespace ReadCall

omit [Double F] in
theorem serverCall {c : Cmd F} (h : ReadCall c) : ServerCall c := by
  cases h with
  | listClients => exact .listClients
  | listPackets clientId => exact .listPackets clientId
  | now => exact .now

theorem store_eq {E : Engine F} {faulty : Prop} {clock : Int → Prop} {c : Cmd F}
    (hc : ReadCall c) {s s' : Store F} {r : c.Resp}
    (h : storeHandler E faulty clock s c r s') : s' = s := by
  have h : handler E faulty clock s.toDatabase c r s'.toDatabase := h
  refine Store.toDatabase_injective ?_
  cases hc with
  | listClients => exact (Store.handler_listClients h).1
  | listPackets clientId => exact (Store.handler_listPackets h).1
  | now => exact h.2

end ReadCall

/-- The time a call has read from the clock.

It is part of the event, since two collections may read different times while
the same clock predicate holds for both. -/
def Event.time {σ F : Type} : Event σ (Cmd F) Cmd.Resp → Option Int
  | ⟨_, .now, currentTime, _⟩ => some currentTime
  | _ => none

namespace Collecting

theorem collectClients_reads (interval1 interval2 : Int)
    (clients : List (List (TableValue F)))
    (stats : List (ServerStatistic.Statistic F)) :
    (collectClients interval1 interval2 clients stats).Conforms ReadCall
      (fun _ _ => True) (fun _ => True) := by
  induction clients generalizing stats with
  | nil => trivial
  | cons client clients ih =>
    refine Prog.Conforms.bind (Q := fun _ => True) (.ofExcept fun _ _ => trivial)
      (fun clientId _ => ?_)
    refine Prog.Conforms.bind (Q := fun _ => True) (.ofExcept fun _ _ => trivial)
      (fun clientUuid _ => ?_)
    refine Prog.Conforms.bind (Q := fun _ => True)
      ⟨.listPackets clientId, fun r _ => .ofExcept fun _ _ => trivial⟩ (fun packets _ => ?_)
    exact Prog.Conforms.bind (Q := fun _ => True) (.ofExcept fun _ _ => trivial)
      (fun sums _ => ih _)

/-- **Collecting makes only calls that change nothing.** -/
theorem collectStatistics_reads :
    (collectStatistics : ServerProg F (ServerStatistic F)).Conforms ReadCall
      (fun _ _ => True) (fun _ => True) := by
  refine Prog.Conforms.bind (Q := fun _ => True)
    ⟨.listClients, fun r _ => .ofExcept fun _ _ => trivial⟩ (fun clients _ => ?_)
  refine Prog.Conforms.bind (Q := fun _ => True) ⟨.now, fun _ _ => trivial⟩
    (fun currentTime _ => ?_)
  exact Prog.Conforms.bind (Q := fun _ => True) (collectClients_reads _ _ clients [])
    (fun stats _ => trivial)

/-! ## The entry of a client

The loop of the source is run on the rows a SELECT returns. On rows that hold packets
it cannot throw, and it is the same loop on packets. -/

/-- The loop body over the packets of a client, on a packet. -/
def addPacket (interval1 interval2 : Int) (sums : Sums F) (p : Packet F) : Sums F :=
  (sums.add1 interval1 p.timestamp p.x p.y).add5 interval2 p.timestamp p.x p.y

/-- The loop over rows that hold packets. -/
theorem sumRows_packetRow (interval1 interval2 : Int) (packets : List (Packet F))
    (sums : Sums F) :
    sumRows interval1 interval2 (packets.map Store.packetRow) sums
      = .ok (packets.foldl (addPacket interval1 interval2) sums) := by
  induction packets generalizing sums with
  | nil => rfl
  | cons p packets ih => exact ih (addPacket interval1 interval2 sums p)

variable (E : Engine F)

/-- The clients a reply is about.

As many as a `size_t` can count, which is the limit the source asks for. -/
def clientsRead (s : Store F) : List Client := (s.listed E).take SQLite.sizeMax

/-- The packets an entry is computed from. -/
def packetsRead (s : Store F) (clientId : Int) : List (Packet F) :=
  (s.packetsOf E clientId).take SQLite.sizeMax

/-- The entry computed from a list of packets, if there is one. -/
def entryOf (now : Int) (uuid : Bytes) (packets : List (Packet F)) :
    Option (ServerStatistic.Statistic F) :=
  (packets.foldl (addPacket (now - STATS_INTERVAL_MINUTES_1)
    (now - STATS_INTERVAL_MINUTES_2)) Sums.zero).entry uuid

/-- **The entry of a client in a store**, at a given time.

The number type is arbitrary, so this is used for exact figures and for
doubles. -/
def entry (now : Int) (s : Store F) (c : Client) :
    Option (ServerStatistic.Statistic F) :=
  entryOf now c.uuid (packetsRead E s c.id)

/-! ## The machine

With failing calls a listing may be any first part of the rows, and there is no
machine to speak of. Most statements are about collections that meet no failure. -/

/-- **The phases of collecting**, when nothing fails.

What has been computed so far is part of the phase, as it is a local variable
of the source. -/
inductive Phase (F : Type) where
  /-- It is about to list the clients. -/
  | listing
  /-- It is about to read the clock. -/
  | timing (clients : List Client)
  /-- It is about to list the packets of the first of the clients. -/
  | reading (now : Int) (clients : List Client)
      (stats : List (ServerStatistic.Statistic F))

/-- The program that is left in a phase. -/
def Phase.prog : Phase F → ServerProg F (ServerStatistic F)
  | .listing => collectStatistics
  | .timing clients => do
    let currentTime ← Prog.perform .now
    let stats ← collectClients (currentTime - STATS_INTERVAL_MINUTES_1)
      (currentTime - STATS_INTERVAL_MINUTES_2) (clients.map Store.clientRow) []
    .ret ⟨stats⟩
  | .reading now clients stats => do
    let stats ← collectClients (now - STATS_INTERVAL_MINUTES_1)
      (now - STATS_INTERVAL_MINUTES_2) (clients.map Store.clientRow) stats
    .ret ⟨stats⟩

/-- It has returned. -/
theorem Phase.prog_reading_nil (now : Int) (stats : List (ServerStatistic.Statistic F)) :
    (Phase.reading now [] stats).prog = .ret ⟨stats⟩ := rfl

/-- **What a step of collecting does.** -/
inductive Step (clock : Int → Prop) : Phase F → Store F → Phase F → Prop
  /-- The clients are listed. -/
  | listed (s : Store F) : Step clock .listing s (.timing (clientsRead E s))
  /-- The clock is read. -/
  | timed (s : Store F) {clients : List Client} {now : Int} (h : clock now) :
      Step clock (.timing clients) s (.reading now clients [])
  /-- The packets of a client are listed, and its entry is added. -/
  | read (s : Store F) {now : Int} {c : Client} {clients : List Client}
      {stats : List (ServerStatistic.Statistic F)} :
      Step clock (.reading now (c :: clients) stats) s
        (.reading now clients (stats ++ (entry E now s c).toList))

variable {E} {clock : Int → Prop}

omit [Double F] in
/-- Without failures, a SELECT returns the same part of its result set every
time. -/
theorem eq_of_isPart {α : Type} {part rows : List α} (h : Store.IsPart False part rows) :
    part = rows.take SQLite.sizeMax := by
  obtain ⟨k, -, rfl, hk⟩ := h
  rw [hk id, List.take_eq_take_iff]
  omega

/-- **A turn of collecting is a step of its machine**, and changes nothing. -/
theorem step {phase : Phase F} {c : Cmd F}
    {k : c.Resp → ServerProg F (ServerStatistic F)} {s s' : Store F} {r : c.Resp}
    (hp : phase.prog = .call c k) (h : storeHandler E False clock s c r s') :
    s' = s ∧ ∃ phase' : Phase F, k r = phase'.prog ∧ Step E clock phase s phase' := by
  have h : handler E False clock s.toDatabase c r s'.toDatabase := h
  cases phase with
  | listing =>
    cases hp
    obtain ⟨hs, ⟨part, hpart, rfl⟩ | ⟨hf, -⟩⟩ := Store.handler_listClients h
    · obtain rfl := eq_of_isPart hpart
      exact ⟨Store.toDatabase_injective hs, _, rfl, .listed s⟩
    · exact hf.elim
  | timing clients =>
    cases hp
    exact ⟨Store.toDatabase_injective h.2, .reading r clients [], rfl, .timed s h.1⟩
  | reading now clients stats =>
    cases clients with
    | nil => cases hp
    | cons client clients =>
      cases hp
      obtain ⟨hs, ⟨part, hpart, rfl⟩ | ⟨hf, -⟩⟩ := Store.handler_listPackets h
      · obtain rfl := eq_of_isPart hpart
        refine ⟨Store.toDatabase_injective hs, _, ?_, .read s⟩
        show ((Prog.ofExcept (sumRows _ _ _ Sums.zero)).bind _).bind _ = _
        rw [sumRows_packetRow]
        rfl
      · exact hf.elim

/-! ## Collecting as a whole

The phases put together. The number of calls is known beforehand from the first of
them: the clients that are listed are those there will be entries of. -/

/-- **The entries of clients**, each computed in a store of its own.

One store for each client, in order. That there are as many is a hypothesis
where it matters. -/
def entriesOf (E : Engine F) (now : Int) (clients : List Client) (stores : List (Store F)) :
    List (ServerStatistic.Statistic F) :=
  (List.zipWith (fun c s => entry E now s c) clients stores).reduceOption

/-- The entries of clients that are all computed in one store. -/
theorem entriesOf_replicate (E : Engine F) (now : Int) (clients : List Client) (s : Store F) :
    entriesOf E now clients (List.replicate clients.length s)
      = clients.filterMap (entry E now s) := by
  induction clients with
  | nil => rfl
  | cons c clients ih =>
    show (entry E now s c :: List.zipWith _ clients _).reduceOption = _
    cases h : entry E now s c with
    | none => rw [List.reduceOption_cons_of_none, List.filterMap_cons_none h, ← ih]; rfl
    | some e => rw [List.reduceOption_cons_of_some, List.filterMap_cons_some h, ← ih]; rfl

theorem sums_entry_uuid {sums : Sums F} {uuid : Bytes} {e : ServerStatistic.Statistic F}
    (h : sums.entry uuid = some e) : e.uuid = uuid := by
  by_cases hadd : (sums.needToAdd1 || sums.needToAdd5) = true
  · rw [Sums.entry, if_pos hadd] at h
    cases h
    rfl
  · rw [Sums.entry, if_neg hadd] at h
    cases h

/-- The entry of a client has its uuid. -/
theorem entry_uuid {now : Int} {s : Store F} {c : Client} {e : ServerStatistic.Statistic F}
    (h : entry E now s c = some e) : e.uuid = c.uuid :=
  sums_entry_uuid h

/-- There is at most one entry for each client. -/
theorem entriesOf_uuids (E : Engine F) (now : Int) (clients : List Client)
    (stores : List (Store F)) :
    ((entriesOf E now clients stores).map ServerStatistic.Statistic.uuid).Sublist
      (clients.map Client.uuid) := by
  induction clients generalizing stores with
  | nil => exact .slnil
  | cons c clients ih =>
    cases stores with
    | nil => exact List.nil_sublist _
    | cons s stores =>
      show ((entry E now s c :: List.zipWith _ clients stores).reduceOption.map _).Sublist _
      cases h : entry E now s c with
      | none =>
        rw [List.reduceOption_cons_of_none]
        exact (ih stores).cons _
      | some e =>
        rw [List.reduceOption_cons_of_some, List.map_cons, List.map_cons, entry_uuid h]
        exact (ih stores).cons_cons _

/-- **There is at most one entry for each uuid.** -/
theorem entriesOf_nodup (E : Engine F) (now : Int) (s : Store F) (stores : List (Store F)) :
    ((entriesOf E now (clientsRead E s) stores).map
      ServerStatistic.Statistic.uuid).Nodup := by
  have hlisted : ((s.listed E).map Client.uuid).Nodup :=
    ((s.listed_perm E).map Client.uuid).nodup_iff.mpr s.uuids_nodup
  exact hlisted.sublist ((entriesOf_uuids E now _ stores).trans
    ((List.take_sublist _ _).map _))

variable {Rely : Store F → Store F → Prop} {s t : Store F} {r : ServerStatistic F}
  {es : List (Event (Store F) (Cmd F) Cmd.Resp)}

/-- The calls that list the packets of the clients, one for each, and what
they make of the reply. -/
theorem steps_reading {now : Int} {clients : List Client}
    {stats : List (ServerStatistic.Statistic F)}
    (h : Steps (storeHandler E False clock) Rely (Phase.reading now clients stats).prog s es
      (.ret r) t) :
    es.length = clients.length
      ∧ r = ⟨stats ++ entriesOf E now clients (es.map Event.pre)⟩ := by
  induction clients generalizing stats s es with
  | nil =>
    rw [Phase.prog_reading_nil] at h
    obtain ⟨rfl, hr, -⟩ := h.ret_inv
    cases hr
    exact ⟨rfl, congrArg _ (List.append_nil _).symm⟩
  | cons c clients ih =>
    obtain ⟨-, hq, -⟩ | ⟨s₁, resp, s₂, es', rfl, -, hc, rest⟩ := Steps.call_inv h
    · cases hq
    · obtain ⟨-, phase', hk, hstep⟩ := step
        (show (Phase.reading now (c :: clients) stats).prog = .call _ _ from rfl) hc
      rw [hk] at rest
      cases hstep with
      | read =>
        obtain ⟨hlen, rfl⟩ := ih rest
        refine ⟨congrArg (· + 1) hlen, congrArg _ ?_⟩
        show _ = stats ++ (entry E now s₁ c :: List.zipWith _ clients _).reduceOption
        rw [List.append_assoc]
        cases entry E now s₁ c with
        | none => rw [List.reduceOption_cons_of_none]; rfl
        | some e => rw [List.reduceOption_cons_of_some]; rfl

/-- **What collecting returns**, among whatever others: the clients of the
store in which they are listed, each with its entry in the store in which its
own packets are listed. Both windows end at the one time that was read. -/
theorem steps_collect
    (h : Steps (storeHandler E False clock) Rely collectStatistics s es (.ret r) t) :
    ∃ listing timing reads now, es = listing :: timing :: reads
      ∧ clock now ∧ timing.time = some now
      ∧ reads.length = (clientsRead E listing.pre).length
      ∧ r = ⟨entriesOf E now (clientsRead E listing.pre) (reads.map Event.pre)⟩ := by
  obtain ⟨-, hq, -⟩ | ⟨s₁, clients, s₂, es', rfl, -, hc, rest⟩ := Steps.call_inv h
  · cases hq
  obtain ⟨-, phase₁, hk, hlisted⟩ := step (show Phase.listing.prog = .call _ _ from rfl) hc
  rw [hk] at rest
  cases hlisted
  obtain ⟨-, hq, -⟩ | ⟨s₃, now, s₄, reads, rfl, -, hc', last⟩ := Steps.call_inv rest
  · cases hq
  -- the time the call has read is the one the windows end at
  have last : Steps _ Rely (Phase.reading now (clientsRead E s₁) []).prog _ _ _ _ := last
  obtain ⟨hlen, rfl⟩ := steps_reading last
  exact ⟨_, _, reads, now, rfl, hc'.1, rfl, hlen, rfl⟩

/-- Collecting lists the clients and reads the clock. -/
theorem exists_listing (E : Engine F) (clock : Int → Prop) {now : Int} (hnow : clock now)
    (s : Store F) :
    ∃ es, Steps (storeHandler E False clock) Eq collectStatistics s es
        (Phase.reading now (clientsRead E s) []).prog s
      ∧ ∀ e ∈ es, e.pre = s ∧ e.post = s := by
  obtain ⟨r, s', h⟩ := exists_answer E False ⟨now, hnow⟩ s .listClients
  obtain ⟨rfl, phase', hk, hstep⟩ := step (show Phase.listing.prog = .call _ _ from rfl) h
  cases hstep
  have htiming : Steps (storeHandler E False clock) Eq (Phase.timing (clientsRead E s')).prog
      s' [⟨s', .now, now, s'⟩] (Phase.reading now (clientsRead E s') []).prog s' :=
    .one ⟨hnow, rfl⟩ rfl
  have hlisting : Steps (storeHandler E False clock) Eq collectStatistics s'
      [⟨s', .selectMany CLIENTS_TABLE_NAME clientColumns none none SQLite.sizeMax, r, s'⟩]
      (Phase.timing (clientsRead E s')).prog s' := .one h hk
  exact ⟨_, hlisting.append htiming, by simp⟩

/-- Collecting lists the packets of the next client. -/
theorem exists_reading (E : Engine F) (clock : Int → Prop) {now : Int} (hnow : clock now)
    (s : Store F) (c : Client) (clients : List Client)
    (stats : List (ServerStatistic.Statistic F)) :
    ∃ es, Steps (storeHandler E False clock) Eq
        (Phase.reading now (c :: clients) stats).prog s es
        (Phase.reading now clients (stats ++ (entry E now s c).toList)).prog s
      ∧ ∀ e ∈ es, e.pre = s ∧ e.post = s := by
  obtain ⟨r, s', h⟩ := exists_answer E False ⟨now, hnow⟩ s (.listPackets c.id)
  obtain ⟨rfl, phase', hk, hstep⟩ := step
    (show (Phase.reading now (c :: clients) stats).prog = .call _ _ from rfl) h
  cases hstep
  exact ⟨_, .one h hk, by simp⟩

/-- **Collecting by itself where there is one packet** of one client returns its
entry. There is only one order in which one row can be listed, so this does
not depend on the engine. -/
theorem exists_collect_one (E : Engine F) (now : Int) {s : Store F} {c : Client}
    {p : Packet F} (hclients : s.clients = [c]) (hpackets : s.packets = [p])
    (hp : p.clientId = c.id) :
    ∃ es, Steps (storeHandler E False (fun t => t = now)) Eq collectStatistics s es
        (.ret ⟨(entryOf now c.uuid [p]).toList⟩) s
      ∧ ∀ e ∈ es, e.pre = s ∧ e.post = s := by
  have hlisted : clientsRead E s = [c] := by
    have hperm := s.listed_perm E
    rw [hclients, List.perm_singleton] at hperm
    rw [clientsRead, hperm]
    rfl
  have hread : packetsRead E s c.id = [p] := by
    have hperm := s.packetsOf_perm E c.id
    rw [hpackets, List.filter_eq_self.mpr (by simp [hp]), List.perm_singleton] at hperm
    rw [packetsRead, hperm]
    rfl
  obtain ⟨listing, hlisting, hes⟩ := exists_listing E (fun t => t = now) (show now = now from rfl) s
  obtain ⟨reading, hreading, hes'⟩ := exists_reading E (fun t => t = now)
    (show now = now from rfl) s c [] []
  rw [hlisted] at hlisting
  rw [entry, hread] at hreading
  exact ⟨_, hlisting.append hreading, List.forall_mem_append.mpr ⟨hes, hes'⟩⟩

/-- What is left of collecting is what is left in a phase. -/
theorem steps_phase {phase : Phase F} {q : ServerProg F (ServerStatistic F)}
    (h : Steps (storeHandler E False clock) Rely phase.prog s es q t) :
    ∃ phase' : Phase F, q = phase'.prog := by
  generalize hp : phase.prog = p at h
  induction h generalizing phase with
  | done _ => exact ⟨phase, hp.symm⟩
  | own _ hc _ ih =>
    obtain ⟨-, phase', hk, -⟩ := step hp hc
    exact ih hk.symm

/-- **Collecting does not throw**, if nothing fails. -/
theorem steps_ne_throw {q : ServerProg F (ServerStatistic F)}
    (h : Steps (storeHandler E False clock) Rely collectStatistics s es q t) (ex : Exc) :
    q ≠ .throw ex := by
  obtain ⟨phase', rfl⟩ := steps_phase (show Steps _ _ Phase.listing.prog _ _ _ _ from h)
  cases phase' with
  | listing => nofun
  | timing clients => nofun
  | reading now clients stats =>
    cases clients with
    | nil => nofun
    | cons c clients => nofun

/-- **Collecting by itself** returns the entries of the store there is.

Alone all stores are the same, and the reply is that of one store. It is the
only case in which a reply is a function of a database. -/
theorem steps_alone
    (h : Steps (storeHandler E False clock) Eq collectStatistics s es (.ret r) t) :
    t = s ∧ ∃ now, clock now ∧ r = ⟨(clientsRead E s).filterMap (entry E now s)⟩ := by
  -- by itself, every call is made in the store the first was made in
  obtain ⟨-, -, hes⟩ := h.invariant (G := Eq) (I := fun _ => True)
    (fun _ _ _ _ _ hc h => ⟨trivial, trivial, (hc.store_eq h).symm⟩)
    (fun _ _ _ _ => trivial) collectStatistics_reads trivial
  obtain ⟨hst, hbetween, -⟩ := h.ordered (G := Eq) (fun _ _ h => h) (fun e he => (hes e he).2.2)
  have hreads : ∀ e ∈ es, e.pre = s ∧ t = s :=
    fun e he => ⟨(hbetween e he).1.symm, hst.symm⟩
  obtain ⟨listing, timing, reads, now, rfl, hnow, -, hlen, rfl⟩ := steps_collect h
  obtain ⟨hlisting, rfl⟩ := hreads listing List.mem_cons_self
  refine ⟨rfl, now, hnow, ?_⟩
  have hpre : reads.map Event.pre = List.replicate (clientsRead E t).length t := by
    rw [hlisting] at hlen
    rw [← hlen]
    exact List.map_eq_replicate_iff.mpr (fun e he =>
      (hreads e (List.mem_cons_of_mem _ (List.mem_cons_of_mem _ he))).1)
  rw [hpre, hlisting, entriesOf_replicate]

end Collecting
