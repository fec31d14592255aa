import TZ.Rejected

/-!
# Whose packet it is

A packet carries the `uuid` of its client, and the server keeps it under the
client of that `uuid`: this is how the statistics of clients are told apart.
The `uuid` goes to SQLite as a C string in the lookup and in the insert alike,
so what identifies a client is the `uuid` up to its first NUL byte. Two packets
are of one client exactly when they agree so far, and a collection reports that
part (`rows_identified`).

A `uuid` with a NUL byte is cut, and one client takes the packets of another
(`clients_merged`).

What makes this more than a lemma about a lookup is time. A row is written by one
process and reported by another, at some later time, and in between clients were added,
calls failed and processes died. That the id still means the same client rests on the
history: clients are not removed and ids are not given twice, so the row of the client
that a save has read stays the only one with that id.
-/

open Server

variable {F : Type} [Double F] {E : Engine F} {faulty : Prop} {clock : Int → Prop}

/-! ## What a collection reports

The uuid in a reply is copied from the row of the client; the figures come from the
rows that have its id. What the collection says about whose packets they are is this
pairing. -/

namespace Collecting

/-- **The entries of a reply, client by client**: the packets of the client with
that id are listed and summed, and if there is an entry it has the uuid the
client is listed with. -/
inductive Entries {σ : Type} (interval1 interval2 : Int) :
    List Client → List (Event σ (Cmd F) Cmd.Resp) → List (ServerStatistic.Statistic F) → Prop
  /-- No client is left. -/
  | nil : Entries interval1 interval2 [] [] []
  /-- The packets of a client are listed. -/
  | cons {c : Client} {clients : List Client} {pre post : σ}
      {packets : List (List (TableValue F))} {sums : Sums F}
      {es : List (Event σ (Cmd F) Cmd.Resp)} {stats : List (ServerStatistic.Statistic F)}
      (hsums : sumRows interval1 interval2 packets Sums.zero = .ok sums)
      (rest : Entries interval1 interval2 clients es stats) :
      Entries interval1 interval2 (c :: clients)
        (⟨pre, .selectMany PACKETS_TABLE_NAME packetColumns (some (whereClientId c.id)) none
          SQLite.sizeMax, .ok packets, post⟩ :: es)
        ((sums.entry c.uuid).toList ++ stats)

/-- **What a collection reports**: the clients it has listed, each with its id
and uuid, and their entries. -/
def Reports {σ : Type} (es : List (Event σ (Cmd F) Cmd.Resp)) (r : ServerStatistic F)
    (clients : List Client) : Prop :=
  ∃ s₁ s₂ s₃ s₄ now reads,
    es = ⟨s₁, .selectMany CLIENTS_TABLE_NAME clientColumns none none SQLite.sizeMax,
        .ok (clients.map Store.clientRow), s₂⟩ :: ⟨s₃, .now, now, s₄⟩ :: reads
      ∧ Entries (now - STATS_INTERVAL_MINUTES_1) (now - STATS_INTERVAL_MINUTES_2) clients reads
        r.client

variable {s t : Store F} {es : List (Event (Store F) (Cmd F) Cmd.Resp)}

/-- The loop over the clients, whatever the calls answer. -/
theorem steps_entries {interval1 interval2 : Int} {clients : List Client}
    {stats r : List (ServerStatistic.Statistic F)}
    (h : Steps (storeHandler E faulty clock) Store.Grows
      (collectClients interval1 interval2 (clients.map Store.clientRow) stats) s es (.ret r) t) :
    ∃ new, r = stats ++ new ∧ Entries interval1 interval2 clients es new := by
  induction clients generalizing stats s es with
  | nil =>
    obtain ⟨rfl, hr, -⟩ := h.ret_inv
    cases hr
    exact ⟨[], (List.append_nil _).symm, .nil⟩
  | cons c clients ih =>
    obtain ⟨-, hq, -⟩ | ⟨s₁, resp, s₂, es', rfl, -, -, rest⟩ := Steps.call_inv h
    · cases hq
    cases resp with
    | error ex => cases rest.throw_inv.2.1
    | ok packets =>
      have rest : Steps (storeHandler E faulty clock) Store.Grows
          ((Prog.ofExcept (sumRows interval1 interval2 packets Sums.zero)).bind fun sums =>
            collectClients interval1 interval2 (clients.map Store.clientRow)
              (stats ++ (sums.entry c.uuid).toList)) s₂ es' (.ret r) t := rest
      cases hsums : sumRows interval1 interval2 packets (Sums.zero : Sums F) with
      | error ex =>
        rw [hsums] at rest
        cases rest.throw_inv.2.1
      | ok sums =>
        rw [hsums] at rest
        obtain ⟨new, rfl, hentries⟩ := ih rest
        exact ⟨_, List.append_assoc _ _ _, .cons hsums hentries⟩

/-- **A collection reports clients of a store there was while it ran.** -/
theorem steps_reports {r : ServerStatistic F}
    (h : Steps (storeHandler E faulty clock) Store.Grows collectStatistics s es (.ret r) t) :
    ∃ clients, Reports es r clients
      ∧ ∃ u : Store F, s.Grows u ∧ ∀ c ∈ clients, c ∈ u.clients := by
  obtain ⟨-, hq, -⟩ | ⟨s₁, resp, s₂, es', rfl, hs, hc, rest⟩ := Steps.call_inv h
  · cases hq
  have hc : handler E faulty clock s₁.toDatabase _ resp s₂.toDatabase := hc
  obtain ⟨-, ⟨part, ⟨k, -, rfl, -⟩, rfl⟩ | ⟨-, what, rfl⟩⟩ := Store.handler_listClients hc
  · obtain ⟨-, hq, -⟩ | ⟨s₃, now, s₄, reads, rfl, -, -, last⟩ := Steps.call_inv rest
    · cases hq
    have last : Steps (storeHandler E faulty clock) Store.Grows
        ((collectClients (now - STATS_INTERVAL_MINUTES_1) (now - STATS_INTERVAL_MINUTES_2)
          (((s₁.listed E).take k).map Store.clientRow) []).bind fun stats => .ret ⟨stats⟩)
        s₄ reads (.ret r) t := last
    obtain ⟨stats, es₁, es₂, m, rfl, hclients, hret⟩ := last.bind_ret_inv
    obtain ⟨new, rfl, hentries⟩ := steps_entries hclients
    obtain ⟨rfl, hr, -⟩ := hret.ret_inv
    cases hr
    rw [List.append_nil]
    exact ⟨_, ⟨_, _, _, _, now, es₁, rfl, hentries⟩, s₁, hs, fun c hc =>
      (s₁.listed_perm E).mem_iff.mp (List.mem_of_mem_take hc)⟩
  · cases rest.throw_inv.2.1

end Collecting

/-! ## The row of a save

Each save is identified by its place in a history, and its row by the event that wrote
it. Two saves may write equal values; their rows are still different. -/

/-- **A save that has returned wrote exactly one row.** -/
theorem served_wrote {job : ℕ → Job F} {s : Store F}
    {turns : List (Turn ℕ (Database F) (Cmd F) Cmd.Resp)} {left : ℕ → ServerProg F Unit}
    {d : Database F} {boot : List (Event (Database F) (Cmd F) Cmd.Resp)}
    (h : Interleaved (handler E faulty clock) (fun i => (job i).prog) s.toDatabase turns left d)
    {i : ℕ} {type : Int} {data : ClientPacket.Data F} (hi : job i = .save ⟨type, some data⟩)
    (hleft : left i = .ret ()) :
    ∃ p, ∀ p', (Epoch.mk boot job turns left).Wrote i p' ↔ p' = p := by
  obtain ⟨t, turns', rfl, rfl, hrun, -, hturns⟩ := served_turns h
  have hown := hrun.project (i := i) fun e he _ => (hturns e he).1
  rw [hi, hleft, show (Job.save ⟨type, some data⟩).prog = Saving.Phase.looking.prog data from
    Saving.saveClientPacket_eq data type] at hown
  obtain ⟨p, hadded, -⟩ := Saving.steps_added hown trivial nofun
  refine ⟨p, fun p' => ⟨?_, ?_⟩⟩
  · rintro ⟨e, he, hw⟩
    obtain ⟨⟨j, e'⟩, he', heq⟩ := List.mem_map.mp he
    cases heq
    have hmem : p' ∈ (ownTurns j turns').flatMap Event.added := by
      refine List.mem_flatMap.mpr ⟨e', (mem_ownTurns j).mpr he', ?_⟩
      unfold Event.added
      rw [Store.wrote_iff.mp hw, List.drop_left]
      exact List.mem_singleton_self p'
    rw [hadded] at hmem
    exact List.mem_singleton.mp hmem
  · rintro rfl
    obtain ⟨e, he, hp⟩ := List.mem_flatMap.mp (hadded ▸ List.mem_singleton_self p')
    have he := (mem_ownTurns i).mp he
    obtain ⟨-, -, heq | ⟨_, data', phase, phase', -, hknown, hstep⟩⟩ := hturns _ he
    · rw [Event.added, heq, List.drop_length] at hp
      cases hp
    · obtain ⟨-, p'', hps, -⟩ | ⟨-, hps⟩ := hstep.added hknown
      · -- the turn has added it and nothing else
        rw [Event.added, hps, List.drop_left, List.mem_singleton] at hp
        subst hp
        exact ⟨e.map Store.toDatabase, List.mem_map_of_mem he, Store.wrote_iff.mpr hps⟩
      · rw [Event.added, hps, List.drop_length] at hp
        cases hp

/-- So did every save that returned in a history. -/
theorem History.wrote {hist : List (Epoch F)} {d : Database F} (h : History E hist d) :
    ∀ epoch ∈ hist, ∀ i type data, epoch.job i = .save ⟨type, some data⟩ →
      epoch.left i = .ret () → ∃ p, ∀ p', epoch.Wrote i p' ↔ p' = p := by
  induction h with
  | fresh => exact List.forall_mem_nil _
  | @started hist d d' boot q job _ _ ih =>
    refine List.forall_mem_cons.mpr ⟨fun i type data hi hleft => ?_, ih⟩
    -- a save that has not begun has not returned
    have hleft : (job i).prog = .ret () := hleft
    rw [show job i = .save ⟨type, some data⟩ from hi] at hleft
    cases (Saving.saveClientPacket_eq data type).symm.trans hleft
  | served hd hboot hrun ih =>
    obtain ⟨s, hs⟩ := hd.sound
    obtain rfl := (construct_steps hs.holds hboot).2.1 rfl
    exact List.forall_mem_cons.mpr ⟨fun i type data hi hleft => served_wrote hrun hi hleft, ih⟩

/-! ## Whose row it is

Both directions from one fact about stores: id and uuid determine each other. -/

/-- Clients of a store have the same id if they have the same uuid, and only
then. -/
theorem Store.id_eq_iff {s : Store F} {a b : Client} (ha : a ∈ s.clients) (hb : b ∈ s.clients) :
    a.id = b.id ↔ a.uuid = b.uuid :=
  ⟨fun h => congrArg Client.uuid (List.inj_on_of_nodup_map s.ids_nodup ha hb h),
    fun h => congrArg Client.id (List.inj_on_of_nodup_map s.uuids_nodup ha hb h)⟩

/-- **Two rows are attributed to the uuids of their packets**: they have one
client id exactly if the uuids are equal, and each client id is reported with
the uuid of its packet.

Both parts are stated for the uuid of the packet and not for what is stored of
it, as that is what a client would ask for. -/
def Identified (p₁ p₂ : Packet F) (data₁ data₂ : ClientPacket.Data F)
    (clients : List Client) : Prop :=
  (p₁.clientId = p₂.clientId ↔ data₁.uuid = data₂.uuid)
    ∧ ∀ c ∈ clients, (c.id = p₁.clientId → c.uuid = data₁.uuid)
      ∧ (c.id = p₂.clientId → c.uuid = data₂.uuid)

/-- **Packets are attributed to the uuid they carry if it has no NUL byte.** Take
any two saves that have returned, in any history of starts, deaths and failing
calls, on whatever connections: each wrote one row; if neither uuid has a NUL
byte the rows have the same client id exactly when the uuids are equal, and
every collection afterwards, among whatever others, reports these client ids
with these uuids. And of every collection that reports on both client ids this
is true only then.

The last part is an equivalence only if both ids are reported, since otherwise
a collection says nothing about them. The collection may run among other
executions, any of whose calls may fail. -/
theorem rows_identified {hist : List (Epoch F)} {d : Database F} (hd : History E hist d)
    {epoch₁ epoch₂ : Epoch F} (hmem₁ : epoch₁ ∈ hist) (hmem₂ : epoch₂ ∈ hist) {i₁ i₂ : ℕ}
    {type₁ type₂ : Int} {data₁ data₂ : ClientPacket.Data F}
    (hjob₁ : epoch₁.job i₁ = .save ⟨type₁, some data₁⟩) (hleft₁ : epoch₁.left i₁ = .ret ())
    (hjob₂ : epoch₂.job i₂ = .save ⟨type₂, some data₂⟩) (hleft₂ : epoch₂.left i₂ = .ret ()) :
    ∃ (s : Store F) (p₁ p₂ : Packet F), d.Holds s
      ∧ (∀ p, epoch₁.Wrote i₁ p ↔ p = p₁) ∧ (∀ p, epoch₂.Wrote i₂ p ↔ p = p₂)
      ∧ (0 ∉ data₁.uuid ∧ 0 ∉ data₂.uuid → (p₁.clientId = p₂.clientId ↔ data₁.uuid = data₂.uuid))
      ∧ ∀ (faulty : Prop) (clock : Int → Prop) (es : List (Event (Store F) (Cmd F) Cmd.Resp))
          (r : ServerStatistic F) (t : Store F),
        Steps (storeHandler E faulty clock) Store.Grows collectStatistics s es (.ret r) t →
        ∃ clients, Collecting.Reports es r clients
          ∧ (0 ∉ data₁.uuid ∧ 0 ∉ data₂.uuid → Identified p₁ p₂ data₁ data₂ clients)
          ∧ (p₁.clientId ∈ clients.map Client.id → p₂.clientId ∈ clients.map Client.id →
            (Identified p₁ p₂ data₁ data₂ clients ↔ 0 ∉ data₁.uuid ∧ 0 ∉ data₂.uuid)) := by
  obtain ⟨s, hs⟩ := hd.sound
  have hrow : ∀ {epoch : Epoch F} {i type data}, epoch ∈ hist →
      epoch.job i = .save ⟨type, some data⟩ → epoch.left i = .ret () →
      ∃ p : Packet F, (∀ p', epoch.Wrote i p' ↔ p' = p)
        ∧ ⟨p.clientId, cstr data.uuid⟩ ∈ s.clients := by
    intro epoch i type data hmem hjob hleft
    obtain ⟨p, hp⟩ := hd.wrote epoch hmem i type data hjob hleft
    obtain ⟨_, data', hjob', hc, -⟩ := hs.attributed epoch hmem i p ((hp p).mpr rfl)
    cases hjob.symm.trans hjob'
    exact ⟨p, hp, hc⟩
  obtain ⟨p₁, hp₁, hc₁⟩ := hrow hmem₁ hjob₁ hleft₁
  obtain ⟨p₂, hp₂, hc₂⟩ := hrow hmem₂ hjob₂ hleft₂
  have hsame : p₁.clientId = p₂.clientId ↔ cstr data₁.uuid = cstr data₂.uuid :=
    Store.id_eq_iff hc₁ hc₂
  have hids : 0 ∉ data₁.uuid ∧ 0 ∉ data₂.uuid →
      (p₁.clientId = p₂.clientId ↔ data₁.uuid = data₂.uuid) := by
    rintro ⟨h₁, h₂⟩
    rwa [cstr_eq_self h₁, cstr_eq_self h₂] at hsame
  refine ⟨s, p₁, p₂, hs.holds, hp₁, hp₂, hids, fun faulty clock es r t h => ?_⟩
  obtain ⟨clients, hreports, u, hgrows, hclients⟩ := Collecting.steps_reports h
  -- a client id is reported with the part of the uuid that is stored
  have hreported : ∀ c ∈ clients, (c.id = p₁.clientId → c.uuid = cstr data₁.uuid)
      ∧ (c.id = p₂.clientId → c.uuid = cstr data₂.uuid) := fun c hc =>
    ⟨(Store.id_eq_iff (hclients c hc) (hgrows.clients.subset hc₁)).mp,
      (Store.id_eq_iff (hclients c hc) (hgrows.clients.subset hc₂)).mp⟩
  have hidentified : 0 ∉ data₁.uuid ∧ 0 ∉ data₂.uuid → Identified p₁ p₂ data₁ data₂ clients := by
    intro hplain
    refine ⟨hids hplain, fun c hc => ?_⟩
    rw [← cstr_eq_self_iff, ← cstr_eq_self_iff] at hplain
    have hreported := hreported c hc
    rwa [hplain.1, hplain.2] at hreported
  refine ⟨clients, hreports, hidentified, fun hlisted₁ hlisted₂ => ⟨fun h => ?_, hidentified⟩⟩
  obtain ⟨c₁, hmem₁, hid₁⟩ := List.mem_map.mp hlisted₁
  obtain ⟨c₂, hmem₂, hid₂⟩ := List.mem_map.mp hlisted₂
  refine ⟨cstr_eq_self_iff.mp ?_, cstr_eq_self_iff.mp ?_⟩
  · exact ((hreported c₁ hmem₁).1 hid₁).symm.trans ((h.2 c₁ hmem₁).1 hid₁)
  · exact ((hreported c₂ hmem₂).2 hid₂).symm.trans ((h.2 c₂ hmem₂).2 hid₂)

/-- In particular after a process that saved a packet of `a` and one of `b`: the rows
have different client ids, and a collection reports the one with `a` and the other
with `b`. -/
theorem rows_identified_one :
    ∃ (epoch : Epoch Binary64) (d : Database Binary64) (s : Store Binary64)
        (p₁ p₂ : Packet Binary64),
      History Engine.reference [epoch] d ∧ d.Holds s ∧ epoch.Wrote 0 p₁ ∧ epoch.Wrote 1 p₂
        ∧ p₁.clientId ≠ p₂.clientId
        ∧ ∃ (es : List (Event (Store Binary64) (Cmd Binary64) Cmd.Resp))
          (r : ServerStatistic Binary64) (t : Store Binary64) (clients : List Client),
          Steps (storeHandler Engine.reference False (fun _ => True)) Eq collectStatistics s es
              (.ret r) t
            ∧ Collecting.Reports es r clients
            ∧ ∀ c ∈ clients, (c.id = p₁.clientId → c.uuid = [97])
              ∧ (c.id = p₂.clientId → c.uuid = [98]) := by
  obtain ⟨epoch, d, hserved, hjob, hleft, hleft'⟩ := History.exists_served
    (Engine.reference : Engine Binary64) ClientPacket.DATA
    (fun i => ⟨[if i = 0 then 97 else 98], 0, ⟨0⟩, ⟨0⟩⟩)
    (fun _ => show (Double.isNaN (⟨0⟩ : Binary64) || Double.isNaN (⟨0⟩ : Binary64)) = false by
      decide)
  obtain ⟨s, p₁, p₂, hs, hp₁, hp₂, hids, hcollect⟩ := rows_identified hserved List.mem_cons_self
    List.mem_cons_self (hjob 0) hleft (hjob 1) hleft'
  have hplain : (0 : UInt8) ∉ [(97 : UInt8)] ∧ (0 : UInt8) ∉ [(98 : UInt8)] := by decide
  have hne : p₁.clientId ≠ p₂.clientId := fun h =>
    absurd ((hids hplain).mp h) (by decide)
  -- nothing fails, so a collection has an answer
  obtain ⟨es, q, t, hrun, hend⟩ := exists_run Engine.reference False
    (show ∃ n, (fun _ : Int => True) n from ⟨0, trivial⟩)
    (Collecting.collectStatistics_reads.mono (fun _ h => h.serverCall) (fun _ _ _ => trivial)
      fun _ h => h) s
  obtain ⟨r, rfl⟩ := hend.resolve_right fun ⟨ex, hex⟩ => Collecting.steps_ne_throw hrun ex hex
  obtain ⟨clients, hreports, hidentified, -⟩ := hcollect False _ es r t
    (hrun.mono (fun _ _ _ _ h => h) fun u v (h : u = v) => h ▸ .refl u)
  exact ⟨epoch, d, s, p₁, p₂, hserved, hs, (hp₁ p₁).mpr rfl, (hp₂ p₂).mpr rfl, hne, es, r, t,
    clients, hrun, hreports, (hidentified hplain).2⟩

/-! ## A uuid that is cut

The protobuf parser accepts a NUL byte in a text, and the C interface ends the text
there. Neither of them is wrong by itself. -/

/-- A message with the `uuid` `a`, NUL, `b`, for a byte `b`. -/
def nulBytes (b : UInt8) : Bytes := [0x12, 5, 0x0a, 3, 0x61, 0, b]

/-- What it says. -/
def nulData (b : UInt8) : ClientPacket.Data Binary64 := ⟨[0x61, 0, b], 0, ⟨0⟩, ⟨0⟩⟩

/-- **Two clients are taken for one.** Two messages with different `uuid`s, both of
them accepted, are saved one after the other. Both packets go to one client,
with a third `uuid`. -/
theorem clients_merged :
    ClientPacket.ParseFromString binary64 (nulBytes 0x62)
        = (true, ⟨ClientPacket.DATA, some (nulData 0x62)⟩)
      ∧ ClientPacket.ParseFromString binary64 (nulBytes 0x63)
        = (true, ⟨ClientPacket.DATA, some (nulData 0x63)⟩)
      ∧ ∃ es₁ es₂, ∃ s t : Store Binary64, ∃ p₁ p₂ : Packet Binary64,
        Steps (handler (Engine.reference : Engine Binary64) False (fun _ => True)) Eq
          (handleMessage (ClientPacket.ParseFromString binary64) (nulBytes 0x62))
          Store.empty.toDatabase es₁ (.ret ()) s.toDatabase
        ∧ Steps (handler (Engine.reference : Engine Binary64) False (fun _ => True)) Eq
          (handleMessage (ClientPacket.ParseFromString binary64) (nulBytes 0x63))
          s.toDatabase es₂ (.ret ()) t.toDatabase
        ∧ s.packets = [p₁] ∧ t.packets = [p₁, p₂] ∧ t.clients = [⟨p₁.clientId, [0x61]⟩]
        ∧ ¬ (p₁.clientId = p₂.clientId ↔ (nulData 0x62).uuid = (nulData 0x63).uuid) := by
  have hparse₁ : ClientPacket.ParseFromString binary64 (nulBytes 0x62)
      = (true, ⟨ClientPacket.DATA, some (nulData 0x62)⟩) := by decide +kernel
  have hparse₂ : ClientPacket.ParseFromString binary64 (nulBytes 0x63)
      = (true, ⟨ClientPacket.DATA, some (nulData 0x63)⟩) := by decide +kernel
  have hclock : ∃ n, (fun _ : Int => True) n := ⟨0, trivial⟩
  have hnan : Double.isNaN (⟨0⟩ : Binary64) = false := by decide
  -- the first save registers the client, the second finds it
  obtain ⟨es₁, s, id₁, packet₁, hrun₁, hclients, hpackets⟩ := Saving.exists_first
    (Engine.reference : Engine Binary64) hclock (nulData 0x62) hnan hnan
  obtain ⟨es₂, q, t, m, id₂, hrun₂, hfind₂, hregistered, hend⟩ := Saving.exists_alone
    (Engine.reference : Engine Binary64) hclock s (nulData 0x63)
  have hfind : s.find (cstr (nulData 0x63).uuid) = some ⟨id₁, [0x61]⟩ :=
    s.find_eq_some_iff.mpr ⟨hclients ▸ List.mem_cons_self, rfl⟩
  obtain rfl := hregistered.resolve_right fun ⟨hnone, _⟩ => by
    rw [hfind] at hnone
    cases hnone
  rw [hfind] at hfind₂
  cases hfind₂
  rw [show Double.isNaN (nulData 0x63).x = false from hnan,
    show Double.isNaN (nulData 0x63).y = false from hnan] at hend
  obtain ⟨rfl, packet₂, hcs, hps⟩ := hend
  have hhandle : ∀ b, ClientPacket.ParseFromString binary64 (nulBytes b)
        = (true, ⟨ClientPacket.DATA, some (nulData b)⟩) →
      handleMessage (ClientPacket.ParseFromString binary64) (nulBytes b)
        = Saving.Phase.looking.prog (nulData b) := by
    intro b hparse
    unfold handleMessage
    rw [hparse]
    exact Saving.saveClientPacket_eq _ 0
  refine ⟨hparse₁, hparse₂, _, _, m, t, _, ⟨packet₂, id₁, 0, ⟨0⟩, ⟨0⟩⟩,
    hhandle _ hparse₁ ▸ hrun₁.unlift,
    hhandle _ hparse₂ ▸ hrun₂.unlift, hpackets, ?_, hcs.trans hclients, ?_⟩
  · rw [hps, hpackets]
    rfl
  · intro h
    exact absurd (h.mp rfl) (by decide)
