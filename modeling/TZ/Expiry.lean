import TZ.Replies

/-!
# When a packet leaves the statistics

A collection reads every packet there is and adds up those whose timestamp is
not older than one minute or five. A packet that is older is passed over, so
the reply is the one the database would give if the packet were not in it
(`packets_expire`).

The timestamp is the one the client has put into its packet. The server never
compares it with its own clock when it saves a packet, so the age of a packet
counts from what the client says and not from when it was saved: a packet with
a timestamp in the future stays for as long as it says (`packet_stays`).

What has to be compared is the reply with one that was never given: the reply of the
same collection, had the row not been there. Other connections add rows while it runs,
so there is no second run of the system to compare with. Instead the same calls are made
on the same stores, each without the row (`Collects`, `Store.without`), and the reply to
those is the one to compare with. That is the strongest comparison there is: every store
is the one that was really read, but for the row.

If the packet is older than both windows, the two replies are equal. If it is only older
than the shorter one they cannot be: its client may have an entry because of this packet
alone. So what is compared then is what the replies say of the last minute
(`SameMinute`), where no entry says the same as one with zeros.

One thing has to be assumed of SQLite. Sums of doubles depend on their order, and a
table without a row could be scanned in another one. `Engine.Stable` says that it is
not.
-/

open Server

variable {F : Type} [Double F]

/-! ## A store without a packet

Taking a row away keeps everything a store promises. Nothing refers to a packet, so
there is no key left dangling. -/

/-- **The rows that are left are visited in their old order** when some rows of
a table are taken away.

A scan in the order of rowids, which is what SQLite does for these statements,
is stable. It is not assumed which order it is. -/
def Engine.Stable {F : Type} (E : Engine F) : Prop :=
  ∀ (stmt : Statement) (rows : List (List (Cell F))) (keep : List (Cell F) → Bool),
    E.scan stmt (rows.filter keep) = (E.scan stmt rows).filter keep

namespace Store

/-- **The store without the packet of an id.** -/
def without (s : Store F) (packetId : Int) : Store F where
  clients := s.clients
  packets := s.packets.filter (fun p => p.id ≠ packetId)
  ids_nodup := s.ids_nodup
  uuids_nodup := s.uuids_nodup
  uuids_plain := s.uuids_plain
  packetIds_nodup := s.packetIds_nodup.sublist (List.filter_sublist.map Packet.id)
  finite p hp := s.finite p (List.mem_of_mem_filter hp)

variable {s t : Store F} {E : Engine F} {packetId : Int}

theorem Grows.without (h : s.Grows t) (packetId : Int) :
    (s.without packetId).Grows (t.without packetId) :=
  ⟨h.clients, h.packets.filter _⟩

/-- The packets of a client are listed as before, but for the one that is
gone. -/
theorem packetsOf_without (hE : E.Stable) (clientId : Int) :
    (s.without packetId).packetsOf E clientId
      = (s.packetsOf E clientId).filter (fun p => p.id ≠ packetId) := by
  have hcells : (s.packets.filter (fun p => p.id ≠ packetId)).map Packet.cells
      = (s.packets.map Packet.cells).filter (fun row => (Packet.ofCells row).id ≠ packetId) := by
    rw [List.filter_map]
    rfl
  unfold packetsOf visitPackets
  show (((E.scan packetsStatement ((s.packets.filter fun p => p.id ≠ packetId).map
    Packet.cells)).map Packet.ofCells).filter _) = _
  rw [hcells, hE, List.filter_filter]
  show (((E.scan packetsStatement _).filter ((fun p => decide (p.id ≠ packetId)) ∘
    Packet.ofCells)).map Packet.ofCells).filter _ = _
  rw [← List.filter_map, List.filter_filter]
  exact List.filter_congr fun p _ => Bool.and_comm _ _

omit [Double F] in
/-- What is left of a part of some rows is a part of what is left of them.

A part may be cut off at the number of rows that was asked for. Without the
row one more could be listed, so the table must be short enough for nothing to
be cut off. -/
theorem IsPart.filter {faulty : Prop} {α : Type} {part rows : List α}
    (h : IsPart faulty part rows) (hsize : ¬ faulty → rows.length ≤ SQLite.sizeMax)
    (keep : α → Bool) : IsPart faulty (part.filter keep) (rows.filter keep) := by
  obtain ⟨k, hk, rfl, hall⟩ := h
  have hprefix : (rows.take k).filter keep <+: rows.filter keep :=
    (List.take_prefix k rows).filter keep
  have hlen : ((rows.take k).filter keep).length ≤ k :=
    (List.length_filter_le _ _).trans (List.length_take_le _ _)
  refine ⟨_, hlen.trans hk, List.prefix_iff_eq_take.mp hprefix, fun hf => ?_⟩
  have hrows := hsize hf
  rw [hall hf, Nat.min_eq_right hrows, List.take_length]
  exact (Nat.min_eq_right ((List.length_filter_le _ _).trans hrows)).symm

end Store

/-! ## The loop over the packets of a client

The loop has an accumulator for each window. A packet that is in neither window
changes neither, and one that is only in the longer window changes what is said of
that. -/

/-- The shorter interval is not the longer. -/
theorem minute_le : STATS_INTERVAL_MINUTES_1 ≤ STATS_INTERVAL_MINUTES_2 := by
  decide

/-- **Two states of the loop agree on the last minute**: the second has passed
over packets that the first has not counted for it either. -/
structure Server.Sums.Agrees (a b : Sums F) : Prop where
  /-- The sums of `x` agree. -/
  sumX1 : a.sumX1 = b.sumX1
  /-- The counts agree. -/
  countX1 : a.countX1 = b.countX1
  /-- The sums of `|y|` agree. -/
  y1 : a.y1 = b.y1
  /-- Whether there is a packet of the last minute agrees. -/
  needToAdd1 : a.needToAdd1 = b.needToAdd1
  /-- The first has every packet of the last five minutes that the second
  has. -/
  needToAdd5 : b.needToAdd5 = true → a.needToAdd5 = true
  /-- Without a packet of the last minute there is no sum. -/
  y1_zero : a.needToAdd1 = false → a.y1 = Double.zero

namespace Collecting

variable {interval1 interval2 : Int} {a b : Sums F} {p : Packet F}

theorem agrees_zero : (Sums.zero : Sums F).Agrees Sums.zero :=
  ⟨rfl, rfl, rfl, rfl, id, fun _ => rfl⟩

/-- A packet that is older than a minute may be passed over. -/
theorem agrees_skip (h : a.Agrees b) (hp : p.timestamp < interval1) :
    (addPacket interval1 interval2 a p).Agrees b := by
  unfold addPacket Sums.add1 Sums.add5
  rw [if_neg (not_le.mpr hp)]
  split_ifs with h5
  · exact ⟨h.sumX1, h.countX1, h.y1, h.needToAdd1, fun _ => rfl, h.y1_zero⟩
  · exact h

/-- A packet that is counted in both keeps them in agreement. -/
theorem agrees_add (h : a.Agrees b) (p : Packet F) :
    (addPacket interval1 interval2 a p).Agrees (addPacket interval1 interval2 b p) := by
  unfold addPacket Sums.add1 Sums.add5
  split_ifs with h5 h1 h1
  · exact ⟨by simp only [h.sumX1], by simp only [h.countX1], by simp only [h.y1], rfl,
      fun _ => rfl, nofun⟩
  · exact ⟨h.sumX1, h.countX1, h.y1, h.needToAdd1, fun _ => rfl, h.y1_zero⟩
  · exact ⟨by simp only [h.sumX1], by simp only [h.countX1], by simp only [h.y1], rfl,
      h.needToAdd5, nofun⟩
  · exact h

/-- **The loop without packets older than a minute** agrees with the loop.

By induction on the packets, and each of them either is counted in both loops
or changes nothing that is compared. -/
theorem agrees_filter {keep : Packet F → Bool} {packets : List (Packet F)} (h : a.Agrees b)
    (hold : ∀ p ∈ packets, keep p = false → p.timestamp < interval1) :
    (packets.foldl (addPacket interval1 interval2) a).Agrees
      ((packets.filter keep).foldl (addPacket interval1 interval2) b) := by
  induction packets generalizing a b with
  | nil => exact h
  | cons p packets ih =>
    obtain ⟨hp, hold⟩ := List.forall_mem_cons.mp hold
    cases hkeep : keep p with
    | true =>
      rw [List.filter_cons_of_pos hkeep]
      exact ih (agrees_add h p) hold
    | false =>
      rw [List.filter_cons_of_neg (by simp [hkeep])]
      exact ih (agrees_skip h (hp hkeep)) hold

/-- **The loop without packets older than both intervals** is the loop.

Here the results are equal, since a packet older than both leaves the whole
state as it is. -/
theorem foldl_filter {keep : Packet F → Bool} {packets : List (Packet F)}
    (hold : ∀ p ∈ packets, keep p = false → p.timestamp < interval1 ∧ p.timestamp < interval2) :
    (packets.filter keep).foldl (addPacket interval1 interval2) a
      = packets.foldl (addPacket interval1 interval2) a := by
  induction packets generalizing a with
  | nil => rfl
  | cons p packets ih =>
    obtain ⟨hp, hold⟩ := List.forall_mem_cons.mp hold
    cases hkeep : keep p with
    | true =>
      rw [List.filter_cons_of_pos hkeep]
      exact ih hold
    | false =>
      obtain ⟨h1, h2⟩ := hp hkeep
      have hskip : addPacket interval1 interval2 a p = a := by
        unfold addPacket Sums.add1 Sums.add5
        rw [if_neg (not_le.mpr h1), if_neg (not_le.mpr h2)]
      rw [List.filter_cons_of_neg (by simp [hkeep]), List.foldl_cons, hskip]
      exact ih hold

/-- What the entries of two states that agree say of the last minute. -/
theorem agrees_entry (h : a.Agrees b) (uuid : Bytes) :
    (∀ e' ∈ b.entry uuid, ∃ e ∈ a.entry uuid, e.x1 = e'.x1 ∧ e.y1 = e'.y1)
      ∧ ∀ e ∈ a.entry uuid, b.entry uuid = none → e.x1 = Double.zero ∧ e.y1 = Double.zero := by
  unfold Sums.entry
  rw [h.needToAdd1, h.sumX1, h.countX1]
  constructor
  · intro e' he'
    by_cases hadd : (b.needToAdd1 || b.needToAdd5) = true
    · rw [if_pos hadd, Option.mem_some_iff] at he'
      subst he'
      have hadd' : (b.needToAdd1 || a.needToAdd5) = true := by
        rw [Bool.or_eq_true] at hadd ⊢
        exact hadd.imp_right h.needToAdd5
      rw [if_pos hadd']
      exact ⟨_, rfl, rfl, h.y1⟩
    · rw [if_neg hadd] at he'
      cases he'
  · intro e he hnone
    have hadd : ¬ (b.needToAdd1 || b.needToAdd5) = true := fun hadd => by
      rw [if_pos hadd] at hnone
      cases hnone
    -- the packets of the entry are older than a minute
    have hshort : b.needToAdd1 = false := by
      rw [Bool.or_eq_true, not_or, Bool.not_eq_true] at hadd
      exact hadd.1
    rw [hshort] at he
    by_cases hadd' : (false || a.needToAdd5) = true
    · rw [if_pos hadd', Option.mem_some_iff] at he
      subst he
      exact ⟨rfl, h.y1_zero (h.needToAdd1.trans hshort)⟩
    · rw [if_neg hadd'] at he
      cases he

end Collecting

/-! ## What two replies say of the last minute

An entry is in the reply if there was a packet in either window. So without an old
packet an entry may be missing, and what it said of the last minute is then zero. -/

/-- What entries say of a uuid and the last minute. A uuid without an entry has
nothing to add up.

The first entry of the uuid, of which there is at most one. -/
def lastMinute (stats : List (ServerStatistic.Statistic F)) (uuid : Bytes) : F × F :=
  match stats.find? (fun e => e.uuid = uuid) with
  | none => (Double.zero, Double.zero)
  | some e => (e.x1, e.y1)

/-- **Two lists of entries say the same of the last minute.** The first may have
entries the second has not, for packets older than that. -/
structure SameMinute (stats stats' : List (ServerStatistic.Statistic F)) : Prop where
  /-- No entry of the second is missing in the first. -/
  uuids : (stats'.map ServerStatistic.Statistic.uuid).Sublist
    (stats.map ServerStatistic.Statistic.uuid)
  /-- Every `x1` and `y1` of the first is that of the second. -/
  shown : ∀ e ∈ stats, (e.x1, e.y1) = lastMinute stats' e.uuid

namespace SameMinute

variable {a b : Sums F} {stats stats' : List (ServerStatistic.Statistic F)} {uuid : Bytes}

theorem nil : SameMinute ([] : List (ServerStatistic.Statistic F)) [] := ⟨.slnil, nofun⟩

/-- The next entry, of a client that has none yet. -/
theorem cons (h : SameMinute stats stats') (hab : a.Agrees b)
    (huuid : uuid ∉ stats.map ServerStatistic.Statistic.uuid) :
    SameMinute ((a.entry uuid).toList ++ stats) ((b.entry uuid).toList ++ stats') := by
  obtain ⟨hkept, hshown⟩ := Collecting.agrees_entry hab uuid
  -- the other entries are of other clients
  have hother : ∀ e ∈ stats, lastMinute ((b.entry uuid).toList ++ stats') e.uuid
      = lastMinute stats' e.uuid := by
    intro e he
    have hne : uuid ≠ e.uuid := fun heq => huuid (heq ▸ List.mem_map_of_mem he)
    unfold lastMinute
    cases hb : b.entry uuid with
    | none => rfl
    | some e' =>
      have he' : e'.uuid = uuid := Collecting.sums_entry_uuid hb
      rw [Option.toList_some, List.singleton_append,
        List.find?_cons_of_neg (by rw [he']; simpa using hne)]
  have hnone : stats'.find? (fun e => e.uuid = uuid) = none := by
    refine List.find?_eq_none.mpr fun e he heq => huuid ?_
    rw [← of_decide_eq_true heq]
    exact h.uuids.subset (List.mem_map_of_mem he)
  cases hb : b.entry uuid with
  | none =>
    rw [hb] at hother
    refine ⟨?_, fun e he => ?_⟩
    · rw [Option.toList_none, List.nil_append, List.map_append]
      exact h.uuids.trans (List.sublist_append_right _ _)
    · rcases List.mem_append.mp he with he | he
      · obtain ⟨hx, hy⟩ := hshown e (Option.mem_toList.mp he) hb
        rw [Collecting.sums_entry_uuid (Option.mem_toList.mp he)]
        unfold lastMinute
        rw [Option.toList_none, List.nil_append, hnone, hx, hy]
      · exact (h.shown e he).trans (hother e he).symm
  | some e' =>
    rw [hb] at hother
    obtain ⟨e, he, hx, hy⟩ := hkept e' hb
    have hea : a.entry uuid = some e := he
    have he' : e'.uuid = uuid := Collecting.sums_entry_uuid hb
    rw [hea, Option.toList_some, Option.toList_some, List.singleton_append,
      List.singleton_append]
    refine ⟨?_, List.forall_mem_cons.mpr ⟨?_, fun e he => ?_⟩⟩
    · rw [List.map_cons, List.map_cons, he', Collecting.sums_entry_uuid hea]
      exact h.uuids.cons_cons _
    · unfold lastMinute
      rw [Collecting.sums_entry_uuid hea, List.find?_cons_of_pos
        (p := fun e : ServerStatistic.Statistic F => e.uuid = uuid) (decide_eq_true he'), hx, hy]
    · exact (h.shown e he).trans (hother e he).symm

end SameMinute

/-! ## A collection without a packet

The same program on other stores: the listing of the clients is the same, and in each
of the later calls the row is missing from what is listed, if it was among it. -/

/-- **What a collection returns** when others may add rows between its calls,
which are made on the given stores, one after another, and at the given time.

The stores are those in which the calls were issued. What the others do in
between is whatever makes one of them grow into the next. -/
def Collects (E : Engine F) (faulty : Prop) (now : Int) (stores : List (Store F))
    (r : ServerStatistic F) : Prop :=
  ∃ s es t, Steps (storeHandler E faulty (fun n => n = now)) Store.Grows collectStatistics s es
      (.ret r) t
    ∧ es.map Event.pre = stores

namespace Collecting

variable {E : Engine F} {faulty : Prop} {clock : Int → Prop} {s t : Store F}
  {es : List (Event (Store F) (Cmd F) Cmd.Resp)} {packetId : Int}

/-- Every packet of an id is older than a point in time, in every store a
collection reads. -/
def Older (es : List (Event (Store F) (Cmd F) Cmd.Resp)) (packetId start : Int) : Prop :=
  ∀ e ∈ es, ∀ p ∈ e.pre.packets, p.id = packetId → p.timestamp < start

/-- A `size_t` counts the packets of every store a collection reads, or calls
may fail. -/
def Countable (faulty : Prop) (es : List (Event (Store F) (Cmd F) Cmd.Resp)) : Prop :=
  ∀ e ∈ es, ¬ faulty → e.pre.packets.length ≤ SQLite.sizeMax

/-- **The loop over the clients can be run without a packet** that is older than
a minute. The entries say the same of the last minute, and are the same if the
packet is older than five.

By induction on the clients. The statistics so far are generalised, because
the two loops have collected different ones. -/
theorem steps_without (hE : E.Stable) (clock' : Int → Prop) {interval1 interval2 : Int}
    (hle : interval2 ≤ interval1) {clients : List Client}
    {stats r : List (ServerStatistic.Statistic F)}
    (h : Steps (storeHandler E faulty clock) Store.Grows
      (collectClients interval1 interval2 (clients.map Store.clientRow) stats) s es (.ret r) t)
    (hnodup : (clients.map Client.uuid).Nodup) (hsize : Countable faulty es)
    (hold : Older es packetId interval1) :
    ∃ es' new new', r = stats ++ new
      ∧ es'.map Event.pre = es.map (fun e => e.pre.without packetId)
      ∧ (∀ stats', Steps (storeHandler E faulty clock') Store.Grows
          (collectClients interval1 interval2 (clients.map Store.clientRow) stats')
          (s.without packetId) es' (.ret (stats' ++ new')) (t.without packetId))
      ∧ (new.map ServerStatistic.Statistic.uuid).Sublist (clients.map Client.uuid)
      ∧ SameMinute new new' ∧ (Older es packetId interval2 → new' = new) := by
  induction clients generalizing stats s es with
  | nil =>
    obtain ⟨rfl, hr, hst⟩ := h.ret_inv
    cases hr
    refine ⟨[], [], [], (List.append_nil _).symm, rfl, fun stats' => ?_, .slnil, .nil,
      fun _ => rfl⟩
    rw [List.append_nil]
    exact .done (hst.without packetId)
  | cons c clients ih =>
    obtain ⟨-, hq, -⟩ | ⟨s₁, resp, s₂, es₁, rfl, hs, hc, rest⟩ := Steps.call_inv h
    · cases hq
    have hc : handler E faulty clock s₁.toDatabase _ resp s₂.toDatabase := hc
    obtain ⟨hstore, ⟨part, hpart, rfl⟩ | ⟨-, what, rfl⟩⟩ := Store.handler_listPackets hc
    · obtain rfl := Store.toDatabase_injective hstore
      obtain ⟨hsize₁, hsize⟩ := List.forall_mem_cons.mp hsize
      obtain ⟨hold₁, hold⟩ := List.forall_mem_cons.mp hold
      rw [List.map_cons, List.nodup_cons] at hnodup
      have rest : Steps (storeHandler E faulty clock) Store.Grows
          ((Prog.ofExcept (sumRows interval1 interval2 (part.map Store.packetRow)
            Sums.zero)).bind fun sums =>
            collectClients interval1 interval2 (clients.map Store.clientRow)
              (stats ++ (sums.entry c.uuid).toList)) s₂ es₁ (.ret r) t := rest
      rw [sumRows_packetRow] at rest
      obtain ⟨es', new, new', rfl, hes, hrun, huuids, hsame, heq⟩ := ih rest hnodup.2 hsize hold
      -- the packets that are left are listed in the other run
      have hmem : ∀ p ∈ part, p ∈ s₂.packets := by
        obtain ⟨k, -, rfl, -⟩ := hpart
        intro p hp
        exact List.mem_of_mem_filter
          ((s₂.packetsOf_perm E c.id).mem_iff.mp (List.mem_of_mem_take hp))
      have hlen : ¬ faulty → (s₂.packetsOf E c.id).length ≤ SQLite.sizeMax := fun hf =>
        ((s₂.packetsOf_perm E c.id).length_eq.trans_le (List.length_filter_le _ _)).trans
          (hsize₁ hf)
      have hpart' := hpart.filter hlen (fun p => p.id ≠ packetId)
      rw [← Store.packetsOf_without hE] at hpart'
      have hlist : handler E faulty clock' (s₂.without packetId).toDatabase
          (.selectMany PACKETS_TABLE_NAME packetColumns (some (whereClientId c.id)) none
            SQLite.sizeMax)
          (.ok ((part.filter (fun p => p.id ≠ packetId)).map Store.packetRow))
          (s₂.without packetId).toDatabase :=
        ((s₂.without packetId).lists_packets E c.id).answers hpart'
      have hgone : ∀ p : Packet F, decide (p.id ≠ packetId) = false → p.id = packetId :=
        fun p hp => by simpa using hp
      have hagrees : (part.foldl (addPacket interval1 interval2) Sums.zero).Agrees _ :=
        agrees_filter agrees_zero fun p hp hp' => hold₁ p (hmem p hp) (hgone p hp')
      have hother : c.uuid ∉ new.map ServerStatistic.Statistic.uuid :=
        fun hmem => hnodup.1 (huuids.subset hmem)
      refine ⟨⟨_, _, _, _⟩ :: es', _, _, List.append_assoc _ _ _, congrArg (List.cons _) hes,
        fun stats' => .own (hs.without packetId) hlist ?_, ?_, hsame.cons hagrees hother,
        fun hlong => ?_⟩
      · show Steps _ Store.Grows ((Prog.ofExcept (sumRows interval1 interval2
          ((part.filter fun p => p.id ≠ packetId).map Store.packetRow) Sums.zero)).bind _) _ _ _ _
        rw [sumRows_packetRow, ← List.append_assoc]
        exact hrun _
      · rw [List.map_append, List.map_cons]
        cases hentry : (part.foldl (addPacket interval1 interval2) Sums.zero).entry c.uuid with
        | none => exact huuids.cons _
        | some e =>
          show (e.uuid :: new.map _).Sublist _
          rw [sums_entry_uuid hentry]
          exact huuids.cons_cons _
      · obtain ⟨hlong₁, hlong⟩ := List.forall_mem_cons.mp hlong
        rw [heq hlong, foldl_filter fun p hp hp' => ?_]
        have hp'' := hlong₁ p (hmem p hp) (hgone p hp')
        exact ⟨hp''.trans_le hle, hp''⟩
    · cases rest.throw_inv.2.1

/-- **A collection can be run without a packet** that is older than a minute at
the time it reads from the clock.

One time for both runs: the one that was read. Were the other run given
another, its windows would be different. -/
theorem collect_without (hE : E.Stable) (packetId : Int) {r : ServerStatistic F}
    (h : Steps (storeHandler E faulty clock) Store.Grows collectStatistics s es (.ret r) t)
    (hsize : Countable faulty es) :
    ∃ now, (∃ e ∈ es, e.time = some now)
      ∧ (Older es packetId (now - STATS_INTERVAL_MINUTES_1) →
        ∃ r', Collects E faulty now (es.map fun e => e.pre.without packetId) r'
          ∧ SameMinute r.client r'.client
          ∧ (Older es packetId (now - STATS_INTERVAL_MINUTES_2) → r' = r)) := by
  obtain ⟨-, hq, -⟩ | ⟨s₁, resp, s₂, es', rfl, hs, hc, rest⟩ := Steps.call_inv h
  · cases hq
  have hc : handler E faulty clock s₁.toDatabase _ resp s₂.toDatabase := hc
  obtain ⟨hstore, ⟨part, hpart, rfl⟩ | ⟨-, what, rfl⟩⟩ := Store.handler_listClients hc
  · obtain rfl := Store.toDatabase_injective hstore
    obtain ⟨-, hq, -⟩ | ⟨s₃, now, s₄, reads, rfl, hs', hc', last⟩ := Steps.call_inv rest
    · cases hq
    obtain rfl := Store.toDatabase_injective hc'.2
    have last : Steps (storeHandler E faulty clock) Store.Grows
        ((collectClients (now - STATS_INTERVAL_MINUTES_1) (now - STATS_INTERVAL_MINUTES_2)
          (part.map Store.clientRow) []).bind fun stats => .ret ⟨stats⟩)
        s₄ reads (.ret r) t := last
    obtain ⟨stats, es₁, es₂, m, rfl, hclients, hret⟩ := last.bind_ret_inv
    obtain ⟨rfl, hr, hm⟩ := hret.ret_inv
    cases hr
    rw [List.append_nil] at hsize ⊢
    refine ⟨now, ⟨_, List.mem_cons_of_mem _ List.mem_cons_self, rfl⟩, fun hold => ?_⟩
    have hsub : ∀ a b, es₁ ⊆ a :: b :: es₁ := fun a b e he =>
      List.mem_cons_of_mem a (List.mem_cons_of_mem b he)
    have hnodup : (part.map Client.uuid).Nodup := by
      obtain ⟨k, -, rfl, -⟩ := hpart
      exact (((s₂.listed_perm E).map Client.uuid).nodup_iff.mpr s₂.uuids_nodup).sublist
        ((List.take_sublist _ _).map _)
    obtain ⟨es', new, new', rfl, hes, hrun, -, hsame, heq⟩ := steps_without hE
      (fun n => n = now) (sub_le_sub_left minute_le now) hclients hnodup
      (fun e he => hsize e (hsub _ _ he)) (fun e he => hold e (hsub _ _ he))
    have hlist : handler E faulty (fun n => n = now) (s₂.without packetId).toDatabase
        (.selectMany CLIENTS_TABLE_NAME clientColumns none none SQLite.sizeMax)
        (.ok (part.map Store.clientRow)) (s₂.without packetId).toDatabase :=
      ((s₂.without packetId).lists_clients E).answers hpart
    have hrest : Steps (storeHandler E faulty (fun n => n = now)) Store.Grows
        (Collecting.Phase.reading now part []).prog (s₄.without packetId) (es' ++ [])
        (.ret ⟨[] ++ new'⟩) (t.without packetId) :=
      (hrun []).bind (.done (hm.without packetId))
    rw [List.append_nil] at hrest
    refine ⟨⟨new'⟩, ⟨s.without packetId, _, t.without packetId, .own (hs.without packetId) hlist
      (.own (hs'.without packetId) ⟨rfl, rfl⟩ hrest), ?_⟩, hsame, fun hlong => ?_⟩
    · rw [List.map_cons, List.map_cons, hes]
      rfl
    · rw [heq fun e he => hlong e (hsub _ _ he)]
  · cases rest.throw_inv.2.1

/-- **When nothing fails there is one answer**, and the stores decide it.

So the comparison is with one reply and not with some reply, where no call
fails. -/
theorem collects_eq {now : Int} {stores : List (Store F)} {r : ServerStatistic F}
    (h : Collects E False now stores r) :
    ∃ listing timing reads, stores = listing :: timing :: reads
      ∧ r = ⟨entriesOf E now (clientsRead E listing) reads⟩ := by
  obtain ⟨s, es, t, hrun, rfl⟩ := h
  obtain ⟨listing, timing, reads, _, rfl, rfl, -, -, rfl⟩ := steps_collect hrun
  exact ⟨_, _, _, rfl, rfl⟩

/-- Stores without packets have no entries. -/
theorem entriesOf_eq_nil {now : Int} {clients : List Client} {stores : List (Store F)}
    (h : ∀ s ∈ stores, s.packets = []) : entriesOf E now clients stores = [] := by
  induction clients generalizing stores with
  | nil => rfl
  | cons c clients ih =>
    cases stores with
    | nil => rfl
    | cons s stores =>
      obtain ⟨hs, h⟩ := List.forall_mem_cons.mp h
      have hread : packetsRead E s c.id = [] := by
        have hperm := s.packetsOf_perm E c.id
        rw [hs, List.filter_nil, List.perm_nil] at hperm
        unfold packetsRead
        rw [hperm, List.take_nil]
      show (entryOf now c.uuid (packetsRead E s c.id) :: List.zipWith _ clients stores).reduceOption
        = []
      rw [hread]
      exact (List.reduceOption_cons_of_none _).trans (ih h)

end Collecting

/-! ## Packets among others

The save and the collection are executions among any others, the first over before the
second has begun. The run is cut between the two. -/

/-- What an execution answers: a collection answers with its statistics. -/
def Job.answer : Job F → ServerProg F (Option (ServerStatistic F))
  | .save packet => do
    saveClientPacket packet
    .ret none
  | .collect => do
    let stats ← collectStatistics
    .ret (some stats)

theorem Job.answer_conforms (job : Job F) :
    job.answer.Conforms ServerCall Answered (fun _ => True) := by
  cases job with
  | save packet => exact (Saving.saveClientPacket_conforms packet).bind fun _ _ => trivial
  | collect =>
    exact (Job.reads_conforms Collecting.collectStatistics_reads).bind fun _ _ => trivial

/-- **A packet leaves a reply** when it is old, its age being counted from
`since`. The save, of which `saving` are the calls, has written a row that says
what the packet says; the row is in all the stores in which the calls
`collecting` of the collection were issued, one of which has read the time
`now` from the clock. If the packet is older than five minutes then, the reply
is the one the same stores without the row would give; if it is older than one
minute, the reply says the same of the last minute as such a reply.

The age is counted from `since`, which is a parameter: with the time of the
packet it is what the server does, with the time of saving what one might
expect of it. The two readings differ in nothing else. -/
def Leaves (E : Engine F) (faulty : Prop) (since : Int) (data : ClientPacket.Data F)
    (saving collecting : List (Event (Database F) (Cmd F) Cmd.Resp))
    (reply : ServerStatistic F) : Prop :=
  ∃ (p : Packet F) (us : List (Store F)) (now : Int),
    (∃ e ∈ saving, e.post.rowsOf PACKETS_TABLE_NAME
      = e.pre.rowsOf PACKETS_TABLE_NAME ++ [p.cells])
    ∧ (p.timestamp = data.timestamp ∧ p.x = data.x ∧ p.y = data.y)
    ∧ collecting.map Event.pre = us.map Store.toDatabase
    ∧ (∀ u ∈ us, p ∈ u.packets)
    ∧ (∃ e ∈ collecting, e.time = some now)
    ∧ (since + STATS_INTERVAL_MINUTES_2 < now →
      Collects E faulty now (us.map fun u => u.without p.id) reply)
    ∧ (since + STATS_INTERVAL_MINUTES_1 < now →
      ∃ reply', Collects E faulty now (us.map fun u => u.without p.id) reply'
        ∧ SameMinute reply.client reply'.client)

/-- **Packets leave the statistics by the clock of the server**: the age of a packet
is counted from the time `saved` at which its save had returned. Take any
saves and collections side by side, until a save has returned, and later, when a
collection that had not begun by then has answered; and let the clock of the
server not be set back, so that it shows at most `saved` until then and at least
`saved` afterwards. Then the packet leaves the reply as it grows older than
`saved`.

This is what one would expect of a server that keeps packets for a while. It
is not what the server does (`packet_stays`). -/
def ExpireSinceSaved (E : Engine F) : Prop :=
  ∀ (faulty : Prop) (clock₁ clock₂ : Int → Prop) (job : ℕ → Job F) (s : Store F)
    (turns₁ turns₂ : List (Turn ℕ (Database F) (Cmd F) Cmd.Resp))
    (left₁ left₂ : ℕ → ServerProg F (Option (ServerStatistic F))) (m d : Database F)
    (saved : Int),
    Interleaved (handler E faulty clock₁) (fun i => (job i).answer) s.toDatabase turns₁ left₁ m →
    Interleaved (handler E faulty clock₂) left₁ m turns₂ left₂ d →
    (∀ n, clock₁ n → n ≤ saved) → (∀ n, clock₂ n → saved ≤ n) →
    (d.rowsOf PACKETS_TABLE_NAME).length ≤ SQLite.sizeMax →
    ∀ (i : ℕ) (type : Int) (data : ClientPacket.Data F), job i = .save ⟨type, some data⟩ →
      left₁ i = .ret none →
    ∀ (j : ℕ) (reply : ServerStatistic F), job j = .collect → left₁ j = (job j).answer →
      left₂ j = .ret (some reply) →
    Leaves E faulty saved data (ownTurns i turns₁) (ownTurns j turns₂) reply

/-- The turn in which a save has written the one row it has added. -/
theorem exists_wrote {es : List (Event (Store F) (Cmd F) Cmd.Resp)} {p : Packet F}
    (hadded : es.flatMap Event.added = [p]) (hes : ∀ e ∈ es, e.pre.Grows e.post) :
    ∃ e ∈ es, e.post.packets = e.pre.packets ++ [p] := by
  obtain ⟨e, he, hp⟩ := List.mem_flatMap.mp (hadded ▸ List.mem_singleton_self p)
  have hsub : e.added.Sublist [p] :=
    hadded ▸ List.sublist_flatten_of_mem (List.mem_map_of_mem he)
  obtain ⟨ps, hps⟩ := (hes e he).packets
  have hrows : e.added = ps := by
    unfold Event.added
    rw [← hps, List.drop_left]
  rw [hrows] at hp hsub
  refine ⟨e, he, ?_⟩
  rw [← hps, (List.sublist_singleton.mp hsub).resolve_left (List.ne_nil_of_mem hp)]

/-- **A packet leaves the statistics when its own timestamp is old.** Take any saves
and collections side by side, until a save has returned, and later, when a
collection that had not begun by then has answered. The packet leaves the reply
as it grows older than its own timestamp.

Nothing is assumed of the clock, which may show anything before and after: the
server compares a packet with the time it reads while it collects, and with no
other. What is assumed of SQLite is that it visits the rows that are left in
their old order when one is missing, for sums of doubles depend on the order. -/
theorem packets_expire {E : Engine F} (hE : E.Stable) {faulty : Prop}
    {clock₁ clock₂ : Int → Prop} {job : ℕ → Job F} {s : Store F}
    {turns₁ turns₂ : List (Turn ℕ (Database F) (Cmd F) Cmd.Resp)}
    {left₁ left₂ : ℕ → ServerProg F (Option (ServerStatistic F))} {m d : Database F}
    (h₁ : Interleaved (handler E faulty clock₁) (fun i => (job i).answer) s.toDatabase turns₁
      left₁ m)
    (h₂ : Interleaved (handler E faulty clock₂) left₁ m turns₂ left₂ d)
    (hsize : (d.rowsOf PACKETS_TABLE_NAME).length ≤ SQLite.sizeMax)
    {i : ℕ} {type : Int} {data : ClientPacket.Data F} (hi : job i = .save ⟨type, some data⟩)
    (hsaved : left₁ i = .ret none)
    {j : ℕ} {reply : ServerStatistic F} (hj : job j = .collect)
    (hlater : left₁ j = (job j).answer) (hreply : left₂ j = .ret (some reply)) :
    Leaves E faulty data.timestamp data (ownTurns i turns₁) (ownTurns j turns₂) reply := by
  obtain ⟨m, turns₁, rfl, rfl, hrun₁, hleft, -⟩ :=
    h₁.lift simulates_store fun i => (job i).answer_conforms
  obtain ⟨t, turns₂, rfl, rfl, hrun₂, hturns₂⟩ := interleaved_grows hleft h₂
  have hturns₁ := interleaved_stores (fun i => (job i).answer_conforms) hrun₁
  -- the save has written its row
  have hsave := hrun₁.project (i := i) fun e he _ => (hturns₁ e he).1
  rw [hi, hsaved] at hsave
  have hsave : Steps _ Store.Grows ((saveClientPacket ⟨type, some data⟩).bind fun _ => .ret none)
    _ _ _ _ := hsave
  obtain ⟨_, es₁, es₂, m', hes, hsave, hret⟩ := hsave.bind_ret_inv
  obtain ⟨rfl, -, -⟩ := hret.ret_inv
  rw [List.append_nil] at hes
  rw [Saving.saveClientPacket_eq] at hsave
  obtain ⟨p, hadded, _, -, -, -, htime, hx, hy⟩ := Saving.steps_added hsave trivial nofun
  have hown : ∀ e ∈ es₁, e.pre.Grows e.post ∧ e.post.Grows m := fun e he => by
    have hmem := hturns₁ _ ((mem_ownTurns i).mp (hes ▸ he))
    exact ⟨hmem.1, hmem.2.2⟩
  obtain ⟨e, he, hwrote⟩ := exists_wrote hadded fun e he => (hown e he).1
  have hpm : p ∈ m.packets := (hown e he).2.packets.subset
    (hwrote ▸ List.mem_append_right _ List.mem_cons_self)
  -- the collection reads stores with the row
  have hcollect := hrun₂.project (i := j) fun e he _ => (hturns₂ e he).1
  rw [hlater, hj, hreply] at hcollect
  have hcollect : Steps _ Store.Grows (collectStatistics.bind fun stats => .ret (some stats))
    _ _ _ _ := hcollect
  obtain ⟨r, es₂, es₃, m'', hes₂, hcollect, hret⟩ := hcollect.bind_ret_inv
  obtain ⟨rfl, hr, -⟩ := hret.ret_inv
  cases hr
  rw [List.append_nil] at hes₂
  have hread : ∀ e ∈ es₂, m.Grows e.pre ∧ e.pre.Grows t := fun e he => by
    have hmem := hturns₂ _ ((mem_ownTurns j).mp (hes₂ ▸ he))
    exact ⟨hmem.2.1, hmem.1.trans hmem.2.2⟩
  have hold : ∀ {start}, p.timestamp < start → Collecting.Older es₂ p.id start := by
    intro start hstart e he p' hp' hid
    rwa [List.inj_on_of_nodup_map e.pre.packetIds_nodup hp'
      ((hread e he).1.packets.subset hpm) hid]
  rw [Store.rowsOf_packets, List.length_map] at hsize
  obtain ⟨now, ⟨timing, hmem, hnow⟩, hwithout⟩ := Collecting.collect_without hE p.id
    hcollect fun e he _ => (hread e he).2.packets.length_le.trans hsize
  rw [Interleaved.ownTurns_mapTurn, Interleaved.ownTurns_mapTurn, hes, hes₂]
  refine ⟨p, es₂.map Event.pre, now, ⟨_, List.mem_map_of_mem he, Store.wrote_iff.mpr hwrote⟩,
    ⟨htime, hx, hy⟩, ?_, ?_,
    ⟨_, List.mem_map_of_mem hmem, (timing.time_map Store.toDatabase).trans hnow⟩, ?_, ?_⟩
  · rw [List.map_map, List.map_map]
    rfl
  · exact List.forall_mem_map.mpr fun e he => (hread e he).1.packets.subset hpm
  · intro hlong
    have hlong : p.timestamp < now - STATS_INTERVAL_MINUTES_2 := htime ▸ lt_sub_iff_add_lt.mpr hlong
    have hle : now - STATS_INTERVAL_MINUTES_2 ≤ now - STATS_INTERVAL_MINUTES_1 :=
      sub_le_sub_left minute_le now
    obtain ⟨r', hr', -, heq⟩ := hwithout (hold (hlong.trans_le hle))
    rw [List.map_map, ← heq (hold hlong)]
    exact hr'
  · intro hshort
    have hshort : p.timestamp < now - STATS_INTERVAL_MINUTES_1 :=
      htime ▸ lt_sub_iff_add_lt.mpr hshort
    obtain ⟨r', hr', hsame, -⟩ := hwithout (hold hshort)
    rw [List.map_map]
    exact ⟨r', hr', hsame⟩

/-! ## One packet, and a collection later

A run for both statements: one in which a packet stays too long, and one in which it
is gone. -/

/-- One save, and collections beside it. -/
def saveAndCollect (data : ClientPacket.Data F) (i : ℕ) : Job F :=
  if i = 0 then .save ⟨ClientPacket.DATA, some data⟩ else .collect

/-- A packet is saved when the clock shows one time, and the statistics are
collected when it shows another. -/
theorem exists_saved_collected (E : Engine F) (data : ClientPacket.Data F)
    (hx : Double.isNaN data.x = false) (hy : Double.isNaN data.y = false) (saved now : Int) :
    ∃ (turns₁ turns₂ : List (Turn ℕ (Store F) (Cmd F) Cmd.Resp))
      (left₁ left₂ : ℕ → ServerProg F (Option (ServerStatistic F))) (m : Store F)
      (reply : ServerStatistic F) (c : Client) (p : Packet F),
      Interleaved (storeHandler E False (fun n => n = saved))
          (fun i => (saveAndCollect data i).answer) Store.empty turns₁ left₁ m
        ∧ Interleaved (storeHandler E False (fun n => n = now)) left₁ m turns₂ left₂ m
        ∧ (left₁ 0 = .ret none ∧ left₁ 1 = (saveAndCollect data 1).answer
          ∧ left₂ 1 = .ret (some reply))
        ∧ (m.packets = [p] ∧ p.timestamp = data.timestamp)
        ∧ reply.client = (Collecting.entryOf now c.uuid [p]).toList
        ∧ ∀ e ∈ turns₂, e.2.pre = m
          ∧ storeHandler E False (fun n => n = now) e.2.pre e.2.cmd e.2.resp e.2.post := by
  obtain ⟨es₁, m, id, packetId, hsave, hcs, hps⟩ := Saving.exists_first E
    (show ∃ n, (fun n : Int => n = saved) n from ⟨saved, rfl⟩) data hx hy
  have hsave : Steps (storeHandler E False (fun n => n = saved)) Eq
      (saveAndCollect data 0).answer Store.empty es₁ (.ret none) m := by
    show Steps _ Eq ((saveClientPacket ⟨ClientPacket.DATA, some data⟩).bind
      fun _ => .ret none) _ _ _ _
    rw [Saving.saveClientPacket_eq]
    exact hsave.bind_left
  obtain ⟨es₂, hcollect, hes₂⟩ := Collecting.exists_collect_one E now hcs hps rfl
  have hcollect : Steps (storeHandler E False (fun n => n = now)) Eq
      (saveAndCollect data 1).answer m es₂ (.ret (some _)) m := hcollect.bind_left
  refine ⟨_, _, _, _, m, _, ⟨id, cstr data.uuid⟩, _, .alone (i := 0) hsave rfl,
    .alone (i := 1) hcollect (Function.update_of_ne one_ne_zero _ _),
    ⟨Function.update_self _ _ _, Function.update_of_ne one_ne_zero _ _,
      Function.update_self _ _ _⟩, ⟨hps, rfl⟩, rfl, ?_⟩
  intro e he
  obtain ⟨e', he', rfl⟩ := List.mem_map.mp he
  exact ⟨(hes₂ e' he').1, hcollect.handled e' he'⟩

/-- A time that was read is a time the clock shows. -/
theorem clock_of_mem {E : Engine F} {faulty : Prop} {clock : Int → Prop} {j : ℕ}
    {turns : List (Turn ℕ (Store F) (Cmd F) Cmd.Resp)}
    (hturns : ∀ e ∈ turns, storeHandler E faulty clock e.2.pre e.2.cmd e.2.resp e.2.post)
    {e : Event (Database F) (Cmd F) Cmd.Resp} {now : Int}
    (he : e ∈ (ownTurns j turns).map (Event.map Store.toDatabase)) (hnow : e.time = some now) :
    clock now := by
  obtain ⟨⟨pre', cmd, resp, post'⟩, hmem, rfl⟩ := List.mem_map.mp he
  cases cmd with
  | now =>
    obtain rfl : resp = now := Option.some.inj hnow
    exact (hturns _ ((mem_ownTurns j).mp hmem)).1
  | _ => cases hnow

/-- **A packet with a timestamp in the future stays**: its age does not count
from when it was saved. A packet that is saved at time 0 is in the statistics
of ten minutes later, if its timestamp says so. -/
theorem packet_stays : ¬ ExpireSinceSaved (Engine.reference : Engine Binary64) := by
  intro h
  obtain ⟨turns₁, turns₂, left₁, left₂, m, reply, c, p, hrun₁, hrun₂, ⟨hsaved, hlater, hreply⟩,
    ⟨hps, htime⟩, hclient, hpre⟩ := exists_saved_collected (Engine.reference : Engine Binary64)
      ⟨[97], 10 * ticksPerMinute, ⟨0⟩, ⟨0⟩⟩
      (show Double.isNaN (⟨0⟩ : Binary64) = false by decide)
      (show Double.isNaN (⟨0⟩ : Binary64) = false by decide) 0 (10 * ticksPerMinute)
  obtain ⟨p', us, now, -, -, hus, hmem, ⟨timing, htiming, hnow⟩, hlong, -⟩ :=
    h False _ _ _ _ _ _ _ _ _ _ 0 hrun₁.unlift hrun₂.unlift (fun n hn => hn.le)
      (fun n hn => hn ▸ by decide)
      (by rw [Store.rowsOf_packets, List.length_map, hps]; exact show 1 ≤ SQLite.sizeMax by decide)
      0 _ _ rfl hsaved 1 reply rfl hlater hreply
  rw [Interleaved.ownTurns_mapTurn] at hus htiming
  obtain rfl : now = 10 * ticksPerMinute := clock_of_mem (fun e he => (hpre e he).2) htiming hnow
  -- without the packet there is nothing to report
  have hgone : ∀ u ∈ us, (u.without p'.id).packets = [] := by
    intro u hu
    have hu' : u.toDatabase ∈ us.map Store.toDatabase := List.mem_map_of_mem hu
    rw [← hus, List.map_map] at hu'
    obtain ⟨e', he', heq'⟩ := List.mem_map.mp hu'
    obtain rfl : u = m :=
      (Store.toDatabase_injective heq').symm.trans (hpre _ ((mem_ownTurns 1).mp he')).1
    have hp' := hmem u hu
    rw [hps, List.mem_singleton] at hp'
    show u.packets.filter (fun q => q.id ≠ p'.id) = []
    rw [hps, hp']
    simp
  have hcollects := hlong (by decide)
  obtain ⟨listing, timing, reads, hstores, rfl⟩ := Collecting.collects_eq hcollects
  rw [Collecting.entriesOf_eq_nil fun u hu => ?_] at hclient
  · obtain ⟨packetId, clientId, timestamp, x, y⟩ := p
    obtain rfl : timestamp = 10 * ticksPerMinute := htime
    cases hclient
  · have hu : u ∈ us.map fun u => u.without p'.id :=
      hstores ▸ List.mem_cons_of_mem _ (List.mem_cons_of_mem _ hu)
    obtain ⟨u', hu', rfl⟩ := List.mem_map.mp hu
    exact hgone u' hu'

/-- In particular a packet of time 0 is gone at ten minutes past, also of a server
whose clock had shown twenty minutes past when it was saved. -/
theorem packets_expire_one :
    ∃ (turns₁ turns₂ : List (Turn ℕ (Database Binary64) (Cmd Binary64) Cmd.Resp))
      (left₁ left₂ : ℕ → ServerProg Binary64 (Option (ServerStatistic Binary64)))
      (m : Store Binary64) (reply : ServerStatistic Binary64) (p : Packet Binary64)
      (us : List (Store Binary64)),
      Interleaved (handler (Engine.reference : Engine Binary64) False
          (fun n => n = 20 * ticksPerMinute))
          (fun i => (saveAndCollect ⟨[97], 0, ⟨0⟩, ⟨0⟩⟩ i).answer) Store.empty.toDatabase turns₁
          left₁ m.toDatabase
        ∧ Interleaved (handler (Engine.reference : Engine Binary64) False
          (fun n => n = 10 * ticksPerMinute)) left₁ m.toDatabase turns₂ left₂ m.toDatabase
        ∧ left₂ 1 = .ret (some reply)
        ∧ (ownTurns 1 turns₂).map Event.pre = us.map Store.toDatabase ∧ (∀ u ∈ us, p ∈ u.packets)
        ∧ Collects (Engine.reference : Engine Binary64) False (10 * ticksPerMinute)
          (us.map fun u => u.without p.id) reply := by
  obtain ⟨turns₁, turns₂, left₁, left₂, m, reply, c, p, hrun₁, hrun₂, ⟨hsaved, hlater, hreply⟩,
    ⟨hps, -⟩, -, hpre⟩ := exists_saved_collected (Engine.reference : Engine Binary64)
      ⟨[97], 0, ⟨0⟩, ⟨0⟩⟩ (show Double.isNaN (⟨0⟩ : Binary64) = false by decide)
      (show Double.isNaN (⟨0⟩ : Binary64) = false by decide) (20 * ticksPerMinute)
      (10 * ticksPerMinute)
  obtain ⟨p, us, now, -, -, hus, hmem, ⟨timing, htiming, hnow⟩, hlong, -⟩ :=
    packets_expire (E := (Engine.reference : Engine Binary64)) (fun _ _ _ => rfl) hrun₁.unlift
      hrun₂.unlift
      (by rw [Store.rowsOf_packets, List.length_map, hps]; exact show 1 ≤ SQLite.sizeMax by decide)
      (i := 0) rfl hsaved (j := 1) rfl hlater hreply
  rw [Interleaved.ownTurns_mapTurn] at htiming
  obtain rfl : now = 10 * ticksPerMinute := clock_of_mem (fun e he => (hpre e he).2) htiming hnow
  exact ⟨_, _, left₁, left₂, m, reply, p, us, hrun₁.unlift, hrun₂.unlift, hreply, hus, hmem,
    hlong (by decide)⟩
