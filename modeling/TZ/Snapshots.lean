import Mathlib.Tactic.IntervalCases
import TZ.Replies

/-!
# A reply is not a snapshot

`Server::collectStatistics` lists the clients and then, one after another,
the packets of each, and nothing keeps others from saving packets in between.
So there need not be one state of the database that explains a whole reply
(`collectStatistics_not_snapshot`): a packet that was saved later may be in it
and one that was saved earlier not.

What a reply does say is that its clients are those of one state, and the
entry of each is that of a later state, the states following one another in
the order in which the clients are listed (`collectStatistics_snapshots`).

The two statements are about the same runs, so that the second is what is left of the
first when it fails. It is not much less: the states come one after another, and each is
later than the one before. Someone who reads the reply as a whole is misled only about
packets that were saved while it was collected.

For the refutation it is not enough that one reply differs from one snapshot. No state
of the run may explain it, at any time the clock could show. The run is therefore chosen
so that one figure can only be from before some save and another only from after a later
one.
-/

open Server

variable {F : Type} [Double F]

/-- One collection, and any number of saves beside it. -/
def collectAmong (packets : ℕ → ClientPacket F) :
    ℕ → ServerProg F (Option (ServerStatistic F))
  | 0 => do
    let stats ← collectStatistics
    .ret (some stats)
  | i + 1 => do
    saveClientPacket (packets i)
    .ret none

theorem collectAmong_conforms (packets : ℕ → ClientPacket F) (i : ℕ) :
    (collectAmong packets i).Conforms ServerCall Answered (fun _ => True) := by
  cases i with
  | zero =>
    exact (Job.reads_conforms Collecting.collectStatistics_reads).bind fun _ _ => trivial
  | succ i => exact (Saving.saveClientPacket_conforms (packets i)).bind fun _ _ => trivial

/-- **What collecting the statistics on a state alone returns**, at a given
time.

At any time: the windows may be any, so it is not the clock that the reply
fails to fit. -/
def Computes (E : Engine F) (now : Int) (d : Database F) (reply : ServerStatistic F) : Prop :=
  ∃ es d', Steps (handler E False (fun t => t = now)) Eq collectStatistics d es (.ret reply) d'

/-- Collecting on a store returns its entries. -/
theorem computes_iff {E : Engine F} {now : Int} {s : Store F} {reply : ServerStatistic F} :
    Computes E now s.toDatabase reply ↔
      reply = ⟨(Collecting.clientsRead E s).filterMap (Collecting.entry E now s)⟩ := by
  have hconforms := Job.reads_conforms (F := F) Collecting.collectStatistics_reads
  constructor
  · rintro ⟨es, d', hrun⟩
    obtain ⟨t, es', rfl, -, hrun, -⟩ := hrun.lift simulates_store hconforms
    obtain ⟨-, now', rfl, hreply⟩ := Collecting.steps_alone hrun
    exact hreply
  · rintro rfl
    obtain ⟨es, q, t, hrun, hend⟩ := exists_run E False
      (show ∃ n, (fun t : Int => t = now) n from ⟨now, rfl⟩) hconforms s
    obtain ⟨r, rfl⟩ := hend.resolve_right fun ⟨ex, hq⟩ => Collecting.steps_ne_throw hrun ex hq
    obtain ⟨-, now', rfl, rfl⟩ := Collecting.steps_alone hrun
    exact ⟨_, _, hrun.unlift⟩

/-! ## What a reply says

The states are those in which the listings were issued, so they are states of the run. -/

section Snapshots

variable {E : Engine F} {clock : Int → Prop} {packets : ℕ → ClientPacket F} {s : Store F}
  {turns : List (Turn ℕ (Database F) (Cmd F) Cmd.Resp)}
  {left : ℕ → ServerProg F (Option (ServerStatistic F))} {d : Database F}

/-- **A reply among saves.** Its clients are those of one state; the entry of
each, at one time, is that of one state; and the states follow one another in
the order in which the clients are listed. If they are the same state, the
reply is what collecting on that state alone returns. -/
theorem collectStatistics_snapshots
    (h : Interleaved (handler E False clock) (collectAmong packets) s.toDatabase turns left d)
    {reply : ServerStatistic F} (hreply : left 0 = .ret (some reply)) :
    ∃ (now : Int) (listed : Store F) (states : List (Store F)), clock now
      ∧ (∀ u ∈ listed :: states, ∃ e ∈ turns, e.1 = 0 ∧ e.2.pre = u.toDatabase)
      ∧ (listed :: states).Pairwise Store.Grows
      ∧ states.length = (Collecting.clientsRead E listed).length
      ∧ reply.client = Collecting.entriesOf E now (Collecting.clientsRead E listed) states
      ∧ ((∀ u ∈ states, u = listed) → Computes E now listed.toDatabase reply) := by
  obtain ⟨t, turns', rfl, rfl, hrun, hturns⟩ := interleaved_grows
    (collectAmong_conforms packets) h
  have hown := hrun.project (i := 0) fun e he _ => (hturns e he).1
  rw [hreply] at hown
  have hown : Steps _ Store.Grows (collectStatistics.bind fun stats => .ret (some stats)) _ _ _
    _ := hown
  obtain ⟨r, es₁, es₂, m, hes, hcollect, hrest⟩ := hown.bind_ret_inv
  obtain ⟨rfl, hr, -⟩ := hrest.ret_inv
  cases hr
  rw [List.append_nil] at hes
  have hreads := collect_reads hcollect
  obtain ⟨-, -, hordered⟩ := hcollect.ordered (G := Store.Grows) (fun _ _ h => h)
    (fun e he => (hreads e he).2)
  obtain ⟨listing, timing, reads, now, rfl, hnow, -, hlen, rfl⟩ :=
    Collecting.steps_collect hcollect
  have hpairs : ((listing :: timing :: reads).map Event.pre).Pairwise Store.Grows :=
    List.pairwise_map.mpr (hordered.imp_of_mem fun he _ hg => (hreads _ he).2.trans hg)
  refine ⟨now, listing.pre, reads.map Event.pre, hnow, ?_, ?_,
    (List.length_map _).trans hlen, rfl, fun hsame => ?_⟩
  · intro u hu
    obtain ⟨e, he, rfl⟩ : ∃ e ∈ listing :: reads, e.pre = u := by
      rwa [← List.map_cons, List.mem_map] at hu
    have hmem : e ∈ listing :: timing :: reads := by
      rcases List.mem_cons.mp he with rfl | he
      · exact List.mem_cons_self
      · exact List.mem_cons_of_mem _ (List.mem_cons_of_mem _ he)
    exact ⟨_, List.mem_map_of_mem ((mem_ownTurns 0).mp (hes ▸ hmem)), rfl, rfl⟩
  · exact hpairs.sublist ((List.Sublist.cons _ (List.Sublist.refl _)).cons_cons _)
  · rw [computes_iff, ← Collecting.entriesOf_replicate, ← hlen]
    refine congrArg _ (congrArg _ (List.map_eq_replicate_iff.mpr fun e he => ?_))
    exact hsame _ (List.mem_map_of_mem he)

end Snapshots

/-! ## Two clients, each with a packet saved in between -/

/-- The packets of the two clients. -/
def sampleData (i : ℕ) : ClientPacket.Data ℚ := ⟨[if i % 2 = 0 then 97 else 98], 0, 1, 1⟩

/-- Every other packet is that of the first client. -/
def samplePackets (i : ℕ) : ClientPacket ℚ := ⟨ClientPacket.DATA, some (sampleData i)⟩

/-- The packets saved so far, when the first `k` have been saved. -/
def savedUpTo (k : ℕ) : List (ClientPacket.Data ℚ) := (List.range k).map sampleData

theorem savedUpTo_plain (k : ℕ) : ∀ data ∈ savedUpTo k, (0 : UInt8) ∉ data.uuid := by
  intro data hdata
  obtain ⟨i, -, rfl⟩ := List.mem_map.mp hdata
  unfold sampleData
  split_ifs <;> decide

/-- A store at some point of the run: some first packets have been saved.

The saves are made one after another, so what has been saved at any point is a
first part of the packets. -/
def AtSomePoint (s : Store ℚ) : Prop := ∃ k ≤ 4, Statistics.Reflects (savedUpTo k) s

/-- The sum the entry of a uuid shows when the first `k` packets have been
saved. -/
def shownTotal (k : ℕ) (uuid : Bytes) : ℚ :=
  Sample.totalY (Statistics.long 0 (Statistics.samplesOf (savedUpTo k) uuid))

/-- At no point does the first client have one packet and the second two.

The reply shows exactly this combination. -/
theorem shownTotal_ne {k : ℕ} (hk : k ≤ 4) :
    ¬ (shownTotal k [97] = 1 ∧ shownTotal k [98] = 2) := by
  interval_cases k <;> decide +kernel

/-- The next packet is saved. -/
theorem exists_next_save {s : Store ℚ} {k : ℕ} (hk : k < 4)
    (hs : Statistics.Reflects (savedUpTo k) s) :
    ∃ es t, Steps (storeHandler (Engine.reference : Engine ℚ) False (fun t => t = 0)) Eq
        (collectAmong samplePackets (k + 1)) s es (.ret none) t
      ∧ Statistics.Reflects (savedUpTo (k + 1)) t ∧ s.Grows t
      ∧ t.packets.length = s.packets.length + 1 ∧ t.clients.length ≤ s.clients.length + 1
      ∧ ∀ e ∈ es.map (Prod.mk (k + 1)), AtSomePoint e.2.pre ∧ AtSomePoint e.2.post := by
  obtain ⟨es, t, hrun, hreflects, hgrows, hps, hcs, hes⟩ := Statistics.exists_save
    (Engine.reference : Engine ℚ) (show ∃ n, (fun t : Int => t = 0) n from ⟨0, rfl⟩) hs
    ClientPacket.DATA
    (show (Double.isNaN (sampleData k).x || Double.isNaN (sampleData k).y) = false from rfl)
  have hnext : savedUpTo k ++ [sampleData k] = savedUpTo (k + 1) := by
    unfold savedUpTo
    rw [List.range_succ, List.map_append]
    rfl
  rw [hnext] at hreflects hes
  have hpoint : ∀ u, Statistics.Reflects (savedUpTo k) u
      ∨ Statistics.Reflects (savedUpTo (k + 1)) u → AtSomePoint u := by
    rintro u (hu | hu)
    · exact ⟨k, hk.le, hu⟩
    · exact ⟨k + 1, hk, hu⟩
  refine ⟨es, t, hrun.bind_left, hreflects, hgrows, hps, hcs, ?_⟩
  intro e he
  obtain ⟨e', he', rfl⟩ := List.mem_map.mp he
  exact ⟨hpoint _ (hes e' he').1, hpoint _ (hes e' he').2⟩

/-- The entry of a client with `k` packets saved. -/
theorem exists_entry {s : Store ℚ} {k : ℕ} (hs : Statistics.Reflects (savedUpTo k) s)
    (hlen : s.packets.length < 2 ^ 31) {c : Client} (hc : c ∈ s.clients)
    (hshown : Statistics.long 0 (Statistics.samplesOf (savedUpTo k) c.uuid) ≠ []) :
    ∃ e, Collecting.entry (Engine.reference : Engine ℚ) 0 s c = some e ∧ e.uuid = c.uuid
      ∧ e.y5 = shownTotal k c.uuid := by
  rw [hs.entry_eq (savedUpTo_plain k) hlen Engine.reference 0 hc]
  obtain ⟨e, he⟩ : ∃ e, Statistics.report 0 c.uuid
      (Statistics.samplesOf (savedUpTo k) c.uuid) = some e := ⟨_, if_neg hshown⟩
  obtain ⟨-, huuid, -, -, -, hy5⟩ := Statistics.report_eq_some_iff.mp he
  exact ⟨e, he, huuid, hy5⟩

theorem eq_singleton {α : Type} {l : List α} {a : α} (hlen : l.length ≤ 1) (ha : a ∈ l) :
    l = [a] := by
  obtain ⟨x, rfl⟩ := List.length_eq_one_iff.mp
    (le_antisymm hlen (List.length_pos_of_mem ha))
  rw [List.mem_singleton.mp ha]

/-- **A run in which a reply is torn**: two clients have one packet each when
they are listed; the packets of the first are read; then each gets another
packet, the first client before the second; then the packets of the second
are read. -/
theorem exists_torn_run :
    ∃ (turns : List (Turn ℕ (Store ℚ) (Cmd ℚ) Cmd.Resp))
      (left : ℕ → ServerProg ℚ (Option (ServerStatistic ℚ))) (t : Store ℚ)
      (reply : ServerStatistic ℚ),
      Interleaved (storeHandler (Engine.reference : Engine ℚ) False (fun t => t = 0))
          (collectAmong samplePackets) Store.empty turns left t
        ∧ left 0 = .ret (some reply) ∧ t.Small
        ∧ (∀ e ∈ turns, AtSomePoint e.2.pre ∧ AtSomePoint e.2.post)
        ∧ (∃ e ∈ reply.client, e.uuid = [97] ∧ e.y5 = 1)
        ∧ ∃ e ∈ reply.client, e.uuid = [98] ∧ e.y5 = 2 := by
  -- one packet of each client
  obtain ⟨es₁, s₁, hrun₁, hr₁, -, hps₁, hcs₁, hes₁⟩ := exists_next_save (by decide)
    (show Statistics.Reflects (savedUpTo 0) Store.empty from .empty)
  obtain ⟨es₂, s₂, hrun₂, hr₂, hg₂, hps₂, hcs₂, hes₂⟩ := exists_next_save (by decide) hr₁
  have hnone : (Store.empty : Store ℚ).packets.length = 0
    ∧ (Store.empty : Store ℚ).clients.length = 0 := ⟨rfl, rfl⟩
  -- the first client is the first in the list
  obtain ⟨a, b, hclients, ha, hb⟩ : ∃ a b, s₂.clients = [a, b] ∧ a.uuid = [97] ∧ b.uuid = [98] := by
    obtain ⟨a, hmem₁, ha⟩ := List.mem_map.mp (hr₁.clients (sampleData 0)
      (List.mem_map_of_mem (List.mem_range.mpr (by decide))))
    obtain ⟨b, hmem₂, hb⟩ := List.mem_map.mp (hr₂.clients (sampleData 1)
      (List.mem_map_of_mem (List.mem_range.mpr (by decide))))
    obtain ⟨rest, hrest⟩ := hg₂.clients
    rw [eq_singleton (by omega) hmem₁] at hrest
    have hne : b ≠ a := by
      rintro rfl
      cases ha.symm.trans hb
    have hlen := congrArg List.length hrest
    rw [List.length_append, List.length_singleton] at hlen
    rw [← hrest] at hmem₂ ⊢
    have hrest₁ : rest = [b] :=
      eq_singleton (by omega) ((List.mem_cons.mp hmem₂).resolve_left hne)
    exact ⟨a, b, congrArg _ hrest₁, ha, hb⟩
  -- the clients are listed, and the packets of the first are read
  have hread : Collecting.clientsRead (Engine.reference : Engine ℚ) s₂ = [a, b] := by
    show ((s₂.clients.map Client.cells).map (Client.ofCells (F := ℚ))).take SQLite.sizeMax = _
    rw [hclients]
    exact List.take_of_length_le (show 2 ≤ SQLite.sizeMax by decide)
  obtain ⟨es₃, hrun₃, hes₃⟩ := Collecting.exists_listing (Engine.reference : Engine ℚ)
    (fun t => t = 0) (show (0 : Int) = 0 from rfl) s₂
  rw [hread] at hrun₃
  obtain ⟨es₄, hrun₄, hes₄⟩ := Collecting.exists_reading (Engine.reference : Engine ℚ)
    (fun t => t = 0) (show (0 : Int) = 0 from rfl) s₂ a [b] []
  -- another packet of each client
  obtain ⟨es₅, s₅, hrun₅, hr₅, hg₅, hps₅, hcs₅, hes₅⟩ := exists_next_save (by decide) hr₂
  obtain ⟨es₆, s₆, hrun₆, hr₆, hg₆, hps₆, hcs₆, hes₆⟩ := exists_next_save (by decide) hr₅
  -- the packets of the second client are read
  obtain ⟨es₇, hrun₇, hes₇⟩ := Collecting.exists_reading (Engine.reference : Engine ℚ)
    (fun t => t = 0) (show (0 : Int) = 0 from rfl) s₆ b []
    ([] ++ (Collecting.entry (Engine.reference : Engine ℚ) 0 s₂ a).toList)
  obtain ⟨ea, hea, hua, hya⟩ := exists_entry hr₂ (by omega)
    (show a ∈ s₂.clients from hclients ▸ List.mem_cons_self) (by rw [ha]; decide +kernel)
  obtain ⟨eb, heb, hub, hyb⟩ := exists_entry hr₆ (by omega)
    (show b ∈ s₆.clients from (hg₅.trans hg₆).clients.subset
      (hclients ▸ List.mem_cons_of_mem _ List.mem_cons_self)) (by rw [hb]; decide +kernel)
  rw [hea] at hrun₄ hrun₇
  rw [Collecting.Phase.prog_reading_nil, heb] at hrun₇
  have hcollect : Steps _ Eq (collectAmong samplePackets 0) _ _ _ _ :=
    (hrun₃.append hrun₄).bind_left
  have hfinish : Steps _ Eq ((Collecting.Phase.reading (F := ℚ) 0 [b] [ea]).prog.bind
      fun stats => .ret (some stats)) s₆ es₇ (.ret (some ⟨[ea, eb]⟩)) s₆ := hrun₇.bind_left
  have h := (((((Interleaved.nil.then_alone hrun₁ rfl).then_alone (i := 2) hrun₂
    (by simp)).then_alone (i := 0) hcollect (by simp)).then_alone (i := 3) hrun₅
    (by simp)).then_alone (i := 4) hrun₆ (by simp)).then_alone (i := 0) hfinish (by simp)
  refine ⟨_, _, s₆, ⟨[ea, eb]⟩, h, Function.update_self _ _ _, ?_, ?_,
    ⟨ea, List.mem_cons_self, hua.trans ha, ?_⟩,
    eb, List.mem_cons_of_mem _ List.mem_cons_self, hub.trans hb, ?_⟩
  · exact ⟨show s₆.packets.length < 2 ^ 31 by omega,
      (show s₆.clients.length ≤ 4 by omega).trans (by decide)⟩
  · -- no state of the run is not at some point
    have hstill : ∀ {u : Store ℚ} {es : List (Event (Store ℚ) (Cmd ℚ) Cmd.Resp)},
        AtSomePoint u → (∀ e ∈ es, e.pre = u ∧ e.post = u) →
        ∀ e ∈ es.map (Prod.mk 0), AtSomePoint e.2.pre ∧ AtSomePoint e.2.post := by
      intro u es hu hes e he
      obtain ⟨e', he', rfl⟩ := List.mem_map.mp he
      rw [(hes e' he').1, (hes e' he').2]
      exact ⟨hu, hu⟩
    simp only [List.forall_mem_append]
    exact ⟨⟨⟨⟨⟨⟨List.forall_mem_nil _, hes₁⟩, hes₂⟩,
      hstill ⟨2, by decide, hr₂⟩ (List.forall_mem_append.mpr ⟨hes₃, hes₄⟩)⟩, hes₅⟩, hes₆⟩,
      hstill ⟨4, le_rfl, hr₆⟩ hes₇⟩
  · rw [hya, ha]
    decide +kernel
  · rw [hyb, hb]
    decide +kernel

/-- At no point of the run is that what collecting the statistics on the state
returns. -/
theorem AtSomePoint.not_computes {s : Store ℚ} (hs : AtSomePoint s) (hsmall : s.Small)
    {reply : ServerStatistic ℚ} (hfst : ∃ e ∈ reply.client, e.uuid = [97] ∧ e.y5 = 1)
    (hsnd : ∃ e ∈ reply.client, e.uuid = [98] ∧ e.y5 = 2) :
    ¬ Computes Engine.reference 0 s.toDatabase reply := by
  obtain ⟨k, hk, hreflects⟩ := hs
  rw [computes_iff]
  rintro rfl
  have hshown : ∀ {uuid : Bytes} {y : ℚ}, (∃ e ∈ (Collecting.clientsRead Engine.reference
      s).filterMap (Collecting.entry Engine.reference 0 s), e.uuid = uuid ∧ e.y5 = y) →
      shownTotal k uuid = y := by
    rintro uuid y ⟨e, he, rfl, rfl⟩
    have hreport := (hreflects.mem_entries (savedUpTo_plain k) hsmall.1 hsmall.2).mp he
    exact (Statistics.report_eq_some_iff.mp hreport).2.2.2.2.2.symm
  exact shownTotal_ne hk ⟨hshown hfst, hshown hsnd⟩

/-- **A reply need not be a snapshot**: of a server that has just set its tables up, there
is a run in which the reply is not what collecting on any state of the run
returns. -/
theorem collectStatistics_not_snapshot :
    ∃ boot d turns left d' reply,
      Steps (handler (Engine.reference : Engine ℚ) False (fun t => t = 0)) Eq construct [] boot
          (.ret ()) d
        ∧ Interleaved (handler (Engine.reference : Engine ℚ) False (fun t => t = 0))
          (collectAmong samplePackets) d turns left d'
        ∧ left 0 = .ret (some reply)
        ∧ ∀ e ∈ turns, ¬ Computes Engine.reference 0 e.2.pre reply
          ∧ ¬ Computes Engine.reference 0 e.2.post reply := by
  obtain ⟨boot, hboot⟩ := exists_construct (Engine.reference : Engine ℚ) False
    (fun t => t = 0) (d := []) (s := Store.empty) (Or.inr ⟨rfl, Or.inl rfl⟩)
  obtain ⟨turns, left, t, reply, hrun, hleft, hsmall, hpoints, hfst, hsnd⟩ := exists_torn_run
  refine ⟨boot, _, _, left, _, reply, hboot, hrun.unlift, hleft, fun e he => ?_⟩
  obtain ⟨e', he', rfl⟩ := List.mem_map.mp he
  obtain ⟨hg, -, hlast⟩ := interleaved_stores (collectAmong_conforms samplePackets) hrun e' he'
  exact ⟨(hpoints e' he').1.not_computes (hsmall.of_grows (hg.trans hlast)) hfst hsnd,
    (hpoints e' he').2.not_computes (hsmall.of_grows hlast) hfst hsnd⟩

/-- In particular the reply of that run comes from states of the run, which are not
all the same. -/
theorem collectStatistics_snapshots_torn :
    ∃ (turns : List (Turn ℕ (Database ℚ) (Cmd ℚ) Cmd.Resp))
      (left : ℕ → ServerProg ℚ (Option (ServerStatistic ℚ))) (d : Database ℚ)
      (reply : ServerStatistic ℚ) (listed : Store ℚ) (states : List (Store ℚ)),
      Interleaved (handler (Engine.reference : Engine ℚ) False (fun t => t = 0))
          (collectAmong samplePackets) Store.empty.toDatabase turns left d
        ∧ left 0 = .ret (some reply)
        ∧ (∃ e ∈ reply.client, e.uuid = [97] ∧ e.y5 = 1)
        ∧ (∃ e ∈ reply.client, e.uuid = [98] ∧ e.y5 = 2)
        ∧ (∀ u ∈ listed :: states, ∃ e ∈ turns, e.1 = 0 ∧ e.2.pre = u.toDatabase)
        ∧ (listed :: states).Pairwise Store.Grows
        ∧ reply.client = Collecting.entriesOf Engine.reference 0
          (Collecting.clientsRead Engine.reference listed) states
        ∧ ¬ ∀ u ∈ states, u = listed := by
  obtain ⟨turns, left, t, reply, hrun, hleft, hsmall, hpoints, hfst, hsnd⟩ := exists_torn_run
  obtain ⟨now, listed, states, rfl, hstates, hpairs, -, hclient, hsame⟩ :=
    collectStatistics_snapshots hrun.unlift hleft
  obtain ⟨e, he, -, hpre⟩ := hstates listed List.mem_cons_self
  obtain ⟨e', he', rfl⟩ := List.mem_map.mp he
  have hlisted := Store.toDatabase_injective hpre
  subst hlisted
  obtain ⟨hg, -, hlast⟩ := interleaved_stores (collectAmong_conforms samplePackets) hrun e' he'
  exact ⟨_, left, _, reply, _, states, hrun.unlift, hleft, hfst, hsnd, hstates, hpairs, hclient,
    fun h => (hpoints e' he').1.not_computes (hsmall.of_grows (hg.trans hlast)) hfst hsnd (hsame h)⟩
