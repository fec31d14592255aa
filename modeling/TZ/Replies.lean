import TZ.Statistics

/-!
# Connections side by side

Every connection has a thread of its own, which runs the loop of
`Server::clientThread`. This module says what a connection sees of it, among
any number of others: one reply for each message of type `STATISTICS` it
sends, in order, and none for any other (`Dialogue`), and in each reply, for
every client that was registered when the request was read, the figures of
one store that there was between the request and the reply (`Fresh`).

The figures of different clients may belong to different stores: their
packets are listed by different calls, between which others save packets.
What ties a reply to the past is that a store only grows.

There is no store at which a reply would be right as a whole. The clients are listed by
one call and the packets of each by another, so a reply is put together from as many
stores as there are clients, and it need not be the reply to any of them
(`TZ.Snapshots`). The statement is therefore made per client, and it is made of the
calls between reading the request and writing the reply: one of them was issued in the
store whose rows the entry reports, and one of them has read the time the windows end
at. Both are events of that one dialogue, so no earlier reading of the clock and no
earlier store would do.

What a connection sees is a list of events, and its order is the order of the protocol.
`Dialogue` reads this list from the front, question by question, as a grammar would. It
is proved for one thread first, with everything the others do as interference that makes
the store grow, and then for all of them by projecting a run to its threads.
-/

open Server

/-! ## What a connection sees

Of the calls of a thread only two are seen by its client: reading a message and
writing a reply. Whatever else the thread does in between is silent. -/

/-- The message a call has read. -/
def Event.message {σ F : Type} : Event σ (Cmd F) Cmd.Resp → Option Bytes
  | ⟨_, .read, .ok buffer, _⟩ => some buffer
  | _ => none

/-- The reply a call has written. -/
def Event.reply {σ F : Type} : Event σ (Cmd F) Cmd.Resp → Option (ServerStatistic F)
  | ⟨_, .write stats, _, _⟩ => some stats
  | _ => none

section Map

variable {σ τ F : Type} (f : τ → σ) (e : Event τ (Cmd F) Cmd.Resp)

@[simp] theorem Event.message_map : (e.map f).message = e.message := by
  obtain ⟨pre, cmd, resp, post⟩ := e
  cases cmd with
  | read => cases resp <;> rfl
  | _ => rfl

@[simp] theorem Event.reply_map : (e.map f).reply = e.reply := by
  obtain ⟨pre, cmd, resp, post⟩ := e
  cases cmd <;> rfl

@[simp] theorem Event.time_map : (e.map f).time = e.time := by
  obtain ⟨pre, cmd, resp, post⟩ := e
  cases cmd <;> rfl

end Map

/-- A call the connection sees nothing of. -/
def Event.Silent {σ F : Type} (e : Event σ (Cmd F) Cmd.Resp) : Prop :=
  e.message = none ∧ e.reply = none

/-- **The figures of a reply are fresh**: its windows end at a time `now` that
one of the calls `es`, made since the request was read, has read from the
clock; and of the clients there were when the request was read, in the store
`s`, each has at most one entry, which is the report of what its rows say in
one of the stores in which those calls were issued.

The store may be another one for every client: their packets are listed by
different calls, and nothing keeps the others from saving in between. The
time is the same for all. A client that was registered later is left out of
the statement, because it may or may not have been listed. -/
def Fresh (clock : Int → Prop) (s : Store ℚ) (es : List (Event (Store ℚ) (Cmd ℚ) Cmd.Resp))
    (reply : ServerStatistic ℚ) : Prop :=
  ∃ now, clock now ∧ (∃ e ∈ es, e.time = some now)
    ∧ (reply.client.map ServerStatistic.Statistic.uuid).Nodup
    ∧ ∀ c ∈ s.clients, ∃ e ∈ es, s.Grows e.pre
      ∧ reply.client.filter (fun entry => entry.uuid = c.uuid)
        = (Statistics.report now c.uuid (e.pre.samplesOf c.id)).toList

/-- **What passes over a connection**: messages, each followed by exactly one
fresh reply if it is of type `STATISTICS` and by none if it is not. Only the
last request may still be unanswered, and only if the thread is `busy`. -/
inductive Dialogue (clock : Int → Prop) (ParseFromString : Bytes → Bool × ClientPacket ℚ)
    (busy : Prop) : List (Event (Store ℚ) (Cmd ℚ) Cmd.Resp) → Prop
  /-- Nothing has passed. -/
  | quiet {es : List (Event (Store ℚ) (Cmd ℚ) Cmd.Resp)} (h : ∀ e ∈ es, e.Silent) :
      Dialogue clock ParseFromString busy es
  /-- A message that is not a request. -/
  | unanswered {before after rest : List (Event (Store ℚ) (Cmd ℚ) Cmd.Resp)}
      {e : Event (Store ℚ) (Cmd ℚ) Cmd.Resp} {buffer : Bytes}
      (hbefore : ∀ e ∈ before, e.Silent) (he : e.message = some buffer)
      (htype : (ParseFromString buffer).2.type ≠ ClientPacket.STATISTICS)
      (hafter : ∀ e ∈ after, e.Silent) (hrest : Dialogue clock ParseFromString busy rest) :
      Dialogue clock ParseFromString busy (before ++ e :: (after ++ rest))
  /-- A request and its reply. -/
  | answered {before between rest : List (Event (Store ℚ) (Cmd ℚ) Cmd.Resp)}
      {e w : Event (Store ℚ) (Cmd ℚ) Cmd.Resp} {buffer : Bytes} {reply : ServerStatistic ℚ}
      (hbefore : ∀ e ∈ before, e.Silent) (he : e.message = some buffer)
      (htype : (ParseFromString buffer).2.type = ClientPacket.STATISTICS)
      (hbetween : ∀ e ∈ between, e.Silent) (hw : w.reply = some reply)
      (hfresh : Fresh clock e.post between reply)
      (hrest : Dialogue clock ParseFromString busy rest) :
      Dialogue clock ParseFromString busy (before ++ e :: (between ++ w :: rest))
  /-- A request that is being answered. -/
  | pending {before after : List (Event (Store ℚ) (Cmd ℚ) Cmd.Resp)}
      {e : Event (Store ℚ) (Cmd ℚ) Cmd.Resp} {buffer : Bytes}
      (hbefore : ∀ e ∈ before, e.Silent) (he : e.message = some buffer)
      (htype : (ParseFromString buffer).2.type = ClientPacket.STATISTICS)
      (hafter : ∀ e ∈ after, e.Silent) (hbusy : busy) :
      Dialogue clock ParseFromString busy (before ++ e :: after)

/-- The program has a call to make. -/
def Busy {F : Type} {α : Type} (q : ServerProg F α) : Prop := ∃ c k, q = .call c k

namespace Dialogue

variable {clock : Int → Prop} {ParseFromString : Bytes → Bool × ClientPacket ℚ}
  {busy busy' : Prop} {es : List (Event (Store ℚ) (Cmd ℚ) Cmd.Resp)}

theorem nil : Dialogue clock ParseFromString busy [] := .quiet (List.forall_mem_nil _)

theorem mono (hbusy : busy → busy') (h : Dialogue clock ParseFromString busy es) :
    Dialogue clock ParseFromString busy' es := by
  induction h with
  | quiet h => exact .quiet h
  | unanswered hbefore he htype hafter _ ih => exact .unanswered hbefore he htype hafter ih
  | answered hbefore he htype hbetween hw hfresh _ ih =>
    exact .answered hbefore he htype hbetween hw hfresh ih
  | pending hbefore he htype hafter hb => exact .pending hbefore he htype hafter (hbusy hb)

end Dialogue

/-! ## Calls that are not seen -/

section Silent

variable {F : Type} [Double F] {E : Engine F} {faulty : Prop} {clock : Int → Prop} {α : Type}
  {Rely : Store F → Store F → Prop} {Q : α → Prop} {p q : ServerProg F α} {s t : Store F}
  {es : List (Event (Store F) (Cmd F) Cmd.Resp)}

theorem ReadCall.silent {e : Event (Store F) (Cmd F) Cmd.Resp} (h : ReadCall e.cmd) :
    e.Silent := by
  obtain ⟨pre, cmd, resp, post⟩ := e
  cases h <;> exact ⟨rfl, rfl⟩

theorem SaveCall.silent {e : Event (Store F) (Cmd F) Cmd.Resp} (h : SaveCall e.cmd) :
    e.Silent := by
  obtain ⟨pre, cmd, resp, post⟩ := e
  cases h <;> exact ⟨rfl, rfl⟩

/-- The calls of a program among others: those of its protocol, each of which
makes the store grow. -/
theorem steps_calls {pre : Cmd F → Prop} (hpre : ∀ c, pre c → ServerCall c)
    (hp : p.Conforms pre Answered Q) (h : Steps (storeHandler E faulty clock) Rely p s es q t) :
    ∀ e ∈ es, pre e.cmd ∧ e.pre.Grows e.post := by
  have hkeeps : Steps.Keeps (storeHandler E faulty clock) pre Answered (fun _ => True)
      Store.Grows := fun _ _ _ _ _ hc h =>
    ⟨(handler_store (hpre _ hc) h).1, trivial, storeHandler_grows (hpre _ hc) h⟩
  obtain ⟨-, -, hes⟩ := h.invariant hkeeps (fun _ _ _ _ => trivial) hp trivial
  exact fun e he => ⟨(hes e he).1, (hes e he).2.2⟩

/-- The stores of a run of a program of the server, in order. -/
theorem steps_between (hp : p.Conforms ServerCall Answered Q)
    (h : Steps (storeHandler E faulty clock) Store.Grows p s es q t) :
    ∀ e ∈ es, s.Grows e.pre ∧ e.pre.Grows e.post ∧ e.post.Grows t := by
  have hcalls := steps_calls (fun _ h => h) hp h
  obtain ⟨-, hbetween, -⟩ := h.ordered (G := Store.Grows) (fun _ _ h => h)
    (fun e he => (hcalls e he).2)
  exact fun e he => ⟨(hbetween e he).1, (hcalls e he).2, (hbetween e he).2⟩

theorem save_silent {packet : ClientPacket F} {q : ServerProg F Unit}
    (h : Steps (storeHandler E faulty clock) Rely (saveClientPacket packet) s es q t) :
    ∀ e ∈ es, e.Silent := fun e he =>
  (steps_calls (fun _ h => h.serverCall) (Saving.saveClientPacket_saves packet) h e he).1.silent

omit [Double F] in
/-- No message and no reply passes with such calls. -/
theorem filterMap_silent {σ : Type} {es : List (Event σ (Cmd F) Cmd.Resp)}
    (h : ∀ e ∈ es, e.Silent) :
    es.filterMap Event.message = [] ∧ es.filterMap Event.reply = [] :=
  ⟨List.filterMap_eq_nil_iff.mpr fun e he => (h e he).1,
    List.filterMap_eq_nil_iff.mpr fun e he => (h e he).2⟩

theorem collect_reads {q : ServerProg F (ServerStatistic F)}
    (h : Steps (storeHandler E faulty clock) Rely collectStatistics s es q t) :
    ∀ e ∈ es, ReadCall e.cmd ∧ e.pre.Grows e.post :=
  steps_calls (fun _ h => h.serverCall) (Collecting.collectStatistics_reads.mono (fun _ h => h)
    (fun _ _ _ => trivial) (fun _ h => h)) h

end Silent

/-! ## The figures of a reply

Two layers again: which rows an entry is computed from, for any number type, and what
the figures are, for exact ones. -/

/-- Of the entries of clients with different uuids, those of one uuid are the
entry of that client. -/
theorem Collecting.filter_entriesOf {F : Type} [Double F] {E : Engine F} (now : Int)
    {clients : List Client} {stores : List (Store F)}
    (hnodup : (clients.map Client.uuid).Nodup) (hlen : stores.length = clients.length)
    {c : Client} (hc : c ∈ clients) :
    ∃ u ∈ stores, (Collecting.entriesOf E now clients stores).filter
        (fun entry => entry.uuid = c.uuid) = (Collecting.entry E now u c).toList := by
  induction clients generalizing stores with
  | nil => cases hc
  | cons c' clients ih =>
    obtain ⟨u, stores, rfl⟩ := List.exists_cons_of_length_eq_add_one hlen
    rw [List.map_cons, List.nodup_cons] at hnodup
    have hsplit : Collecting.entriesOf E now (c' :: clients) (u :: stores)
        = (Collecting.entry E now u c').toList
          ++ Collecting.entriesOf E now clients stores := by
      show (Collecting.entry E now u c' :: List.zipWith _ clients stores).reduceOption = _
      cases Collecting.entry E now u c' with
      | none => exact List.reduceOption_cons_of_none _
      | some e => exact List.reduceOption_cons_of_some _ _
    rw [hsplit, List.filter_append]
    rcases List.mem_cons.mp hc with rfl | hc
    · refine ⟨u, List.mem_cons_self, ?_⟩
      have hothers : (Collecting.entriesOf E now clients stores).filter
          (fun entry => entry.uuid = c.uuid) = [] := by
        refine List.filter_eq_nil_iff.mpr fun entry hentry huuid => hnodup.1 ?_
        rw [← of_decide_eq_true huuid]
        exact (Collecting.entriesOf_uuids E now clients stores).subset
          (List.mem_map_of_mem hentry)
      rw [hothers, List.append_nil, List.filter_eq_self]
      intro entry hentry
      exact decide_eq_true (Collecting.entry_uuid (Option.mem_toList.mp hentry))
    · obtain ⟨u', hu', hfilter⟩ := ih hnodup.2 (Nat.succ.inj hlen) hc
      refine ⟨u', List.mem_cons_of_mem _ hu', ?_⟩
      rw [hfilter, List.filter_eq_nil_iff.mpr, List.nil_append]
      intro entry hentry huuid
      refine hnodup.1 ?_
      rw [← Collecting.entry_uuid (Option.mem_toList.mp hentry), of_decide_eq_true huuid]
      exact List.mem_map_of_mem hc

section Current

variable {F : Type} [Double F] {E : Engine F} {clock : Int → Prop} {s t : Store F}
  {es : List (Event (Store F) (Cmd F) Cmd.Resp)}

/-- **The entries of a reply are current**: of the clients there were in the store
`s`, each has at most one, which is computed from one of the stores in which
the calls made since were issued, for the time that one of them has read.

This is `Fresh` before it is said what an entry means. It holds of any number
type, also of one that rounds, and so it is what the later modules use of a
reply; only `Fresh` is about exact figures. -/
def Current (E : Engine F) (clock : Int → Prop) (s : Store F)
    (es : List (Event (Store F) (Cmd F) Cmd.Resp)) (reply : ServerStatistic F) : Prop :=
  ∃ now, clock now ∧ (∃ e ∈ es, e.time = some now)
    ∧ (reply.client.map ServerStatistic.Statistic.uuid).Nodup
    ∧ ∀ c ∈ s.clients, ∃ e ∈ es, s.Grows e.pre ∧ e.pre.Grows e.post
      ∧ reply.client.filter (fun entry => entry.uuid = c.uuid)
        = (Collecting.entry E now e.pre c).toList

/-- **The statistics that are collected are current**, among whatever others.

The clients are listed by the first call, so every client of `s` is among
them, and its packets are listed later, in a store that has grown out of `s`. -/
theorem collect_current {r : ServerStatistic F}
    (h : Steps (storeHandler E False clock) Store.Grows collectStatistics s es (.ret r) t)
    (ht : t.clients.length ≤ SQLite.sizeMax) : Current E clock s es r := by
  have hreads := collect_reads h
  obtain ⟨-, hbetween, -⟩ := h.ordered (G := Store.Grows) (fun _ _ h => h)
    (fun e he => (hreads e he).2)
  obtain ⟨listing, timing, reads, now, rfl, hnow, htime, hlen, rfl⟩ := Collecting.steps_collect h
  refine ⟨now, hnow, ⟨timing, List.mem_cons_of_mem _ List.mem_cons_self, htime⟩,
    Collecting.entriesOf_nodup E now _ _, fun c hc => ?_⟩
  -- a client there was when the request was read is listed
  have hlisted : c ∈ Collecting.clientsRead E listing.pre := by
    have hl := List.mem_cons_self (a := listing) (l := timing :: reads)
    have hgrows := (hreads _ hl).2.trans (hbetween _ hl).2
    rw [Collecting.clientsRead, List.take_of_length_le
      ((listing.pre.listed_perm E).length_eq.trans_le (hgrows.clients.length_le.trans ht))]
    exact (listing.pre.listed_perm E).mem_iff.mpr ((hbetween _ hl).1.clients.subset hc)
  have hnodup : ((Collecting.clientsRead E listing.pre).map Client.uuid).Nodup :=
    (((listing.pre.listed_perm E).map Client.uuid).nodup_iff.mpr
      listing.pre.uuids_nodup).sublist ((List.take_sublist _ _).map _)
  obtain ⟨u, hu, hfilter⟩ := Collecting.filter_entriesOf (E := E) now hnodup
    ((List.length_map _).trans hlen) hlisted
  obtain ⟨e, he, rfl⟩ := List.mem_map.mp hu
  have hmem : e ∈ listing :: timing :: reads :=
    List.mem_cons_of_mem _ (List.mem_cons_of_mem _ he)
  exact ⟨e, hmem, (hbetween e hmem).1, (hreads e hmem).2, hfilter⟩

end Current

variable {E : Engine ℚ} {clock : Int → Prop} {s t : Store ℚ}
  {es : List (Event (Store ℚ) (Cmd ℚ) Cmd.Resp)}

/-- The tables are within the bounds of the counters of the server. -/
def Store.Small {F : Type} [Double F] (s : Store F) : Prop :=
  s.packets.length < 2 ^ 31 ∧ s.clients.length ≤ SQLite.sizeMax

theorem Store.Small.of_grows {F : Type} [Double F] {s t : Store F} (h : t.Small)
    (hg : s.Grows t) : s.Small :=
  ⟨hg.packets.length_le.trans_lt h.1, hg.clients.length_le.trans h.2⟩

/-- **The statistics that are collected are fresh**, among whatever others. -/
theorem collect_fresh {r : ServerStatistic ℚ}
    (h : Steps (storeHandler E False clock) Store.Grows collectStatistics s es (.ret r) t)
    (ht : t.Small) : Fresh clock s es r := by
  have hreads := collect_reads h
  obtain ⟨-, hbetween, -⟩ := h.ordered (G := Store.Grows) (fun _ _ h => h)
    (fun e he => (hreads e he).2)
  obtain ⟨now, hnow, htime, hnodup, hentries⟩ := collect_current h ht.2
  refine ⟨now, hnow, htime, hnodup, fun c hc => ?_⟩
  obtain ⟨e, he, hgrows, hpost, hfilter⟩ := hentries c hc
  -- what the loop computes is what the rows say, as long as the counters do not overflow
  refine ⟨e, he, hgrows, ?_⟩
  rw [hfilter, Statistics.entry_eq_report E now
    (ht.of_grows (hpost.trans (hbetween e he).2)).1]

/-! ## The loop of a thread -/

section Loop

variable {ParseFromString : Bytes → Bool × ClientPacket ℚ} {q : ServerProg ℚ Unit}

/-- **What the loop does with a message**, and after it. -/
theorem handle_dialogue {k : ServerProg ℚ Unit} {buffer : Bytes}
    {before : List (Event (Store ℚ) (Cmd ℚ) Cmd.Resp)}
    {e : Event (Store ℚ) (Cmd ℚ) Cmd.Resp} (hbefore : ∀ e ∈ before, e.Silent)
    (he : e.message = some buffer) (hpost : e.post = s)
    (h : Steps (storeHandler E False clock) Store.Grows
      ((handleMessage ParseFromString buffer).bind fun _ => k) s es q t)
    (ht : t.Small) (hgrows : ∀ e ∈ es, e.pre.Grows t)
    (hk : ∀ s' es', (∀ e ∈ es', e ∈ es) →
      Steps (storeHandler E False clock) Store.Grows k s' es' q t →
      Dialogue clock ParseFromString (Busy q) es') :
    Dialogue clock ParseFromString (Busy q) (before ++ e :: es) := by
  have hnotDone : ∀ {p' : ServerProg ℚ (ServerStatistic ℚ)}
      {f : ServerStatistic ℚ → ServerProg ℚ Unit}, (∀ a, p' ≠ .ret a) → (∀ ex, p' ≠ .throw ex) →
      Busy (p'.bind f) := by
    intro p' f hret hthrow
    cases p' with
    | ret a => exact absurd rfl (hret a)
    | throw ex => exact absurd rfl (hthrow ex)
    | call c k => exact ⟨c, _, rfl⟩
  unfold handleMessage handlePacket at h
  by_cases hdata : (ParseFromString buffer).2.type = ClientPacket.DATA
  · rw [if_pos hdata] at h
    have htype : (ParseFromString buffer).2.type ≠ ClientPacket.STATISTICS := by
      rw [hdata]
      decide
    rcases h.bind_inv with ⟨p', -, -, hsave⟩ | ⟨_, es₁, es₂, m, rfl, hsave, hrest⟩
    · have hnil : Dialogue clock ParseFromString (Busy q) [] := .nil
      have hend := Dialogue.unanswered hbefore he htype (save_silent hsave) hnil
      rwa [List.append_nil] at hend
    · exact .unanswered hbefore he htype (save_silent hsave)
        (hk m es₂ (fun e he => List.mem_append_right _ he) hrest)
  · rw [if_neg hdata] at h
    by_cases htype : (ParseFromString buffer).2.type = ClientPacket.STATISTICS
    · rw [if_pos htype, Prog.bind_eq, Prog.bind_assoc] at h
      rcases h.bind_inv with ⟨p', rfl, hret, hcollect⟩ | ⟨r, es₁, es₂, m, rfl, hcollect, hrest⟩
      · -- it is still collecting
        exact .pending hbefore he htype (fun e he => (collect_reads hcollect e he).1.silent)
          (hnotDone hret (Collecting.steps_ne_throw hcollect))
      · have hsilent : ∀ e ∈ es₁, e.Silent := fun e he => (collect_reads hcollect e he).1.silent
        obtain ⟨rfl, rfl, -⟩ | ⟨s₁, w, s₂, es', rfl, hm, -, hrest⟩ := Steps.call_inv hrest
        · -- the reply is about to be written
          rw [List.append_nil]
          exact .pending hbefore he htype hsilent ⟨_, _, rfl⟩
        · have hmt : m.Grows t := hm.trans
            (hgrows ⟨s₁, .write r, w, s₂⟩ (List.mem_append_right _ List.mem_cons_self))
          have hw : (⟨s₁, .write r, w, s₂⟩ : Event (Store ℚ) (Cmd ℚ) Cmd.Resp).reply = some r :=
            rfl
          refine .answered hbefore he htype hsilent hw ?_ ?_
          · rw [hpost]
            exact collect_fresh hcollect (ht.of_grows hmt)
          · cases w with
            | ok u =>
              exact hk s₂ es' (fun e he => List.mem_append_right _ (List.mem_cons_of_mem _ he))
                hrest
            | error ex =>
              obtain ⟨rfl, -, -⟩ := Steps.throw_inv hrest
              exact .nil
    · rw [if_neg htype] at h
      exact .unanswered hbefore he htype (List.forall_mem_nil _) (hk s es (fun e he => he) h)

/-- **What passes over a connection in the loop of its thread.** -/
theorem loop_dialogue {n : ℕ}
    (h : Steps (storeHandler E False clock) Store.Grows (messageLoop ParseFromString n) s es q
      t) (ht : t.Small) (hgrows : ∀ e ∈ es, e.pre.Grows t) :
    Dialogue clock ParseFromString (Busy q) es := by
  induction n generalizing s es with
  | zero =>
    obtain ⟨rfl, -, -⟩ := h.ret_inv
    exact .nil
  | succ n ih =>
    obtain ⟨rfl, -, -⟩ | ⟨s₁, needExit, s₂, es, rfl, -, -, h⟩ := Steps.call_inv h
    · exact .nil
    have hexit : ∀ e ∈ [(⟨s₁, .needExit, needExit, s₂⟩ : Event (Store ℚ) (Cmd ℚ) Cmd.Resp)],
        e.Silent := by
      intro e he
      rw [List.mem_singleton.mp he]
      exact ⟨rfl, rfl⟩
    cases needExit with
    | true =>
      obtain ⟨rfl, -, -⟩ := Steps.ret_inv h
      exact .quiet hexit
    | false =>
      obtain ⟨rfl, -, -⟩ | ⟨s₃, r, s₄, es, rfl, -, -, h⟩ := Steps.call_inv h
      · exact .quiet hexit
      cases r with
      | error ex =>
        obtain ⟨rfl, -, -⟩ := Steps.throw_inv h
        refine .quiet fun e he => ?_
        rcases List.mem_cons.mp he with rfl | he
        · exact ⟨rfl, rfl⟩
        · rw [List.mem_singleton.mp he]
          exact ⟨rfl, rfl⟩
      | ok buffer =>
        have hread : (⟨s₃, .read, .ok buffer, s₄⟩ : Event (Store ℚ) (Cmd ℚ) Cmd.Resp).message
            = some buffer := rfl
        refine handle_dialogue hexit hread rfl h ht
          (fun e he => hgrows e (List.mem_cons_of_mem _ (List.mem_cons_of_mem _ he))) ?_
        intro s' es' hes' h'
        refine ih h' fun e he => hgrows e ?_
        exact List.mem_cons_of_mem _ (List.mem_cons_of_mem _ (hes' e he))

omit E clock s t es q in
/-- The loop makes only the calls the server makes. -/
theorem messageLoop_conforms {F : Type} [Double F]
    (ParseFromString : Bytes → Bool × ClientPacket F) (n : ℕ) :
    (messageLoop ParseFromString n).Conforms ServerCall Answered (fun _ => True) := by
  have hhandle : ∀ buffer, (handleMessage ParseFromString buffer).Conforms ServerCall Answered
      (fun _ => True) := by
    intro buffer
    unfold handleMessage handlePacket
    dsimp only
    split_ifs
    · exact Saving.saveClientPacket_conforms _
    · exact (Job.reads_conforms Collecting.collectStatistics_reads).bind fun stats _ =>
        ⟨.write stats, fun r _ => .ofExcept fun _ _ => trivial⟩
    · trivial
  induction n with
  | zero => trivial
  | succ n ih =>
    refine ⟨.needExit, fun needExit _ => ?_⟩
    cases needExit with
    | true => trivial
    | false =>
      refine ⟨.read, fun r _ => ?_⟩
      exact Prog.Conforms.bind (Q := fun _ => True) (.ofExcept fun _ _ => trivial)
        fun buffer _ => (hhandle buffer).bind fun _ _ => ih

omit E clock s t es q in
/-- A thread makes only the calls the server makes. -/
theorem clientThread_conforms {F : Type} [Double F]
    (ParseFromString : Bytes → Bool × ClientPacket F) (n : ℕ) :
    (clientThread ParseFromString n).Conforms ServerCall Answered (fun _ => True) := by
  refine (messageLoop_conforms ParseFromString n).tryCatch fun ex => ?_
  cases ex <;> trivial

/-- **What passes over a connection.** -/
theorem thread_dialogue {n : ℕ}
    (h : Steps (storeHandler E False clock) Store.Grows (clientThread ParseFromString n) s es
      q t) (ht : t.Small) : Dialogue clock ParseFromString (Busy q) es := by
  have hloop : ∀ {es q m}, m.Grows t → Steps (storeHandler E False clock) Store.Grows
      (messageLoop ParseFromString n) s es q m → Dialogue clock ParseFromString (Busy q) es := by
    intro es q m hm hloop
    have hbetween := steps_between (messageLoop_conforms ParseFromString n) hloop
    exact loop_dialogue hloop (ht.of_grows hm)
      fun e he => (hbetween e he).2.1.trans (hbetween e he).2.2
  unfold clientThread Prog.catchStd at h
  rcases h.tryCatch_inv with ⟨p', rfl, hrun⟩ | ⟨ex, es₁, es₂, m, rfl, hrun, hcatch⟩
  · refine (hloop (.refl t) hrun).mono ?_
    rintro ⟨c, k, rfl⟩
    exact ⟨c, _, rfl⟩
  · -- the handler of the exception makes no call
    have hdone : es₂ = [] ∧ m.Grows t := by
      cases ex with
      | nullString =>
        obtain ⟨hnil, -, hm⟩ := hcatch.throw_inv
        exact ⟨hnil, hm⟩
      | _ =>
        obtain ⟨hnil, -, hm⟩ := hcatch.ret_inv
        exact ⟨hnil, hm⟩
    obtain ⟨rfl, hm⟩ := hdone
    rw [List.append_nil]
    refine (hloop hm hrun).mono ?_
    rintro ⟨c, k, hbusy⟩
    cases hbusy

end Loop

/-! ## What has been saved is counted -/

section Saved

variable {F : Type} [Double F] {E : Engine F} {faulty : Prop} {clock : Int → Prop}

/-- What a client has said is not forgotten. -/
theorem Store.Grows.samplesOf {s t : Store F} (h : s.Grows t) {clientId : Int} {x : Sample F}
    (hx : x ∈ s.samplesOf clientId) : x ∈ t.samplesOf clientId :=
  ((h.packets.sublist.filter _).map _).subset hx

/-- What packets say is in a store, under the client of their uuid. -/
def Store.Has (s : Store F) (data : ClientPacket.Data F) : Prop :=
  ∃ c ∈ s.clients, c.uuid = cstr data.uuid ∧ data.sample ∈ s.samplesOf c.id

theorem Store.Has.grows {s t : Store F} {data : ClientPacket.Data F} (h : s.Has data)
    (hg : s.Grows t) : t.Has data := by
  obtain ⟨c, hc, huuid, hsample⟩ := h
  exact ⟨c, hg.clients.subset hc, huuid, hg.samplesOf hsample⟩

/-- A row says what a packet says: it has the id of the client of its uuid, and
its timestamp and coordinates. -/
def Store.Says (s : Store F) (p : Packet F) (data : ClientPacket.Data F) : Prop :=
  ⟨p.clientId, cstr data.uuid⟩ ∈ s.clients ∧ p.timestamp = data.timestamp
    ∧ p.x = data.x ∧ p.y = data.y

theorem Store.Says.grows {s t : Store F} {p : Packet F} {data : ClientPacket.Data F}
    (h : s.Says p data) (hg : s.Grows t) : t.Says p data :=
  ⟨hg.clients.subset h.1, h.2⟩

theorem Store.Says.has {s : Store F} {p : Packet F} {data : ClientPacket.Data F}
    (h : s.Says p data) (hp : p ∈ s.packets) : s.Has data := by
  obtain ⟨hc, htime, hx, hy⟩ := h
  refine ⟨_, hc, rfl, List.mem_map.mpr ⟨p, List.mem_filter.mpr ⟨hp, decide_eq_true rfl⟩, ?_⟩⟩
  unfold Packet.sample ClientPacket.Data.sample
  rw [htime, hx, hy]

/-- The rows an event has added to the packets. -/
def Event.added (e : Event (Store F) (Cmd F) Cmd.Resp) : List (Packet F) :=
  e.post.packets.drop e.pre.packets.length

/-- The step of a save that adds the packet is its last. -/
theorem Saving.Step.added {data : ClientPacket.Data F} {phase phase' : Saving.Phase}
    {s s' : Store F} (h : Saving.Step faulty data phase s phase' s')
    (hs : phase.Known data s) :
    (phase' = .stored ∧ ∃ p, s'.packets = s.packets ++ [p] ∧ s'.Says p data)
      ∨ (phase' ≠ .stored ∧ s'.packets = s.packets) := by
  cases h with
  | registered h hadds =>
    obtain ⟨id, -, hps⟩ := hadds
    exact Or.inr ⟨nofun, hps⟩
  | @stored _ _ clientId hx hy hadds =>
    obtain ⟨id, hcs, hps⟩ := hadds
    have hc : ⟨clientId, cstr data.uuid⟩ ∈ s'.clients := hcs ▸ hs
    exact Or.inl ⟨rfl, _, hps, hc, rfl, rfl, rfl⟩
  | _ => exact Or.inr ⟨nofun, rfl⟩

/-- **A save that has returned has added one row, which says what its packet
says**, among whatever others that do not take anything away. -/
theorem Saving.steps_added {data : ClientPacket.Data F} {phase : Saving.Phase}
    {s t : Store F} {es : List (Event (Store F) (Cmd F) Cmd.Resp)}
    (h : Steps (storeHandler E faulty clock) Store.Grows (phase.prog data) s es (.ret ()) t)
    (hs : phase.Known data s) (hphase : phase ≠ .stored) :
    ∃ p, es.flatMap Event.added = [p]
      ∧ ∃ e ∈ es, p ∈ e.post.packets ∧ e.post.Says p data := by
  generalize hp : phase.prog data = p at h
  generalize hq : (Prog.ret () : ServerProg F Unit) = q at h
  induction h generalizing phase with
  | done hr =>
    subst hq
    cases phase with
    | stored => exact absurd rfl hphase
    | _ => cases hp
  | @own c k s s₁ s₂ t r es q hr hc rest ih =>
    obtain ⟨phase', hk, hstep⟩ := Saving.step hp hc
    rw [List.flatMap_cons]
    rcases hstep.added (hs.grows hr) with ⟨rfl, p, hps, hsaid⟩ | ⟨hne, hps⟩
    · -- it adds its row and returns
      rw [hk] at rest
      obtain ⟨rfl, -, -⟩ := Steps.ret_inv rest
      refine ⟨p, ?_, _, List.mem_cons_self, hps ▸ List.mem_append_right _ List.mem_cons_self,
        hsaid⟩
      unfold Event.added
      rw [hps, List.drop_left]
      rfl
    · -- it does not add its row yet
      obtain ⟨p, hadded, e, he, hmem, hsaid⟩ := ih hstep.known hne hk.symm hq
      refine ⟨p, ?_, e, List.mem_cons_of_mem _ he, hmem, hsaid⟩
      rw [hadded]
      unfold Event.added
      rw [hps, List.drop_length]
      rfl

/-- A save of a packet has run to its end and returned, among the calls a
program has made. -/
def Returned (E : Engine F) (clock : Int → Prop) (data : ClientPacket.Data F)
    (es : List (Event (Store F) (Cmd F) Cmd.Resp)) : Prop :=
  ∃ type before during after s t, es = before ++ (during ++ after)
    ∧ Steps (storeHandler E False clock) Store.Grows (saveClientPacket ⟨type, some data⟩) s
      during (.ret ()) t

theorem Returned.has {data : ClientPacket.Data F}
    {es : List (Event (Store F) (Cmd F) Cmd.Resp)} (h : Returned E clock data es) :
    ∃ e ∈ es, e.post.Has data := by
  obtain ⟨type, before, during, after, s, t, rfl, hsave⟩ := h
  rw [Saving.saveClientPacket_eq] at hsave
  obtain ⟨p, -, e, he, hmem, hsaid⟩ := Saving.steps_added hsave trivial nofun
  exact ⟨e, List.mem_append_right _ (List.mem_append_left _ he), hsaid.has hmem⟩

end Saved

/-! ## Any number of connections -/

/-- Programs of the server side by side make stores grow. -/
theorem interleaved_stores {F : Type} [Double F] {E : Engine F} {faulty : Prop}
    {clock : Int → Prop} {ι α : Type} [DecidableEq ι] {ps left : ι → ServerProg F α}
    {s t : Store F} {turns : List (Turn ι (Store F) (Cmd F) Cmd.Resp)}
    (hps : ∀ i, (ps i).Conforms ServerCall Answered (fun _ => True))
    (h : Interleaved (storeHandler E faulty clock) ps s turns left t) :
    ∀ e ∈ turns, e.2.pre.Grows e.2.post ∧ s.Grows e.2.pre ∧ e.2.post.Grows t := by
  have hkeeps : Steps.Keeps (storeHandler E faulty clock) ServerCall Answered (fun _ => True)
      Store.Grows := fun _ _ _ _ _ hc h =>
    ⟨(handler_store hc h).1, trivial, storeHandler_grows hc h⟩
  obtain ⟨-, -, -, hturns⟩ := h.invariant hkeeps hps trivial
  obtain ⟨-, hbetween⟩ := h.between fun e he => (hturns e he).2.2
  exact fun e he => ⟨(hturns e he).2.2, hbetween e he⟩

/-- **Programs of the server side by side** are a run over stores that
grow. -/
theorem interleaved_grows {F : Type} [Double F] {E : Engine F} {faulty : Prop}
    {clock : Int → Prop} {ι α : Type} [DecidableEq ι] {ps left : ι → ServerProg F α}
    {s : Store F} {turns : List (Turn ι (Database F) (Cmd F) Cmd.Resp)} {d : Database F}
    (hps : ∀ i, (ps i).Conforms ServerCall Answered (fun _ => True))
    (h : Interleaved (handler E faulty clock) ps s.toDatabase turns left d) :
    ∃ t turns', d = t.toDatabase ∧ turns = turns'.map (Interleaved.mapTurn Store.toDatabase)
      ∧ Interleaved (storeHandler E faulty clock) ps s turns' left t
      ∧ ∀ e ∈ turns', e.2.pre.Grows e.2.post ∧ s.Grows e.2.pre ∧ e.2.post.Grows t := by
  obtain ⟨t, turns', rfl, rfl, hrun, -, -⟩ := h.lift simulates_store hps
  exact ⟨t, turns', rfl, rfl, hrun, interleaved_stores hps hrun⟩

/-- **The replies of a server with any number of connections.** Over every
connection one reply passes for each message of type `STATISTICS`, in order,
and none for any other. Its figures are, for every client that was registered
when the request was read, those of one store there was between the request
and the reply; and every packet whose save had returned before the request
was read, on whatever connection, is in that store and in every later one.

The windows of a reply end at a time that was read from the clock between the
request and the reply, by the thread that answers. The rows are bounded by the
32 bits the source counts them with and the clients by `size_t`; and no call
fails, since a listing that fails half-way is shorter without anybody
noticing.

The last part is what ties connections together. It is said of every turn and
not only of requests: whatever is saved by then is in the store and stays
there, so in particular it is in each of the stores from which a later reply
is computed. -/
theorem replies_fresh (E : Engine ℚ) (clock : Int → Prop)
    (ParseFromString : Bytes → Bool × ClientPacket ℚ) (messages : ℕ → ℕ) {s : Store ℚ}
    {turns : List (Turn ℕ (Database ℚ) (Cmd ℚ) Cmd.Resp)} {left : ℕ → ServerProg ℚ Unit}
    {d : Database ℚ}
    (h : Interleaved (handler E False clock) (fun i => clientThread ParseFromString (messages i))
      s.toDatabase turns left d)
    (hpackets : (d.rowsOf PACKETS_TABLE_NAME).length < 2 ^ 31)
    (hclients : (d.rowsOf CLIENTS_TABLE_NAME).length ≤ SQLite.sizeMax) :
    ∃ turns' : List (Turn ℕ (Store ℚ) (Cmd ℚ) Cmd.Resp),
      turns = turns'.map (Interleaved.mapTurn Store.toDatabase)
      ∧ (∀ i, Dialogue clock ParseFromString (Busy (left i)) (ownTurns i turns'))
      ∧ ∀ before e after, turns' = before ++ e :: after → ∀ i data,
        Returned E clock data (ownTurns i before) →
        ∃ c ∈ e.2.pre.clients, c.uuid = cstr data.uuid
          ∧ ∀ u : Store ℚ, e.2.pre.Grows u → data.sample ∈ u.samplesOf c.id := by
  obtain ⟨t, turns', rfl, rfl, hrun, hturns⟩ := interleaved_grows
    (fun i => clientThread_conforms ParseFromString (messages i)) h
  rw [Store.rowsOf_packets, List.length_map] at hpackets
  rw [Store.rowsOf_clients, List.length_map] at hclients
  refine ⟨turns', rfl, fun i => ?_, fun before e after hsplit i data hreturned => ?_⟩
  · exact thread_dialogue (hrun.project fun e he _ => (hturns e he).1) ⟨hpackets, hclients⟩
  · subst hsplit
    obtain ⟨ps', k, hbefore, -⟩ := hrun.split_at
    obtain ⟨-, hbetween⟩ := hbefore.between fun e he =>
      (hturns e (List.mem_append_left _ he)).1
    obtain ⟨e', he', hhas⟩ := hreturned.has
    obtain ⟨c, hc, huuid, hsample⟩ := hhas.grows (hbetween _ ((mem_ownTurns i).mp he')).2
    exact ⟨c, hc, huuid, fun u hu => hu.samplesOf hsample⟩

/-! ## A packet over one connection, a request over another -/

/-- A request for the statistics, as it comes over the wire. -/
def requestBytes : Bytes := [0x08, 1]

/-- A thread that reads one message handles it and ends. -/
theorem steps_clientThread_one {F : Type} [Double F] {E : Engine F} {clock : Int → Prop}
    {ParseFromString : Bytes → Bool × ClientPacket F} {buffer : Bytes} {s t : Store F}
    {es : List (Event (Store F) (Cmd F) Cmd.Resp)}
    (h : Steps (storeHandler E False clock) Eq (handleMessage ParseFromString buffer) s es
      (.ret ()) t) :
    Steps (storeHandler E False clock) Eq (clientThread ParseFromString 1) s
      (⟨s, .needExit, false, s⟩ :: ⟨s, .read, .ok buffer, s⟩ :: (es ++ [])) (.ret ()) t := by
  have hloop : Steps (storeHandler E False clock) Eq (messageLoop ParseFromString 1) s
      (⟨s, .needExit, false, s⟩ :: ⟨s, .read, .ok buffer, s⟩ :: (es ++ [])) (.ret ()) t :=
    .own rfl rfl (.own rfl ⟨nofun, rfl⟩ (h.bind (.done rfl)))
  exact hloop.tryCatch

/-- **A packet of a new client comes over one connection, and then a request over
another**, while nobody else does anything. The store is left with that client
and that packet, and the one reply says of it what the loop makes of the packet
at the time of the clock. -/
theorem exists_told_run {F : Type} [Double F] (E : Engine F) (now : Int)
    {ParseFromString : Bytes → Bool × ClientPacket F} {buffer : Bytes}
    {data : ClientPacket.Data F}
    (hbuffer : (ParseFromString buffer).2 = ⟨ClientPacket.DATA, some data⟩)
    (hrequest : (ParseFromString requestBytes).2 = ⟨ClientPacket.STATISTICS, none⟩)
    (hx : Double.isNaN data.x = false) (hy : Double.isNaN data.y = false) :
    ∃ (telling asking : List (Event (Store F) (Cmd F) Cmd.Resp)) (t : Store F)
      (clientId packetId : Int),
      Steps (storeHandler E False (fun n => n = now)) Eq (clientThread ParseFromString 1)
          Store.empty telling (.ret ()) t
        ∧ Steps (storeHandler E False (fun n => n = now)) Eq (clientThread ParseFromString 1) t
          asking (.ret ()) t
        ∧ t.clients = [⟨clientId, cstr data.uuid⟩]
        ∧ t.packets = [⟨packetId, clientId, data.timestamp, data.x, data.y⟩]
        ∧ Returned E (fun n => n = now) data telling
        ∧ telling.filterMap Event.message = [buffer] ∧ telling.filterMap Event.reply = []
        ∧ asking.filterMap Event.message = [requestBytes]
        ∧ asking.filterMap Event.reply
          = [⟨(Collecting.entryOf now (cstr data.uuid) t.packets).toList⟩] := by
  obtain ⟨saving, t, clientId, packetId, hsave, hclients, hpackets⟩ := Saving.exists_first E
    (show ∃ n, (fun n : Int => n = now) n from ⟨now, rfl⟩) data hx hy
  obtain ⟨collecting, hcollect, -⟩ := Collecting.exists_collect_one E now hclients hpackets rfl
  rw [← hpackets] at hcollect
  rw [← Saving.saveClientPacket_eq data ClientPacket.DATA] at hsave
  have hsaving := save_silent hsave
  have hcollecting : ∀ e ∈ collecting, e.Silent := fun e he => (collect_reads
    (hcollect.mono (fun _ _ _ _ h => h) fun _ _ h => h) e he).1.silent
  have htold : handleMessage ParseFromString buffer
      = saveClientPacket ⟨ClientPacket.DATA, some data⟩ := by
    unfold handleMessage
    rw [hbuffer]
    rfl
  have hasked : handleMessage ParseFromString requestBytes
      = collectStatistics.bind fun stats => .call (.write stats) .ofExcept := by
    unfold handleMessage
    rw [hrequest]
    rfl
  have hwrite : ∀ stats, Steps (storeHandler E False (fun n => n = now)) Eq
      (Prog.call (.write stats) .ofExcept : ServerProg F Unit) t
      [⟨t, .write stats, .ok (), t⟩] (.ret ()) t := fun _ => .own rfl ⟨nofun, rfl⟩ (.done rfl)
  refine ⟨_, _, t, clientId, packetId, steps_clientThread_one (htold ▸ hsave),
    steps_clientThread_one (hasked ▸ hcollect.bind (hwrite _)), hclients, hpackets,
    ⟨_, [_, _], saving, [], _, _, rfl,
      hsave.mono (fun _ _ _ _ h => h) fun s t (h : s = t) => h ▸ Store.Grows.refl s⟩,
    ?_, ?_, ?_, ?_⟩
  all_goals
    simp only [List.filterMap_cons, List.filterMap_append, List.filterMap_nil, List.append_nil,
      (filterMap_silent hsaving).1, (filterMap_silent hsaving).2,
      (filterMap_silent hcollecting).1, (filterMap_silent hcollecting).2]
    rfl

/-- A packet of the client `a`, with `x = 2` and `y = -3`, as it comes over the
wire. -/
def tellingBytes : Bytes :=
  [0x12, 21, 0x0a, 1, 0x61, 0x19, 0, 0, 0, 0, 0, 0, 0, 0x40, 0x21, 0, 0, 0, 0, 0, 0, 8, 0xc0]

/-- What it says. -/
def tellingData : ClientPacket.Data ℚ := ⟨[0x61], 0, 2, -3⟩

/-- What a runtime makes of these two messages. -/
def tellOrAsk (buffer : Bytes) : Bool × ClientPacket ℚ :=
  if buffer = requestBytes then (true, ⟨ClientPacket.STATISTICS, none⟩)
  else (true, ⟨ClientPacket.DATA, some tellingData⟩)

/-- In particular a packet that came over one connection is in the reply over
another.

The packet has been saved when the request is read, so it is counted; and the
reply is written out in figures. -/
theorem replies_fresh_one :
    ∃ (turns : List (Turn ℕ (Store ℚ) (Cmd ℚ) Cmd.Resp)) (left : ℕ → ServerProg ℚ Unit)
      (t : Store ℚ) (clientId packetId : Int),
      Interleaved (handler (Engine.reference : Engine ℚ) False (fun n => n = 0))
          (fun _ => clientThread tellOrAsk 1) Store.empty.toDatabase
          (turns.map (Interleaved.mapTurn Store.toDatabase)) left t.toDatabase
        ∧ t.clients = [⟨clientId, [0x61]⟩] ∧ t.packets = [⟨packetId, clientId, 0, 2, -3⟩]
        ∧ (ownTurns 0 turns).filterMap Event.message = [tellingBytes]
        ∧ (ownTurns 1 turns).filterMap Event.message = [requestBytes]
        ∧ (ownTurns 1 turns).filterMap Event.reply = [⟨[⟨[0x61], 2, 3, 2, 3⟩]⟩]
        ∧ Dialogue (fun n => n = 0) tellOrAsk False (ownTurns 1 turns)
        ∧ ∃ e ∈ ownTurns 1 turns, e.message = some requestBytes
          ∧ ∃ c ∈ e.pre.clients, c.uuid = [0x61]
            ∧ ∀ u : Store ℚ, e.pre.Grows u → tellingData.sample ∈ u.samplesOf c.id := by
  obtain ⟨telling, asking, t, clientId, packetId, htell, hask, hclients, hpackets, hreturned,
    htold, -, hasked, hreply⟩ := exists_told_run (Engine.reference : Engine ℚ) 0
      (show (tellOrAsk tellingBytes).2 = ⟨ClientPacket.DATA, some tellingData⟩ from rfl) rfl rfl rfl
  obtain ⟨left, hrun, -, hleft⟩ : ∃ left, Interleaved (storeHandler Engine.reference False
      (fun n => n = 0)) (fun _ : ℕ => clientThread tellOrAsk 1) Store.empty
      (telling.map (Prod.mk 0) ++ asking.map (Prod.mk 1)) left t ∧ left 0 = .ret ()
        ∧ left 1 = .ret () := Interleaved.one_then_other zero_ne_one htell hask
  obtain ⟨turns, hturns, hdialogue, hcounted⟩ := replies_fresh Engine.reference (fun n => n = 0)
    tellOrAsk (fun _ => 1) hrun.unlift
    (by rw [Store.rowsOf_packets, List.length_map, hpackets]; exact show 1 < 2 ^ 31 by decide)
    (by
      rw [Store.rowsOf_clients, List.length_map, hclients]
      exact show 1 ≤ SQLite.sizeMax by decide)
  obtain rfl := (Interleaved.mapTurn_injective Store.toDatabase_injective).list_map hturns
  have hown : ownTurns 0 (telling.map (Prod.mk 0) ++ asking.map (Prod.mk 1)) = telling
      ∧ ownTurns 1 (telling.map (Prod.mk 0) ++ asking.map (Prod.mk 1)) = asking := by
    simp [ownTurns_map_self, ownTurns_map_of_ne]
  -- the request is read when the save has returned
  obtain ⟨e, he, hmessage⟩ := List.mem_filterMap.mp (hasked ▸ List.mem_singleton_self requestBytes)
  obtain ⟨before, after, hsplit⟩ := List.append_of_mem he
  have hbefore : ownTurns 0 (telling.map (Prod.mk 0) ++ before.map (Prod.mk 1)) = telling := by
    simp [ownTurns_map_self, ownTurns_map_of_ne]
  have hentry : Collecting.entryOf 0 (cstr tellingData.uuid) t.packets
      = Statistics.report 0 [0x61] [tellingData.sample] := by
    rw [hpackets]
    exact Statistics.entryOf_eq_report 0 [0x61] (show 1 < 2 ^ 31 by decide)
  refine ⟨_, left, t, clientId, packetId, hrun.unlift, hclients, hpackets, ?_, ?_, ?_,
    (hdialogue 1).mono ?_, e, ?_, hmessage,
    hcounted _ (1, e) (after.map (Prod.mk 1)) ?_ 0 tellingData (hbefore.symm ▸ hreturned)⟩
  · rw [hown.1, htold]
  · rw [hown.2, hasked]
  · rw [hown.2, hreply, hentry]
    decide +kernel
  · rw [hleft]
    rintro ⟨c, k, hbusy⟩
    cases hbusy
  · rwa [hown.2]
  · rw [hsplit, List.map_append, List.map_cons, List.append_assoc]
