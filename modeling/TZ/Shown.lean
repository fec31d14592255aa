import TZ.Delivery

/-!
# What the statistics show

One client asks for the statistics, while others send packets. Every step in
between loses nothing: the text that is printed comes from a reply of the
thread of that client, the reply answers a request that was read before, and
each of its entries was computed from the rows of one store there was in
between. Those rows are a prefix of what the sender has sent, which holds at
least what had been read of it when the question was asked
(`statistics_shown`).

The difficulty is that four things happen at different times: a packet is read, the
question is asked, a row is listed, a text is printed. In between any other thread may
have taken any number of steps. Nothing can therefore be said about "the" state of the
database. What can be said is that each of these times is an event of the run, in this
order, and that between two of them rows were only added. The statement names those
events: the reply is written by the thread of the client that asks, after it has read a
message and a time from the clock (`Replied`), and the rows of an entry are those of the
store in which they were listed.

The module goes along the way the figures take, backwards from the text: what a client
is told was written to it (`Network.Run.told`); what was written to it is a reply of its
thread (`Network.Run.replies`); a reply answers a message (`Replying`); a message was
sent (`Network.Run.messages`). The last step, from the rows of a store to the packets
that were sent, is the invariant of `TZ.Delivery`.
-/

open Server Protobuf

variable {F : Type} [Double F]

/-! ## Replies and requests

`TZ.Replies` has split what passes over a connection into questions and answers. Here
the other direction is needed: given a reply, somewhere in the run, which question was
it an answer to? So the same runs are gone through once more, with what was read
before as an argument. -/

/-- What is current since some store is current since an earlier one.

Clients that were there earlier are there later, and it is enough to be
current for those. -/
theorem Current.of_grows {E : Engine F} {clock : Int → Prop} {s t : Store F}
    {es : List (Event (Store F) (Cmd F) Cmd.Resp)} {reply : ServerStatistic F}
    (h : Current E clock t es reply) (hg : s.Grows t) : Current E clock s es reply := by
  obtain ⟨now, hnow, htime, hnodup, hentries⟩ := h
  refine ⟨now, hnow, htime, hnodup, fun c hc => ?_⟩
  obtain ⟨e, he, hpre, hpost, hfilter⟩ := hentries c (hg.clients.subset hc)
  exact ⟨e, he, hg.trans hpre, hpost, hfilter⟩

/-- **A question has been answered** among the calls of a thread: by one of them it
has read a message, by a later one it has written the reply `stats`, and in
between it has read the time `now` from the clock, and neither another message
nor written another reply.

The time is tied to the reply by standing between the two events, with no
other reply in between: a thread may have answered earlier questions at other
times, and those readings do not count. -/
def Replied {σ F : Type} (es : List (Event σ (Cmd F) Cmd.Resp)) (stats : ServerStatistic F)
    (now : Int) : Prop :=
  ∃ before e between w after, es = before ++ e :: (between ++ w :: after)
    ∧ e.message ≠ none ∧ (∀ e' ∈ between, e'.Silent) ∧ (∃ e' ∈ between, e'.time = some now)
    ∧ w.reply = some stats

omit [Double F] in
theorem Replied.map {σ τ : Type} {es : List (Event τ (Cmd F) Cmd.Resp)}
    {stats : ServerStatistic F} {now : Int} (h : Replied es stats now) (f : τ → σ) :
    Replied (es.map (Event.map f)) stats now := by
  obtain ⟨before, e, between, w, after, rfl, he, hsilent, ⟨timing, htiming, htime⟩, hw⟩ := h
  refine ⟨before.map (Event.map f), e.map f, between.map (Event.map f), w.map f,
    after.map (Event.map f), ?_, ?_, ?_,
    ⟨_, List.mem_map_of_mem htiming, (timing.time_map f).trans htime⟩, (w.reply_map f).trans hw⟩
  · rw [List.map_append, List.map_cons, List.map_append, List.map_cons]
  · rwa [Event.message_map]
  · exact List.forall_mem_map.mpr fun e' he' =>
      ⟨(e'.message_map f).trans (hsilent e' he').1, (e'.reply_map f).trans (hsilent e' he').2⟩

namespace Server

section Replying

variable {E : Engine F} {clock : Int → Prop} {ParseFromString : Bytes → Bool × ClientPacket F}
  {past es es' : List (Event (Store F) (Cmd F) Cmd.Resp)} {s t : Store F}
  {q : ServerProg F Unit}

/-- **Every reply answers a message that was read before it**, with entries that
are current since then. The events of `past` came before.

The recursion goes over the events as they come, so that a thread can be
followed from its start; the past has to be carried along because a reply is
tied to an event that is over when it is written. -/
def Replying (E : Engine F) (clock : Int → Prop) :
    List (Event (Store F) (Cmd F) Cmd.Resp) → List (Event (Store F) (Cmd F) Cmd.Resp) → Prop
  | _, [] => True
  | past, w :: es =>
    (∀ stats, w.reply = some stats → ∃ before e after, past = before ++ e :: after
      ∧ e.message ≠ none ∧ (∀ e' ∈ after, e'.Silent) ∧ Current E clock e.post after stats)
    ∧ Replying E clock (past ++ [w]) es

theorem replying_append :
    Replying E clock past (es ++ es')
      ↔ Replying E clock past es ∧ Replying E clock (past ++ es) es' := by
  induction es generalizing past with
  | nil =>
    rw [List.append_nil]
    exact ⟨fun h => ⟨trivial, h⟩, And.right⟩
  | cons w es ih =>
    rw [List.cons_append, Replying, Replying, ih, List.append_assoc, and_assoc]
    rfl

theorem replying_silent (h : ∀ e ∈ es, e.Silent) : Replying E clock past es := by
  induction es generalizing past with
  | nil => trivial
  | cons w es ih =>
    obtain ⟨hw, hes⟩ := List.forall_mem_cons.mp h
    refine ⟨fun stats hstats => ?_, ih hes⟩
    rw [hw.2] at hstats
    cases hstats

/-- A reply among the events answers the message before it. -/
theorem Replying.reply (h : Replying E clock past es) {w : Event (Store F) (Cmd F) Cmd.Resp}
    (hw : w ∈ es) {stats : ServerStatistic F} (hstats : w.reply = some stats) :
    ∃ before e after rest, past ++ es = before ++ e :: (after ++ w :: rest)
      ∧ e.message ≠ none ∧ (∀ e' ∈ after, e'.Silent) ∧ Current E clock e.post after stats := by
  induction es generalizing past with
  | nil => cases hw
  | cons w' es ih =>
    obtain ⟨hnow, hrest⟩ := h
    rcases List.mem_cons.mp hw with rfl | hw
    · obtain ⟨before, e, after, rfl, he⟩ := hnow stats hstats
      exact ⟨before, e, after, es, by rw [List.append_assoc, List.cons_append], he⟩
    · obtain ⟨before, e, after, rest, hsplit, he⟩ := ih hrest hw
      rw [List.append_assoc] at hsplit
      exact ⟨before, e, after, rest, hsplit, he⟩

/-- **What the loop does with a message**, and after it.

The three kinds of messages are one statement, since only a question leads to
a reply and the others leave nothing to show. `k` is the rest of the loop. -/
theorem handle_replying {k : ServerProg F Unit} {buffer : Bytes}
    {before : List (Event (Store F) (Cmd F) Cmd.Resp)} {e : Event (Store F) (Cmd F) Cmd.Resp}
    (he : e.message ≠ none) (hpost : e.post = s)
    (h : Steps (storeHandler E False clock) Store.Grows
      ((handleMessage ParseFromString buffer).bind fun _ => k) s es q t)
    (ht : t.clients.length ≤ SQLite.sizeMax) (hgrows : ∀ e ∈ es, e.pre.Grows t)
    (hk : ∀ s' es' past', (∀ e ∈ es', e ∈ es) →
      Steps (storeHandler E False clock) Store.Grows k s' es' q t →
      Replying E clock past' es') :
    Replying E clock (before ++ [e]) es := by
  unfold handleMessage handlePacket at h
  by_cases hdata : (ParseFromString buffer).2.type = ClientPacket.DATA
  · rw [if_pos hdata] at h
    rcases h.bind_inv with ⟨p', -, -, hsave⟩ | ⟨_, es₁, es₂, m, rfl, hsave, hrest⟩
    · exact replying_silent (save_silent hsave)
    · exact replying_append.mpr ⟨replying_silent (save_silent hsave),
        hk m es₂ _ (fun e he => List.mem_append_right _ he) hrest⟩
  · rw [if_neg hdata] at h
    by_cases htype : (ParseFromString buffer).2.type = ClientPacket.STATISTICS
    · rw [if_pos htype, Prog.bind_eq, Prog.bind_assoc] at h
      rcases h.bind_inv with ⟨p', -, -, hcollect⟩ | ⟨r, es₁, es₂, m, rfl, hcollect, hrest⟩
      · exact replying_silent fun e he => (collect_reads hcollect e he).1.silent
      · have hsilent : ∀ e ∈ es₁, e.Silent := fun e he => (collect_reads hcollect e he).1.silent
        refine replying_append.mpr ⟨replying_silent hsilent, ?_⟩
        obtain ⟨rfl, -, -⟩ | ⟨s₁, w, s₂, es', rfl, hm, -, hrest⟩ := Steps.call_inv hrest
        · trivial
        · have hmt : m.Grows t := hm.trans
            (hgrows ⟨s₁, .write r, w, s₂⟩ (List.mem_append_right _ List.mem_cons_self))
          refine ⟨fun stats hstats =>
            ⟨before, e, es₁, by rw [List.append_assoc]; rfl, he, hsilent, ?_⟩, ?_⟩
          · obtain rfl : r = stats := Option.some.inj hstats
            rw [hpost]
            exact collect_current hcollect (hmt.clients.length_le.trans ht)
          · cases w with
            | ok u =>
              exact hk s₂ es' _ (fun e he => List.mem_append_right _ (List.mem_cons_of_mem _ he))
                hrest
            | error ex =>
              obtain ⟨rfl, -, -⟩ := Steps.throw_inv hrest
              trivial
    · rw [if_neg htype] at h
      exact hk s es _ (fun e he => he) h

/-- **Every reply of the loop answers a message.**

The induction is on the messages the loop may still read; what has passed
before is generalised, because it grows. -/
theorem loop_replying {n : ℕ}
    (h : Steps (storeHandler E False clock) Store.Grows (messageLoop ParseFromString n) s es
      q t) (ht : t.clients.length ≤ SQLite.sizeMax) (hgrows : ∀ e ∈ es, e.pre.Grows t) :
    Replying E clock past es := by
  induction n generalizing s es past with
  | zero =>
    obtain ⟨rfl, -, -⟩ := Steps.ret_inv h
    trivial
  | succ n ih =>
    obtain ⟨rfl, -, -⟩ | ⟨s₁, needExit, s₂, es, rfl, -, -, h⟩ := Steps.call_inv h
    · trivial
    refine ⟨nofun, ?_⟩
    cases needExit with
    | true =>
      obtain ⟨rfl, -, -⟩ := Steps.ret_inv h
      trivial
    | false =>
      obtain ⟨rfl, -, -⟩ | ⟨s₃, r, s₄, es, rfl, -, -, h⟩ := Steps.call_inv h
      · trivial
      refine ⟨nofun, ?_⟩
      cases r with
      | error ex =>
        obtain ⟨rfl, -, -⟩ := Steps.throw_inv h
        trivial
      | ok buffer =>
        refine handle_replying (Option.some_ne_none buffer) rfl h ht
          (fun e he => hgrows e (List.mem_cons_of_mem _ (List.mem_cons_of_mem _ he))) ?_
        intro s' es' past' hes' h'
        refine ih h' fun e he => hgrows e ?_
        exact List.mem_cons_of_mem _ (List.mem_cons_of_mem _ (hes' e he))

/-- **Every reply of a thread answers a message.** -/
theorem thread_replying {n : ℕ}
    (h : Steps (storeHandler E False clock) Store.Grows (clientThread ParseFromString n) s es
      q t) (ht : t.clients.length ≤ SQLite.sizeMax) : Replying E clock [] es := by
  have hbetween := steps_between (clientThread_conforms ParseFromString n) h
  unfold clientThread Prog.catchStd at h
  rcases h.tryCatch_inv with ⟨p', -, hrun⟩ | ⟨ex, es₁, es₂, m, rfl, hrun, hcatch⟩
  · exact loop_replying hrun ht fun e he => (hbetween e he).2.1.trans (hbetween e he).2.2
  · -- the handler of the exception makes no call
    have hdone : es₂ = [] ∧ m.Grows t := by
      cases ex with
      | nullString =>
        obtain ⟨hnil, -, hm⟩ := hcatch.throw_inv
        exact ⟨hnil, hm⟩
      | _ =>
        obtain ⟨hnil, -, hm⟩ := hcatch.ret_inv
        exact ⟨hnil, hm⟩
    obtain ⟨rfl, hm⟩ := hdone
    have hloop := steps_between (messageLoop_conforms ParseFromString n) hrun
    rw [List.append_nil]
    exact loop_replying hrun (hm.clients.length_le.trans ht)
      fun e he => (hloop e he).2.1.trans (hloop e he).2.2

end Replying

end Server

/-! ## What has passed over a connection

A connection is a list of what was written in each direction and a count of what was
read. Both only grow, whoever makes the next move; this is the only thing about
connections that the statements about whole runs use. -/

theorem Channel.Writes.grows {α : Type} {ch ch' : Channel} {buffer : Bytes} {r : Except Exc α}
    (h : ch.Writes buffer r ch') : ch.written <+: ch'.written := by
  rcases h.written.2 with hw | hw
  · exact hw ▸ List.prefix_rfl
  · exact hw ▸ List.prefix_append _ _

theorem Channel.Reads.taken {ch ch' : Channel} {r : Except Exc Bytes} (h : ch.Reads r ch') :
    ch.taken ≤ ch'.taken := by
  cases h with
  | received h => exact Nat.le_succ _
  | broken what => exact le_rfl

namespace Connection

/-- **Nothing that was written is taken back.**

The clock of the client is listed with it, as it is kept with its connection;
what it has shown is not taken back either. -/
structure Grows (x x' : Connection) : Prop where
  /-- To the server. -/
  up : x.up.written <+: x'.up.written
  /-- From the server. -/
  down : x.down.written <+: x'.down.written
  /-- What was read was read. -/
  taken : x.up.taken ≤ x'.up.taken
  /-- What the clock has shown it has shown. -/
  clock : x.clock <+: x'.clock

theorem Grows.refl (x : Connection) : x.Grows x :=
  ⟨List.prefix_rfl, List.prefix_rfl, le_rfl, List.prefix_rfl⟩

theorem Grows.trans {x x' x'' : Connection} (h : x.Grows x') (h' : x'.Grows x'') :
    x.Grows x'' :=
  ⟨h.up.trans h'.up, h.down.trans h'.down, h.taken.trans h'.taken, h.clock.trans h'.clock⟩

variable {W : Writer F} {drawn : F → Prop} {x x' : Connection}

theorem Serves.grows {c : Cmd F} {r : c.Resp} (h : x.Serves W c r x') : x.Grows x' := by
  cases c with
  | read =>
    obtain ⟨up, hread, rfl⟩ := h
    exact ⟨hread.written ▸ List.prefix_rfl, List.prefix_rfl, hread.taken, List.prefix_rfl⟩
  | write stats =>
    obtain ⟨down, hwrite, rfl⟩ := h
    exact ⟨List.prefix_rfl, hwrite.grows, le_rfl, List.prefix_rfl⟩
  | _ => exact (show x' = x from h) ▸ .refl x

omit [Double F] in
theorem Answers.grows {c : ClientCmd F} {r : c.Resp} (h : x.Answers drawn c r x') :
    x.Grows x' := by
  cases c with
  | read =>
    obtain ⟨down, hread, rfl⟩ := h
    exact ⟨List.prefix_rfl, hread.written ▸ List.prefix_rfl, le_rfl, List.prefix_rfl⟩
  | write buffer =>
    obtain ⟨up, hwrite, rfl⟩ := h
    exact ⟨hwrite.grows, List.prefix_rfl, hwrite.written.1.ge, List.prefix_rfl⟩
  | now =>
    rw [h.2]
    exact ⟨List.prefix_rfl, List.prefix_rfl, le_rfl, List.prefix_append _ _⟩
  | sleep => exact (show x' = x from h) ▸ .refl x
  | needExit => exact (show x' = x from h) ▸ .refl x
  | _ => exact (show x' = x from h.2) ▸ .refl x

/-- What a thread has just written is a reply.

A call that is not a write leaves the list as it was, and a write that fails
too. -/
theorem Serves.reply {c : Cmd F} {r : c.Resp} {d d' : Database F} {buffer : Bytes}
    (h : x.Serves W c r x') (hbuffer : buffer ∈ x'.down.written) :
    buffer ∈ x.down.written ∨ ∃ stats,
      (⟨d, c, r, d'⟩ : Event (Database F) (Cmd F) Cmd.Resp).reply = some stats
        ∧ buffer = stats.SerializeAsString W.toRuntime := by
  cases c with
  | write stats =>
    obtain ⟨down, hwrite, rfl⟩ := h
    have hbuffer : buffer ∈ down.written := hbuffer
    rcases hwrite.written.2 with hw | hw
    · exact Or.inl (hw ▸ hbuffer)
    · rw [hw, List.mem_append, List.mem_singleton] at hbuffer
      exact hbuffer.imp_right fun h => ⟨stats, rfl, h⟩
  | read =>
    obtain ⟨up, -, rfl⟩ := h
    exact Or.inl hbuffer
  | _ => exact Or.inl ((show x' = x from h) ▸ hbuffer)

omit [Double F] in
/-- A client writes nothing to itself. -/
theorem Answers.down {c : ClientCmd F} {r : c.Resp} (h : x.Answers drawn c r x') :
    x'.down.written = x.down.written := by
  cases c with
  | read =>
    obtain ⟨down, hread, rfl⟩ := h
    exact hread.written
  | write buffer =>
    obtain ⟨up, -, rfl⟩ := h
    rfl
  | sleep => exact (show x' = x from h) ▸ rfl
  | needExit => exact (show x' = x from h) ▸ rfl
  | _ => exact h.2 ▸ rfl

/-- A client is told what was written to it.

A client learns of the server only by reading, so a statement about what it is
told is a statement about everything it does afterwards. -/
def Tells (x : Connection) : (c : ClientCmd F) → c.Resp → Prop
  | .read, .ok buffer => buffer ∈ x.down.written
  | _, _ => True

omit [Double F] in
theorem Answers.tells {c : ClientCmd F} {r : c.Resp} (h : x.Answers drawn c r x') :
    x.Tells c r := by
  cases c with
  | read =>
    obtain ⟨down, hread, rfl⟩ := h
    cases hread with
    | broken what => trivial
    | received hget => exact List.mem_of_getElem? hget
  | _ => trivial

omit [Double F] in
theorem Tells.grows {c : ClientCmd F} {r : c.Resp} (h : x.Tells c r) (hg : x.Grows x') :
    x'.Tells c r := by
  cases c with
  | read =>
    cases r with
    | error ex => trivial
    | ok buffer => exact hg.down.subset h
  | _ => trivial

end Connection

namespace Network.Run

variable {ι : Type} [DecidableEq ι] {H : Handler (Database F) (Cmd F) Cmd.Resp} {W : Writer F}
  {drawn : F → Prop} {N M : Network ι F} {turns : List (Turn ι (Database F) (Cmd F) Cmd.Resp)}

/-- What holds between a connection and itself after a move holds of all
connections. -/
theorem update_connections {P : Connection → Connection → Prop} (hrefl : ∀ x, P x x)
    {connections : ι → Connection} {i : ι} {x : Connection} (h : P (connections i) x) (j : ι) :
    P (connections j) (Function.update connections i x j) := by
  by_cases hj : j = i
  · subst hj
    rw [Function.update_self]
    exact h
  · rw [Function.update_of_ne hj]
    exact hrefl _

/-- **Over no connection anything is taken back.**

By induction on the run: a move of a thread or of a client changes one
connection, and that one grows. -/
theorem grows (h : Run H W drawn N turns M) (i : ι) :
    (N.connections i).Grows (M.connections i) := by
  induction h with
  | done => exact .refl _
  | served hp hc hx _ ih => exact (update_connections .refl hx.grows i).trans ih
  | answered hp hx _ ih => exact (update_connections .refl hx.grows i).trans ih

/-- **A message that was read was written before.**

Written by the client of that connection, and by the end of the run: what was
read before it was written does not exist. -/
theorem messages (h : Run H W drawn N turns M) :
    ∀ e ∈ turns, ∀ buffer, e.2.message = some buffer →
      buffer ∈ (M.connections e.1).up.written := by
  induction h with
  | done => exact List.forall_mem_nil _
  | @served N M i c k r d x turns hp hc hx rest ih =>
    refine List.forall_mem_cons.mpr ⟨fun buffer hbuffer => ?_, ih⟩
    have hgrows := (hx.grows.trans (serve_connections N i d x (k r) ▸ rest.grows i)).up
    cases c with
    | read =>
      obtain ⟨up, hread, rfl⟩ := hx
      cases hread with
      | broken what => cases hbuffer
      | @received buffer' hget =>
        obtain rfl : buffer' = buffer := Option.some.inj hbuffer
        exact hgrows.subset (List.mem_of_getElem? hget)
    | _ => cases hbuffer
  | answered hp hx _ ih => exact ih

/-- **A reply that was written is one the thread wrote.**

Or it had been written before this run began; that is excluded later by
choosing a run that begins with nothing written. -/
theorem replies (h : Run H W drawn N turns M) {i : ι} {buffer : Bytes}
    (hbuffer : buffer ∈ (M.connections i).down.written) :
    buffer ∈ (N.connections i).down.written ∨ ∃ e ∈ turns, e.1 = i ∧ ∃ stats,
      e.2.reply = some stats ∧ buffer = stats.SerializeAsString W.toRuntime := by
  induction h with
  | done => exact Or.inl hbuffer
  | @served N M j c k r d x turns hp hc hx _ ih =>
    rcases ih hbuffer with hold | ⟨e, he, hreply⟩
    · by_cases hij : j = i
      · subst hij
        rw [serve_connections] at hold
        exact (hx.reply hold).imp_right fun hreply => ⟨_, List.mem_cons_self, rfl, hreply⟩
      · rw [serve_others N d x (k r) (Ne.symm hij)] at hold
        exact Or.inl hold
    · exact Or.inr ⟨e, List.mem_cons_of_mem _ he, hreply⟩
  | @answered N M j c k r x turns hp hx _ ih =>
    refine (ih hbuffer).imp_left fun hold => ?_
    by_cases hij : j = i
    · subst hij
      rw [answer_connections] at hold
      exact hx.down ▸ hold
    · rwa [answer_others N x (k r) (Ne.symm hij)] at hold

/-- **What a client is told was written to it**, so what it prints depends on
nothing else.

What a client may be told is fixed at the end of the run and not at the time
it is told. That is weaker, but it is enough for the text it prints, and it is
an invariant. -/
theorem told (h : Run H W drawn N turns M) {i : ι} {Q : Option Bytes → Prop}
    (hi : (N.clients i).Conforms (fun _ => True) (M.connections i).Tells Q) :
    (M.clients i).Conforms (fun _ => True) (M.connections i).Tells Q := by
  induction h with
  | done => exact hi
  | served hp hc hx _ ih => exact ih hi
  | @answered N M j c k r x turns hp hx rest ih =>
    refine ih ?_
    show (Function.update N.clients j (k r) i).Conforms _ _ _
    by_cases hij : i = j
    · subst hij
      rw [hp] at hi
      rw [Function.update_self]
      have hgrows := hx.grows.trans (answer_connections N i x (k r) ▸ rest.grows i)
      exact hi.2 r (hx.tells.grows hgrows)
    · rwa [Function.update_of_ne hij]

end Network.Run

/-! ## What is said and what was sent

Bytes are what the two sides have in common. The sender has made them of packets, the
thread has parsed them, and the round trip of `TZ.Sending` says that both mean the
same packets, each as it comes over the wire. -/

/-- What is said is not taken back. -/
theorem Store.Grows.said {s t : Store F} (h : s.Grows t) (uuid : Bytes) :
    s.said uuid <+: t.said uuid := by
  unfold Store.said
  cases hc : s.find uuid with
  | none => exact List.nil_prefix
  | some c =>
    rw [h.find hc]
    exact (h.packets.filter _).map _

namespace Client

variable {W : Writer F} {drawn : F → Prop} {uuid : Uuid}
  {At : W.Stream → List (List UInt8) → Prop} {double : F → List UInt8} {maxSize : ℕ}

/-- What packets say is known from their bytes.

Packets are not determined by their bytes: a zero of either sign is left out.
What they say is, up to that. -/
theorem received_prefix (hW : W.Lawful At double maxSize)
    {sent sent' : List (ClientPacket.Data F)} (hsent : ∀ data ∈ sent, Sends drawn uuid data)
    (hsent' : ∀ data ∈ sent', Sends drawn uuid data)
    (h : sent.map (bytes W) <+: sent'.map (bytes W)) :
    sent.map (fun data => data.received.sample)
      <+: sent'.map fun data => data.received.sample := by
  have hreceived := h.filterMap fun buffer =>
    (ClientPacket.ParseFromString W.toRuntime buffer).2.data
  rw [parse_map_bytes hW hsent, parse_map_bytes hW hsent'] at hreceived
  have hsamples := hreceived.map ClientPacket.Data.sample
  rwa [List.map_map, List.map_map] at hsamples

/-- **What one that asks prints** is the text of a reply it was told.

The result of the parse is ignored in the source, so the text is that of
whatever the parser has left. That this is the whole reply is proved
elsewhere, and only for replies it accepts. -/
theorem getStatistics_told (to_string : F → Bytes) (x : Connection) :
    (Role.asker.prog W to_string).Conforms (fun _ => True) x.Tells fun shown =>
      ∀ text, shown = some text → ∃ buffer ∈ x.down.written,
        text = statsStr to_string (ServerStatistic.ParseFromString W.toRuntime buffer).2 := by
  refine Prog.Conforms.bind (Q := fun text => ∃ buffer ∈ x.down.written,
    text = statsStr to_string (ServerStatistic.ParseFromString W.toRuntime buffer).2)
    (Prog.Conforms.bind (Q := fun buffer => buffer ∈ x.down.written)
      (catchSystem_conforms ?_ _) fun buffer hbuffer => ⟨buffer, hbuffer, rfl⟩)
    fun text htext text' heq => Option.some.inj heq ▸ htext
  refine Prog.Conforms.bind (Q := fun _ => True)
    ⟨trivial, fun r _ => .ofExcept fun _ _ => trivial⟩ fun _ _ => ⟨trivial, fun r hr => ?_⟩
  refine .ofExcept fun buffer hbuffer => ?_
  rw [hbuffer] at hr
  exact hr

end Client

/-! ## From the packets to the text

Here the pieces are put together, for a run that is cut in two at the moment of which
the statement speaks. The second half begins in a network and not in the start; that
is why the invariants were stated for networks. -/

namespace Network.Run

variable {ι : Type} [DecidableEq ι] {E : Engine F} {clock : Int → Prop} {W : Writer F}
  {drawn : F → Prop} {At : W.Stream → List (List UInt8) → Prop} {double : F → List UInt8}
  {maxSize : ℕ} {roles : ι → Role} {to_string : F → Bytes} {messages : ι → ℕ} {s : Store F}
  {faulty : Prop} {N M : Network ι F}
  {turns turns' : List (Turn ι (Database F) (Cmd F) Cmd.Resp)}

/-- **Every reply is well-formed**, if the uuids that were there at the start
are.

Every uuid in a reply comes from a client row, every client row from the file
or from a packet, and every packet of a sender has a uuid that is text. -/
theorem verified (hW : W.Lawful At double maxSize)
    (hM : M.Satisfies (Kept roles s) fun i => (roles i).Asserts W drawn faulty s)
    (hs : s.Uuids fun uuid => W.VerifyUTF8 uuid = true)
    (h : Run (handler E faulty clock) W drawn
      (Network.start W to_string s.toDatabase roles messages) turns M) :
    ∀ e ∈ turns, ∀ stats, e.2.reply = some stats →
      ∀ entry ∈ stats.client, W.VerifyUTF8 entry.uuid = true := by
  obtain ⟨t, -, -, hasserts⟩ := hM
  have hP : ∀ buffer, (∀ data,
      (ClientPacket.ParseFromString W.toRuntime buffer).2.data = some data →
        W.VerifyUTF8 (cstr data.uuid) = true) →
      (ClientPacket.ParseFromString W.toRuntime buffer).2.type = ClientPacket.DATA →
      ∀ data, (ClientPacket.ParseFromString W.toRuntime buffer).2.data = some data →
        W.VerifyUTF8 (cstr data.uuid) = true := fun _ hbuffer _ => hbuffer
  refine (interleaved_bears (P := fun uuid => W.VerifyUTF8 uuid = true) hP hs h.interleaved
    fun e he buffer hbuffer => ?_).2
  have hwritten := h.messages e he buffer hbuffer
  have hasserts : (roles e.1).Asserts W drawn faulty s t _ _ _ := hasserts e.1
  cases hrole : roles e.1 with
  | asker =>
    rw [hrole] at hasserts
    rw [hasserts.requests buffer hwritten, Client.parse_request hW]
    exact fun data hdata => nomatch hdata
  | sender uuid rounds =>
    rw [hrole] at hasserts
    obtain ⟨-, sent, stored, hsent, hsends, -⟩ := hasserts
    rw [hsent] at hwritten
    obtain ⟨data, hdata, rfl⟩ := List.mem_map.mp hwritten
    rw [Client.parse_bytes hW (hsends data hdata)]
    intro data' hdata'
    rw [← Option.some.inj hdata', (hsends data hdata).cstr_received]
    exact hW.verifyAscii fun b hb => (Uuid.mem_textFrom hb).2

/-- **The reply of a thread that had read nothing** is current since then: it is
computed from stores in which the calls `after` were issued, which the thread has
made between reading the question and writing the reply.

The asker had not written anything when the first half ended, so its thread
had read nothing, and every reply it writes answers a message of the second
half. The stores are named, since the entries of several senders are computed
from different ones. -/
theorem reply_current {a : ι}
    (h : Run (handler E False clock) W drawn
      (Network.start W to_string s.toDatabase roles messages) turns N)
    (h' : Run (handler E False clock) W drawn N turns' M)
    (hquiet : (N.connections a).up.written = [])
    (hclients : (M.database.rowsOf CLIENTS_TABLE_NAME).length ≤ SQLite.sizeMax)
    {w : Turn ι (Database F) (Cmd F) Cmd.Resp} (hw : w ∈ turns ++ turns') (hwa : w.1 = a)
    {stats : ServerStatistic F} (hstats : w.2.reply = some stats) :
    ∃ (t u : Store F) (after : List (Event (Store F) (Cmd F) Cmd.Resp)) (now : Int),
      N.database = t.toDatabase ∧ M.database = u.toDatabase
        ∧ clock now ∧ Replied (ownTurns a turns') stats now
        ∧ (stats.client.map ServerStatistic.Statistic.uuid).Nodup
        ∧ (∀ c ∈ t.clients, ∃ e ∈ after, t.Grows e.pre ∧ e.pre.Grows e.post
          ∧ stats.client.filter (fun entry => entry.uuid = c.uuid)
            = (Collecting.entry E now e.pre c).toList)
        ∧ ∀ e ∈ after, (a, e.map Store.toDatabase) ∈ turns' ∧ e.post.Grows u := by
  obtain ⟨t, before, hN, rfl, hbefore, hconf, -⟩ := h.interleaved.lift simulates_store
    (fun i => clientThread_conforms _ _)
  have hrest := h'.interleaved
  rw [hN] at hrest
  obtain ⟨u, later, hM, rfl, hlater, -, -⟩ := hrest.lift simulates_store hconf
  have hall := hbefore.append hlater
  have hturns := interleaved_stores (fun i => clientThread_conforms _ _) hall
  rw [hM, Store.rowsOf_clients, List.length_map] at hclients
  have hreplying := thread_replying (hall.project (i := a) fun e he _ => (hturns e he).1) hclients
  rw [← List.map_append] at hw
  obtain ⟨⟨i, w⟩, hmem, rfl⟩ := List.mem_map.mp hw
  obtain rfl : i = a := hwa
  have hreply : w.reply = some stats := (w.reply_map Store.toDatabase).symm.trans hstats
  obtain ⟨earlier, e, after, rest, hsplit, he, hsilent, hcurrent⟩ :=
    hreplying.reply ((mem_ownTurns i).mpr hmem) hreply
  rw [List.nil_append, ownTurns_append] at hsplit
  -- the message was not read before the thread had read anything
  have hnew : e ∉ ownTurns i before := by
    intro hold
    obtain ⟨buffer, hbuffer⟩ := Option.ne_none_iff_exists'.mp he
    have hread := h.messages (i, e.map Store.toDatabase)
      (List.mem_map_of_mem ((mem_ownTurns i).mp hold)) buffer
      ((e.message_map Store.toDatabase).trans hbuffer)
    rw [show (N.connections i).up.written = [] from hquiet] at hread
    cases hread
  obtain ⟨l, hl⟩ : ∃ l, ownTurns i later = l ++ e :: (after ++ w :: rest) := by
    rcases List.append_eq_append_iff.mp hsplit with ⟨l, -, hl⟩ | ⟨l, hl, hrest⟩
    · exact ⟨l, hl⟩
    · cases l with
      | nil => exact ⟨[], hrest.symm⟩
      | cons e' l =>
        obtain ⟨rfl, -⟩ := List.cons.inj hrest
        exact absurd (hl ▸ List.mem_append_right _ List.mem_cons_self) hnew
  have hlater := interleaved_stores hconf hlater
  have hmemLater : ∀ e' ∈ e :: (after ++ w :: rest), (i, e') ∈ later := fun e' he' =>
    (mem_ownTurns i).mp (hl ▸ List.mem_append_right _ he')
  -- what is current since the question was read is current since before it
  obtain ⟨hgrows, hbetween, -⟩ := hlater _ (hmemLater e List.mem_cons_self)
  obtain ⟨now, hnow, htime, hnodup, hentries⟩ := hcurrent.of_grows (hbetween.trans hgrows)
  have hreplied : Replied (ownTurns i later) stats now :=
    ⟨l, e, after, w, rest, hl, he, hsilent, htime, hreply⟩
  refine ⟨t, u, after, now, hN, hM, hnow, ?_, hnodup, hentries, fun e' he' => ?_⟩
  · rw [Interleaved.ownTurns_mapTurn]
    exact hreplied.map Store.toDatabase
  · have hmem := hmemLater e' (List.mem_cons_of_mem _ (List.mem_append_left _ he'))
    exact ⟨List.mem_map_of_mem (f := Interleaved.mapTurn Store.toDatabase) hmem,
      (hlater _ hmem).2.2⟩

/-- **The rows of a sender in a store of the run** are those there were, and what
the first packets it has sent say.

The run is cut once more, at the event in question, and the invariant of
delivery is used at that point. -/
theorem said_at (hW : W.Lawful At double maxSize)
    (hzero : Double.isNaN (Double.zero : F) = false)
    (hdrawn : ∀ x, drawn x → Double.isNaN x = false)
    (hroles : ∀ i j uuid, (roles i).uuid = some uuid → (roles j).uuid = some uuid → i = j)
    (hN : N.Satisfies (Kept roles s) fun i => (roles i).Asserts W drawn faulty s)
    (h : Run (handler E faulty clock) W drawn N turns M) {i : ι} {uuid : Uuid}
    (hi : (roles i).uuid = some uuid) {sent : List (ClientPacket.Data F)}
    (hwritten : (M.connections i).up.written = sent.map (Client.bytes W))
    (hsent : ∀ data ∈ sent, Client.Sends drawn uuid data)
    {e : Turn ι (Database F) (Cmd F) Cmd.Resp} (he : e ∈ turns) {u : Store F}
    (hu : e.2.pre = u.toDatabase) :
    ∃ stored ≤ (M.connections i).up.taken, u.said uuid.to_string
      = s.said uuid.to_string ++ (sent.map fun data => data.received.sample).take stored := by
  obtain ⟨before, after, rfl⟩ := List.append_of_mem he
  obtain ⟨L, hbefore, hL, hafter⟩ := h.split_at
  obtain ⟨u', hu', -, hasserts⟩ := hbefore.delivers hW hzero hdrawn hroles hN
  obtain rfl : u' = u := Store.toDatabase_injective (hu'.symm.trans (hL.trans hu))
  obtain ⟨-, sent', stored, hwritten', hsent', htaken, hserving, hsaid⟩ :=
    (hasserts i).delivering hi
  have hprefix := Client.received_prefix hW hsent' hsent
    (hwritten' ▸ hwritten ▸ (hafter.grows i).up)
  have hle := hserving.bounds.1.trans htaken
  refine ⟨stored, hserving.bounds.1.trans (hafter.grows i).taken, ?_⟩
  rw [hsaid, List.map_take, List.prefix_iff_eq_take.mp hprefix, List.take_take,
    List.length_map, min_eq_left hle]

/-- **What is printed is a reply** of the thread of that client, as it comes over the
wire.

Whatever the client is told, it is one of the replies of its thread, and each
of them is read back in full because its uuids are text and it is not too
long. -/
theorem printed (hW : W.Lawful At double maxSize)
    (h : Run (handler E faulty clock) W drawn
      (Network.start W to_string s.toDatabase roles messages) turns M)
    (hM : M.Satisfies (Kept roles s) fun i => (roles i).Asserts W drawn faulty s)
    (hs : s.Uuids fun uuid => W.VerifyUTF8 uuid = true) {a : ι} {text : Bytes}
    (ha : roles a = .asker) (htext : M.clients a = .ret (some text))
    (hlen : ∀ e ∈ turns, ∀ stats, e.2.reply = some stats →
      (stats.SerializeAsString W.toRuntime).length ≤ maxSize) :
    ∃ w ∈ turns, w.1 = a ∧ ∃ stats, w.2.reply = some stats
      ∧ text = Client.statsStr to_string
        ⟨stats.client.map ServerStatistic.Statistic.received⟩ := by
  have htold := h.told (i := a) (Q := fun shown => ∀ text, shown = some text →
    ∃ buffer ∈ (M.connections a).down.written,
      text = Client.statsStr to_string (ServerStatistic.ParseFromString W.toRuntime buffer).2) (by
    show ((roles a).prog W to_string).Conforms _ _ _
    rw [ha]
    exact Client.getStatistics_told to_string _)
  rw [htext] at htold
  obtain ⟨buffer, hbuffer, hshown⟩ := htold text rfl
  obtain ⟨w, hw, hwa, stats, hstats, rfl⟩ := (h.replies hbuffer).resolve_left nofun
  have hparse := (ServerStatistic.parse_serialize_iff hW.toLawful stats
    (hlen w hw stats hstats)).mpr (h.verified hW hM hs w hw stats hstats)
  rw [hparse] at hshown
  exact ⟨w, hw, hwa, stats, hstats, hshown⟩

/-- **The entry of a sender is computed from what it has sent**: it is registered when
the question is asked, and its rows are listed later.

The number `stored` of packets is that of the store in which the rows were
listed. It is at least what had been read when the question was asked, because
the thread of the sender was idle then, so that all it had read was stored. -/
theorem entry_shown (hW : W.Lawful At double maxSize)
    (hzero : Double.isNaN (Double.zero : F) = false)
    (hdrawn : ∀ x, drawn x → Double.isNaN x = false)
    (hroles : ∀ i j uuid, (roles i).uuid = some uuid → (roles j).uuid = some uuid → i = j)
    (hN : N.Satisfies (Kept roles s) fun i => (roles i).Asserts W drawn False s)
    (h : Run (handler E False clock) W drawn N turns M) {i : ι} {uuid : Uuid}
    (hi : (roles i).uuid = some uuid) (hidle : Idle (N.threads i))
    (hpos : 0 < (N.connections i).up.taken) {t u : Store F} (ht : N.database = t.toDatabase)
    (hu : u.packets.length < 2 ^ 31) {a : ι} {now : Int} {stats : ServerStatistic F}
    {after : List (Event (Store F) (Cmd F) Cmd.Resp)}
    (hentries : ∀ c ∈ t.clients, ∃ e ∈ after, t.Grows e.pre ∧ e.pre.Grows e.post
      ∧ stats.client.filter (fun entry => entry.uuid = c.uuid)
        = (Collecting.entry E now e.pre c).toList)
    (hafter : ∀ e ∈ after, (a, e.map Store.toDatabase) ∈ turns ∧ e.post.Grows u) :
    ∃ (sent : List (ClientPacket.Data F)) (stored : ℕ) (packets : List (Packet F)),
      (M.connections i).up.written = sent.map (Client.bytes W)
        ∧ (∀ data ∈ sent, Client.Sends drawn uuid data)
        ∧ (N.connections i).up.taken ≤ stored ∧ stored ≤ (M.connections i).up.taken
        ∧ (packets.map Packet.sample).Perm (s.said uuid.to_string
          ++ (sent.map fun data => data.received.sample).take stored)
        ∧ packets.length < 2 ^ 31
        ∧ stats.client.filter (fun entry => entry.uuid = uuid.to_string)
          = (Collecting.entryOf now uuid.to_string packets).toList := by
  obtain ⟨v, -, -, hassertsM⟩ := h.delivers hW hzero hdrawn hroles hN
  obtain ⟨-, sent, storedM, hwritten, hsent, -, -, -⟩ := (hassertsM i).delivering hi
  -- the sender is registered when the question is asked
  obtain ⟨t', ht', hkept, hasserts⟩ := hN
  obtain rfl : t' = t := Store.toDatabase_injective (ht'.symm.trans ht)
  obtain ⟨-, sentN, storedN, -, -, htakenN, hservingN, hsaidN⟩ := (hasserts i).delivering hi
  obtain rfl := hservingN.idle hidle id
  obtain ⟨c, hc⟩ : ∃ c, t'.find uuid.to_string = some c := by
    refine Option.ne_none_iff_exists'.mp fun hnone => ?_
    have hnil : t'.said uuid.to_string = [] := by rw [Store.said, hnone]; rfl
    rw [hnil] at hsaidN
    have hlen := congrArg List.length hsaidN
    rw [List.length_append, List.length_map, List.length_take, List.length_nil] at hlen
    omega
  obtain ⟨hmem, huuid⟩ := t'.find_eq_some_iff.mp hc
  obtain ⟨e, he, hgrows, hpost, hfilter⟩ := hentries c hmem
  obtain ⟨hturn, heu⟩ := hafter e he
  obtain ⟨stored, hle, hsaid⟩ := h.said_at hW hzero hdrawn hroles
    ⟨t', ht', hkept, hasserts⟩ hi hwritten hsent hturn (u := e.pre) rfl
  -- no more had been stored then than at the call that lists the rows
  have hmore : (N.connections i).up.taken ≤ stored := by
    have hprefix := (hgrows.said uuid.to_string).length_le
    rw [hsaidN, hsaid, List.length_append, List.length_append, List.length_map,
      List.length_take, List.length_take] at hprefix
    omega
  have hrows : (e.pre.packetsOf E c.id).length < 2 ^ 31 :=
    ((e.pre.packetsOf_perm E c.id).length_eq.trans_le (List.length_filter_le _ _)).trans_lt
      ((hpost.trans heu).packets.length_le.trans_lt hu)
  -- the table is short enough for the counter, so no row is cut off
  have hlisted : Collecting.packetsRead E e.pre c.id = e.pre.packetsOf E c.id :=
    List.take_of_length_le (hrows.le.trans (by decide))
  refine ⟨sent, stored, Collecting.packetsRead E e.pre c.id, hwritten, hsent, hmore, hle, ?_,
    hlisted ▸ hrows, ?_⟩
  · rw [hlisted, ← hsaid, Store.said, hgrows.find hc]
    exact (e.pre.packetsOf_perm E c.id).map _
  · rw [← huuid]
    exact hfilter

end Network.Run

section Shown

variable {ι : Type} [DecidableEq ι] {E : Engine F} {clock : Int → Prop} {W : Writer F}
  {drawn : F → Prop} {At : W.Stream → List (List UInt8) → Prop} {double : F → List UInt8}
  {maxSize : ℕ} {roles : ι → Role} {to_string : F → Bytes} {messages : ι → ℕ}
  {hist : List (Epoch F)} {d₀ d : Database F}
  {boot : List (Event (Database F) (Cmd F) Cmd.Resp)} {N M : Network ι F}
  {turns turns' : List (Turn ι (Database F) (Cmd F) Cmd.Resp)}

/-- **The statistics that are printed show what was sent.** Let clients send
packets and ask, as in `packets_delivered`, with no call on the database
failing, from a file whose uuids are UTF-8, and let one ask and print a text.
The text is that of the entries of the reply its thread has written after
reading the question, each figure as it comes over the wire. Of every sender of
which a packet had been read when the question had not yet been asked, and
whose thread was not at work on one, the reply has the entry that is computed,
at the time its thread has read from the clock and in some order, from the rows
there were at the start and the first packets it has sent – at least those that
had been read.

The run is cut in two so that it can be said what came before the question: up
to `N` nothing had been written to the asker's connection. The bounds on the
tables are those of the counters of the server, and that on the replies is the
one the protobuf runtime puts on a message. Without UTF-8 in the file a reply
would not be read at all (`reply_not_read`), and what of it is printed then is
not determined. -/
theorem statistics_shown {a : ι} {text : Bytes} (hW : W.Lawful At double maxSize)
    (hzero : Double.isNaN (Double.zero : F) = false)
    (hdrawn : ∀ x, drawn x → Double.isNaN x = false)
    (hroles : ∀ i j uuid, (roles i).uuid = some uuid → (roles j).uuid = some uuid → i = j)
    (hd : History E hist d₀)
    (hboot : Steps (handler E True (fun _ => True)) Eq construct d₀ boot (.ret ()) d)
    (hutf : ∀ row ∈ d.rowsOf CLIENTS_TABLE_NAME, ∀ uuid, Cell.text uuid ∈ row →
      W.VerifyUTF8 uuid = true)
    (hrun : Network.Run (handler E False clock) W drawn
      (Network.start W to_string d roles messages) turns N)
    (hquiet : (N.connections a).up.written = [])
    (hrun' : Network.Run (handler E False clock) W drawn N turns' M)
    (ha : roles a = .asker) (htext : M.clients a = .ret (some text))
    (hpackets : (M.database.rowsOf PACKETS_TABLE_NAME).length < 2 ^ 31)
    (hclients : (M.database.rowsOf CLIENTS_TABLE_NAME).length ≤ SQLite.sizeMax)
    (hlen : ∀ e ∈ turns ++ turns', ∀ stats, e.2.reply = some stats →
      (stats.SerializeAsString W.toRuntime).length ≤ maxSize) :
    ∃ (s : Store F) (stats : ServerStatistic F) (now : Int), d = s.toDatabase ∧ clock now
      ∧ Replied (ownTurns a turns') stats now
      ∧ text = Client.statsStr to_string ⟨stats.client.map ServerStatistic.Statistic.received⟩
      ∧ (stats.client.map ServerStatistic.Statistic.uuid).Nodup
      ∧ ∀ i uuid, (roles i).uuid = some uuid → Idle (N.threads i) →
        0 < (N.connections i).up.taken →
        ∃ (sent : List (ClientPacket.Data F)) (stored : ℕ) (packets : List (Packet F)),
          (M.connections i).up.written = sent.map (Client.bytes W)
            ∧ (∀ data ∈ sent, Client.Sends drawn uuid data)
            ∧ (N.connections i).up.taken ≤ stored ∧ stored ≤ (M.connections i).up.taken
            ∧ (packets.map Packet.sample).Perm (s.said uuid.to_string
              ++ (sent.map fun data => data.received.sample).take stored)
            ∧ stats.client.filter (fun entry => entry.uuid = uuid.to_string)
              = (Collecting.entryOf now uuid.to_string packets).toList := by
  obtain ⟨s, hs, howned⟩ := hd.owned
  obtain rfl := (construct_steps hs hboot).2.1 rfl
  have hstart : Network.Satisfies (Kept roles s) (fun i => (roles i).Asserts W drawn False s)
      (Network.start W to_string s.toDatabase roles messages) :=
    Network.satisfies_start hW to_string howned messages
  have hN := hrun.delivers hW hzero hdrawn hroles hstart
  have hM := hrun'.delivers hW hzero hdrawn hroles hN
  have hall := hrun.append hrun'
  have huuids : s.Uuids fun uuid => W.VerifyUTF8 uuid = true := by
    intro c hc
    refine hutf c.cells ?_ c.uuid (List.mem_cons_of_mem _ List.mem_cons_self)
    rw [Store.rowsOf_clients]
    exact List.mem_map_of_mem hc
  obtain ⟨w, hw, hwa, stats, hstats, hshown⟩ := hall.printed hW hM huuids ha htext hlen
  obtain ⟨t, u, after, now, ht, hu, hnow, hreplied, hnodup, hentries, hafter⟩ :=
    hrun.reply_current hrun' hquiet hclients hw hwa hstats
  rw [hu, Store.rowsOf_packets, List.length_map] at hpackets
  refine ⟨s, stats, now, rfl, hnow, hreplied, hshown, hnodup, fun i uuid hi hidle hpos => ?_⟩
  obtain ⟨sent, stored, packets, hwritten, hsent, hmore, hle, hperm, -, hfilter⟩ :=
    hrun'.entry_shown hW hzero hdrawn hroles hN hi hidle hpos ht hpackets hentries hafter
  exact ⟨sent, stored, packets, hwritten, hsent, hmore, hle, hperm, hfilter⟩

end Shown

/-! ## A packet is sent and shown

The statements above have a run as a hypothesis. This is one, from the start of both
programs to the printed text, in which a packet is sent and saved before the question
is asked. -/

/-- A connection over which the question has been sent. -/
def askedConnection : Connection :=
  ⟨Channel.empty.push ((Client.request : ClientPacket Binary64).SerializeAsString
    binary64Writer), .empty, []⟩

/-- Someone asks. -/
theorem exists_asked :
    ∃ (es : List (Event Connection (ClientCmd Binary64) ClientCmd.Resp))
        (k : Except Exc Bytes → ClientProg Binary64 (Option Bytes)),
      Steps (fun x c r x' => Connection.Answers (fun x : Binary64 => x = ⟨1⟩) x c r x') Eq
        (Role.asker.prog binary64Writer fun _ => []) .empty es (.call .read k)
        askedConnection
      ∧ ∀ buffer, k (.ok buffer) = .ret (some (Client.statsStr (fun _ => [])
        (ServerStatistic.ParseFromString binary64Writer.toRuntime buffer).2)) :=
  ⟨_, _, .own rfl ⟨_, .sent 2, rfl⟩ (.done rfl), fun _ => rfl⟩

/-- **The question is read and answered**, while the others wait.

It runs alone here, so the reply is that of one store. Which it is does not
matter for the text to be printed. -/
theorem exists_replied_run {ι : Type} [DecidableEq ι] {N : Network ι Binary64} {i : ι}
    {t : Store Binary64} {id : Int} (hd : N.database = t.toDatabase)
    (hclients : t.clients = [⟨id, firstUuid.to_string⟩])
    (hx : N.connections i = askedConnection)
    (hp : N.threads i = clientThread (ClientPacket.ParseFromString binary64Writer.toRuntime) 1) :
    ∃ (turns : List (Turn ι (Database Binary64) (Cmd Binary64) Cmd.Resp))
        (reply : ServerStatistic Binary64) (x : Connection),
      Network.PlainRun (fun now => now = 0) N turns (N.serve i t.toDatabase x (.ret ()))
        ∧ x.up.taken = 1 ∧ x.down = Channel.empty.push (reply.SerializeAsString
          binary64Writer.toRuntime)
        ∧ (∀ e ∈ turns, ∀ stats, e.2.reply = some stats → stats = reply)
        ∧ (reply.SerializeAsString binary64Writer.toRuntime).length ≤ Reference.maxSize := by
  have hhandle : handleMessage (ClientPacket.ParseFromString binary64Writer.toRuntime)
      ((Client.request : ClientPacket Binary64).SerializeAsString binary64Writer)
      = collectStatistics.bind fun stats => .call (.write stats) .ofExcept := by
    unfold handleMessage
    rw [Client.parse_request binary64Writer_lawful]
    rfl
  have hread : Collecting.clientsRead Engine.reference t = [⟨id, firstUuid.to_string⟩] := by
    show (((t.clients.map Client.cells).map Client.ofCells).take _) = _
    rw [hclients]
    rfl
  obtain ⟨listing, hlisting, -⟩ := Collecting.exists_listing Engine.reference
    (fun now => now = 0) rfl t
  obtain ⟨reading, hreading, -⟩ := Collecting.exists_reading Engine.reference
    (fun now => now = 0) rfl t ⟨id, firstUuid.to_string⟩ [] []
  rw [hread] at hlisting
  generalize hreply : [] ++ (Collecting.entry Engine.reference 0 t
    ⟨id, firstUuid.to_string⟩).toList = entries at hreading
  have hcollect : Steps (storeHandler Engine.reference False (fun now => now = 0)) Eq
      collectStatistics t (listing ++ reading) (.ret ⟨entries⟩) t := hlisting.append hreading
  have hcalls := collect_reads hcollect
  have hthread : Steps (handler (Engine.reference : Engine Binary64) False (fun now => now = 0)) Eq
      (inTry ((handleMessage (ClientPacket.ParseFromString binary64Writer.toRuntime)
        ((Client.request : ClientPacket Binary64).SerializeAsString binary64Writer)).bind fun _ =>
          messageLoop (ClientPacket.ParseFromString binary64Writer.toRuntime) 0)) t.toDatabase
      ((listing ++ reading).map (Event.map Store.toDatabase))
      (inTry ((Prog.call (.write ⟨entries⟩) .ofExcept : ServerProg Binary64 Unit).bind fun _ =>
        messageLoop (ClientPacket.ParseFromString binary64Writer.toRuntime) 0)) t.toDatabase :=
    hhandle ▸ (hcollect.unlift.bind_left.bind_left.tryCatch)
  obtain ⟨turns, hasked, hsilent⟩ := exists_read_run (fun now => now = 0) (n := 0) hx rfl hp
  have hcollected : Network.PlainRun (fun now => now = 0) _ _ _ := Network.Run.thread_alone hthread
    (Network.serve_threads N i _ ⟨⟨[(Client.request :
      ClientPacket Binary64).SerializeAsString binary64Writer], 1⟩, .empty, []⟩ _) hd
    (List.forall_mem_map.mpr fun e he => Or.inr (hcalls e he).1)
  rw [Network.serve_connections, Network.serve_serve] at hcollected
  have hwritten : Network.PlainRun (fun now => now = 0) _ _ _ := .served
    (N := N.serve i t.toDatabase ⟨⟨[(Client.request :
      ClientPacket Binary64).SerializeAsString binary64Writer], 1⟩, .empty, []⟩
      (inTry ((Prog.call (.write ⟨entries⟩) .ofExcept : ServerProg Binary64 Unit).bind fun _ =>
        messageLoop (ClientPacket.ParseFromString binary64Writer.toRuntime) 0)))
    (c := .write ⟨entries⟩) (r := .ok ()) (Network.serve_threads _ _ _ _ _) ⟨nofun, rfl⟩ (by
      rw [Network.serve_connections]
      exact ⟨_, .sent (), rfl⟩) .done
  rw [Network.serve_serve] at hwritten
  refine ⟨_, ⟨entries⟩, _, hasked.append (hcollected.append hwritten), rfl, rfl, ?_, ?_⟩
  · intro e he stats hstats
    simp only [List.mem_append, List.mem_singleton] at he
    rcases he with he | he | rfl
    · rw [hsilent e he] at hstats
      cases hstats
    · obtain ⟨_, hmap, rfl⟩ := List.mem_map.mp he
      obtain ⟨e', he', rfl⟩ := List.mem_map.mp hmap
      rw [show (Event.map Store.toDatabase e').reply = none from
        (e'.reply_map _).trans (hcalls e' he').1.silent.2] at hstats
      cases hstats
    · exact (Option.some.inj hstats).symm
  · subst hreply
    cases hentry : Collecting.entry Engine.reference 0 t ⟨id, firstUuid.to_string⟩ with
    | none => exact Nat.zero_le _
    | some entry =>
      refine ServerStatistic.length_serialize_short ?_
      rw [Collecting.entry_uuid hentry]
      exact firstUuid.length_to_string_le

/-- **A client asks, and prints what it is told.** -/
theorem exists_shown_run {ι : Type} [DecidableEq ι] {N : Network ι Binary64} {i : ι}
    {t : Store Binary64} {id : Int} (hd : N.database = t.toDatabase)
    (hclients : t.clients = [⟨id, firstUuid.to_string⟩]) (hx : N.connections i = .empty)
    (hp : N.threads i = clientThread (ClientPacket.ParseFromString binary64Writer.toRuntime) 1)
    (hq : N.clients i = Role.asker.prog binary64Writer fun _ => []) :
    ∃ (turns : List (Turn ι (Database Binary64) (Cmd Binary64) Cmd.Resp))
        (M : Network ι Binary64) (text : Bytes),
      Network.PlainRun (fun now => now = 0) N turns M
        ∧ M.database = t.toDatabase ∧ M.clients i = .ret (some text)
        ∧ (∀ j ≠ i, M.connections j = N.connections j)
        ∧ ∀ e ∈ turns, ∀ stats, e.2.reply = some stats →
          (stats.SerializeAsString binary64Writer.toRuntime).length ≤ Reference.maxSize := by
  obtain ⟨es, k, hasked, hk⟩ := exists_asked
  have hask : Network.PlainRun (fun now => now = 0) N _ _ := .client_alone hasked hq hx
  obtain ⟨turns, reply, x, hreplied, -, hdown, hreplies, hshort⟩ := exists_replied_run
    (N := N.answer i askedConnection (.call .read k)) hd hclients
    (Network.answer_connections N i _ _) hp
  have hclient : ((N.answer i askedConnection (.call .read k)).serve i t.toDatabase x
      (.ret ())).clients i = .call .read k := Network.answer_clients N i askedConnection _
  have hread : Network.PlainRun (fun now => now = 0) _ _ _ := .answered
    (c := .read) (r := .ok (reply.SerializeAsString binary64Writer.toRuntime)) hclient (by
      rw [Network.serve_connections]
      exact ⟨_, .received (by rw [hdown]; rfl), rfl⟩) .done
  refine ⟨_, _, _, hask.append (hreplied.append hread), rfl,
    (Network.answer_clients _ _ _ _).trans (hk _), fun j hj => ?_, fun e he stats hstats => ?_⟩
  · rw [Network.answer_others _ _ _ hj, Network.serve_others _ _ _ _ hj,
      Network.answer_others _ _ _ hj]
  rw [List.append_nil] at he
  rw [hreplies e he stats hstats]
  exact hshort

/-- A client that sends, and one that asks. -/
def senderAndAsker (i : Bool) : Role := if i then .sender firstUuid 1 else .asker

theorem senderAndAsker_distinct (i j : Bool) (uuid : Uuid)
    (hi : (senderAndAsker i).uuid = some uuid) (hj : (senderAndAsker j).uuid = some uuid) :
    i = j := by
  cases i <;> cases j
  · rfl
  · cases hi
  · cases hj
  · rfl

/-- What was written can only be this packet. -/
theorem received_of_written {sent : List (ClientPacket.Data Binary64)}
    (hsends : ∀ data ∈ sent, Client.Sends (fun x => x = ⟨1⟩) firstUuid data)
    (hwritten : [Client.bytes binary64Writer firstData] = sent.map (Client.bytes binary64Writer)) :
    ∃ data, sent = [data] ∧ data.received = firstData.received := by
  have hfirst : ∀ data ∈ [firstData], Client.Sends (fun x => x = ⟨1⟩) firstUuid data :=
    List.forall_mem_singleton.mpr sends_firstData
  have hreceived := Client.received_of_bytes binary64Writer_lawful hsends hfirst hwritten.symm
  obtain ⟨data, rfl⟩ : ∃ data, sent = [data] :=
    List.length_eq_one_iff.mp (by simpa using (congrArg List.length hwritten).symm)
  exact ⟨data, rfl, (List.cons.inj hreceived).1⟩

/-- **One client sends a packet that is saved, and then another asks.**

The run is cut where the packet has been saved and the asker has done nothing
yet. -/
theorem exists_shown_runs :
    ∃ (turns turns' : List (Turn Bool (Database Binary64) (Cmd Binary64) Cmd.Resp))
        (N M : Network Bool Binary64) (text : Bytes),
      Network.PlainRun (fun now => now = 0) (Network.start binary64Writer (fun _ => [])
          Store.empty.toDatabase senderAndAsker fun _ => 1) turns N
        ∧ Network.PlainRun (fun now => now = 0) N turns' M
        ∧ N.connections false = .empty ∧ N.threads true = .ret ()
        ∧ N.connections true = ⟨⟨[Client.bytes binary64Writer firstData], 1⟩, .empty,
          [-50000000, 0, 0]⟩
        ∧ M.clients false = .ret (some text) ∧ M.connections true = N.connections true
        ∧ (M.database.rowsOf PACKETS_TABLE_NAME).length < 2 ^ 31
        ∧ (M.database.rowsOf CLIENTS_TABLE_NAME).length ≤ SQLite.sizeMax
        ∧ ∀ e ∈ turns ++ turns', ∀ stats, e.2.reply = some stats →
          (stats.SerializeAsString binary64Writer.toRuntime).length ≤ Reference.maxSize := by
  obtain ⟨es, q, hsent⟩ := exists_sent
  have hclient := Network.Run.client_alone
    (H := handler (Engine.reference : Engine Binary64) False (fun now => now = 0))
    (W := binary64Writer) (i := true) (N := Network.start binary64Writer (fun _ => [])
      Store.empty.toDatabase senderAndAsker fun _ => 1) hsent rfl rfl
  obtain ⟨es', t, id, packetId, hsave, hclients, hpackets⟩ := Saving.exists_first
    (Engine.reference : Engine Binary64) (show ∃ now, (fun now : Int => now = 0) now from ⟨0, rfl⟩)
    firstData.received (by decide) (by decide)
  rw [sends_firstData.cstr_received] at hclients
  obtain ⟨turns, hsaved, hsilent⟩ := exists_saved_run (fun now => now = 0) (i := true) (n := 0)
    (x := ⟨⟨[Client.bytes binary64Writer firstData], 0⟩, .empty, [-50000000, 0, 0]⟩)
    hsave sends_firstData (N := (Network.start binary64Writer (fun _ => [])
      Store.empty.toDatabase senderAndAsker fun _ => 1).answer true _ q) rfl
    (Network.answer_connections _ _ _ _) rfl rfl
  have hrun := hclient.append hsaved
  generalize hN : Network.serve _ true t.toDatabase _ _ = N at hrun
  have hquiet : N.connections false = .empty := hN ▸ rfl
  obtain ⟨turns', M, text, hrun', hd, htext, hothers, hshort⟩ := exists_shown_run (i := false)
    (hN ▸ rfl) hclients hquiet (hN ▸ rfl) (hN ▸ rfl)
  refine ⟨_, turns', N, M, text, hrun, hrun', hquiet, hN ▸ Network.serve_threads _ _ _ _ _,
    hN ▸ Network.serve_connections _ _ _ _ _, htext, hothers true (Ne.symm Bool.false_ne_true),
    ?_, ?_, fun e he stats hstats => (List.mem_append.mp he).elim
      (fun he => nomatch (hsilent e he).symm.trans hstats) fun he => hshort e he stats hstats⟩
  · rw [hd, Store.rowsOf_packets, List.length_map, hpackets, List.length_singleton]
    decide
  · rw [hd, Store.rowsOf_clients, List.length_map, hclients, List.length_singleton]
    decide

/-- In particular, what one client has sent is shown to another. -/
theorem statistics_shown_one :
    ∃ (turns turns' : List (Turn Bool (Database Binary64) (Cmd Binary64) Cmd.Resp))
        (N M : Network Bool Binary64) (stats : ServerStatistic Binary64)
        (entry : ServerStatistic.Statistic Binary64),
      Network.PlainRun (fun now => now = 0) (Network.start binary64Writer (fun _ => [])
          Store.empty.toDatabase senderAndAsker fun _ => 1) turns N
        ∧ Network.PlainRun (fun now => now = 0) N turns' M
        ∧ M.clients false = .ret (some (Client.statsStr (fun _ => [])
          ⟨stats.client.map ServerStatistic.Statistic.received⟩))
        ∧ Replied (ownTurns false turns') stats 0
        ∧ stats.client.filter (fun entry => entry.uuid = firstUuid.to_string) = [entry] := by
  obtain ⟨turns, turns', N, M, text, hrun, hrun', hquiet, hidle, hsender, htext, hsame, hpackets,
    hclients, hshort⟩ := exists_shown_runs
  obtain ⟨boot, hboot⟩ := exists_construct (Engine.reference : Engine Binary64) True
    (fun _ => True) (show Database.Holds [] Store.empty from Or.inr ⟨rfl, Or.inl rfl⟩)
  obtain ⟨s, stats, now, hs, rfl, hreplied, rfl, -, hentries⟩ := statistics_shown (a := false)
    binary64Writer_lawful (by decide) (by rintro _ rfl; decide) senderAndAsker_distinct .fresh
    hboot (fun row hrow => nomatch hrow) hrun (hquiet ▸ rfl) hrun' rfl htext hpackets hclients
    hshort
  obtain rfl := Store.toDatabase_injective hs
  obtain ⟨sent, stored, packets, hwritten, hsends, hle, hle', hperm, hfilter⟩ :=
    hentries true firstUuid rfl (Or.inr (Or.inr hidle)) (by rw [hsender]; exact one_pos)
  -- the packet that had been read is in the reply
  rw [hsame, hsender] at hwritten hle'
  rw [hsender] at hle
  obtain rfl : stored = 1 := Nat.le_antisymm hle' hle
  obtain ⟨data, rfl, hreceived⟩ := received_of_written hsends hwritten
  have hperm : (packets.map Packet.sample).Perm [data.received.sample] := hperm
  rw [hreceived] at hperm
  obtain ⟨p, rfl⟩ := List.length_eq_one_iff.mp
    ((List.length_map _).symm.trans hperm.length_eq)
  have htime : p.timestamp = 0 := congrArg Sample.timestamp
    (List.cons.inj (List.perm_singleton.mp hperm)).1
  have hentry : Collecting.entryOf 0 firstUuid.to_string [p] ≠ none := by
    obtain ⟨packetId, clientId, timestamp, x, y⟩ := p
    obtain rfl : timestamp = 0 := htime
    exact Option.some_ne_none _
  obtain ⟨entry, hentry⟩ := Option.ne_none_iff_exists'.mp hentry
  rw [hentry] at hfilter
  exact ⟨_, turns', N, M, stats, entry, hrun, hrun', htext, hreplied, hfilter⟩
