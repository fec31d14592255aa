import TZ.Generated
import TZ.Replies

/-!
# Messages that are turned down

The thread of a connection discards what `ParseFromString` returns, and acts
on the message it leaves: a message that is turned down is handled by the
fields that were read before the failure. A type that was never read is
`DATA`, and `data` is there from the moment its tag has been read.

So a message that is turned down has an effect whenever what is left of it
asks for one. Which messages ask for none is `ClientPacket.Idle`, and this is
exact (`rejected_ignored_iff`): whatever else happens on the server, and
whichever calls fail, handling such a message changes nothing and sends
nothing, and any other message has an effect if it is handled by itself and no
call fails.

To find the exact condition, the question is turned around: which packets have no effect
at all? Neither being accepted nor being well-formed has anything to do with it, because
the server does not ask. A packet without data has none, and one of an unknown type. And
there is one more kind, which is easily overlooked: a packet with a NaN, from a client
that is registered already. Its save makes two calls and throws, and nothing has
changed.
-/

open Server

variable {F : Type} [Double F] {E : Engine F} {faulty : Prop} {clock : Int → Prop}

/-! ## Messages that ask for nothing -/

/-- A call that changes nothing and sends nothing. -/
def Event.Harmless {σ F : Type} (e : Event σ (Cmd F) Cmd.Resp) : Prop :=
  e.post = e.pre ∧ e.reply = none

omit [Double F] in
theorem Event.Harmless.map {σ τ : Type} {f : τ → σ} {e : Event τ (Cmd F) Cmd.Resp}
    (h : e.Harmless) : (e.map f).Harmless :=
  ⟨congrArg f h.1, (e.reply_map f).trans h.2⟩

/-- **Handling a message has no effect**, whatever others do in between.

Of no run any call has one. That is more than that the message by itself has
none, for the steps of the others may be anything that takes nothing away. -/
def Ignored (E : Engine F) (faulty : Prop) (ParseFromString : Bytes → Bool × ClientPacket F)
    (s : Store F) (buffer : Bytes) : Prop :=
  ∀ es q t, Steps (storeHandler E faulty (fun _ => True)) Store.Grows
    (handleMessage ParseFromString buffer) s es q t → ∀ e ∈ es, e.Harmless

/-- **A message that asks for nothing**: it is not a request for statistics, and
if it is of type `DATA` it has no data, or its client is registered already
and a coordinate is a NaN, which the table of packets turns down.

It depends on the store, through the clients that are registered, and
otherwise on what the parser has left. -/
def ClientPacket.Idle (packet : ClientPacket F) (s : Store F) : Prop :=
  packet.type ≠ STATISTICS
    ∧ (packet.type = DATA → ∀ data, packet.data = some data →
      s.find (cstr data.uuid) ≠ none
        ∧ (Double.isNaN data.x || Double.isNaN data.y) = true)

/-- A save of a registered client and a NaN changes nothing. -/
theorem Saving.Step.unchanged {data : ClientPacket.Data F} {phase phase' : Saving.Phase}
    {s s' : Store F} (h : Saving.Step faulty data phase s phase' s')
    (hfind : s.find (cstr data.uuid) ≠ none)
    (hnan : (Double.isNaN data.x || Double.isNaN data.y) = true) : s' = s := by
  cases h with
  | registered hnone _ => exact absurd hnone hfind
  | stored hx hy _ =>
    rw [hx, hy] at hnan
    cases hnan
  | _ => rfl

/-- Nor does a whole save, among whatever others. -/
theorem Saving.steps_unchanged {data : ClientPacket.Data F} {phase : Saving.Phase}
    {s t : Store F} {q : ServerProg F Unit} {es : List (Event (Store F) (Cmd F) Cmd.Resp)}
    (h : Steps (storeHandler E faulty clock) Store.Grows (phase.prog data) s es q t)
    (hfind : s.find (cstr data.uuid) ≠ none)
    (hnan : (Double.isNaN data.x || Double.isNaN data.y) = true) :
    ∀ e ∈ es, e.post = e.pre := by
  generalize hp : phase.prog data = p at h
  induction h generalizing phase with
  | done _ => exact List.forall_mem_nil _
  | @own c k s s₁ s₂ t r es q hr hc rest ih =>
    obtain ⟨phase', hk, hstep⟩ := Saving.step hp hc
    have hfind₁ : s₁.find (cstr data.uuid) ≠ none := by
      obtain ⟨c, hc⟩ := Option.ne_none_iff_exists'.mp hfind
      rw [hr.find hc]
      exact Option.some_ne_none c
    have hsame := hstep.unchanged hfind₁ hnan
    exact List.forall_mem_cons.mpr ⟨hsame, ih (hsame ▸ hfind₁) hk.symm⟩

/-- **A message that asks for nothing gets nothing.** -/
theorem ClientPacket.Idle.harmless {packet : ClientPacket F} {s t : Store F}
    (hidle : packet.Idle s) {q : ServerProg F Unit}
    {es : List (Event (Store F) (Cmd F) Cmd.Resp)}
    (h : Steps (storeHandler E faulty clock) Store.Grows (handlePacket packet) s es q t) :
    ∀ e ∈ es, e.Harmless := by
  obtain ⟨hstats, hdata⟩ := hidle
  unfold handlePacket at h
  split_ifs at h with htype
  · obtain ⟨type, data⟩ := packet
    cases data with
    | none =>
      obtain ⟨rfl, -, -⟩ := h.ret_inv
      exact List.forall_mem_nil _
    | some data =>
      obtain ⟨hfind, hnan⟩ := hdata htype data rfl
      have hsilent := save_silent h
      rw [Saving.saveClientPacket_eq] at h
      have hsame := Saving.steps_unchanged h hfind hnan
      exact fun e he => ⟨hsame e he, (hsilent e he).2⟩
  · obtain ⟨rfl, -, -⟩ := h.ret_inv
    exact List.forall_mem_nil _

/-! ## Messages that ask for something

For the other direction a run has to be given in which there is an effect. It is the
one in which the message is handled by itself and nothing fails. -/

/-- A run by itself that changes the store has an event that does. -/
theorem exists_change {p q : ServerProg F Unit} {s t : Store F}
    {es : List (Event (Store F) (Cmd F) Cmd.Resp)}
    (h : Steps (storeHandler E faulty clock) Eq p s es q t) (hst : t ≠ s) :
    ∃ e ∈ es, ¬ e.Harmless := by
  by_contra hall
  push Not at hall
  exact hst (h.ordered (G := Eq) (fun _ _ h => h) fun e he => (hall e he).1.symm).1.symm

/-- **Any other message has an effect**, if it is handled by itself and no call
fails. -/
theorem ClientPacket.exists_effect (E : Engine F) (hclock : ∃ n, clock n)
    {packet : ClientPacket F} {s : Store F} (hidle : ¬ packet.Idle s) :
    ∃ es q t, Steps (storeHandler E False clock) Eq (handlePacket packet) s es q t
      ∧ ∃ e ∈ es, ¬ e.Harmless := by
  unfold handlePacket
  by_cases htype : packet.type = DATA
  · obtain ⟨type, data⟩ := packet
    cases data with
    | none =>
      refine absurd ⟨fun h => ?_, fun _ data h => ?_⟩ hidle
      · exact absurd (htype.symm.trans h) (by decide)
      · cases h
    | some data =>
      obtain ⟨es, q, t, m, clientId, hrun, hfind, hm, hend⟩ :=
        Saving.exists_alone E hclock s data
      rw [if_pos htype, Saving.saveClientPacket_eq]
      refine ⟨es, q, t, hrun, exists_change hrun ?_⟩
      rintro rfl
      refine hidle ⟨fun h => absurd (htype.symm.trans h) (by decide), fun _ data' hdata => ?_⟩
      cases hdata
      by_cases hnan : (Double.isNaN data.x || Double.isNaN data.y) = true
      · rw [if_pos hnan] at hend
        obtain ⟨rfl, -⟩ := hend
        exact ⟨by rw [hfind]; exact Option.some_ne_none _, hnan⟩
      · -- a row more than before is not what was before
        rw [if_neg hnan] at hend
        obtain ⟨-, id, -, hps⟩ := hend
        rcases hm with rfl | ⟨-, id', -, hps'⟩
        · exact absurd (congrArg List.length hps) (by simp)
        · rw [hps'] at hps
          exact absurd (congrArg List.length hps) (by simp)
  · rw [if_neg htype]
    by_cases hstats : packet.type = STATISTICS
    · rw [if_pos hstats]
      obtain ⟨es, q, t, hcollect, hend⟩ := exists_run E False hclock
        (Job.reads_conforms Collecting.collectStatistics_reads) s
      obtain ⟨r, rfl⟩ := hend.resolve_right fun ⟨ex, hq⟩ =>
        Collecting.steps_ne_throw hcollect ex hq
      have hwrite : Steps (storeHandler E False clock) Eq
          (Prog.call (.write r) .ofExcept : ServerProg F Unit) t
          [⟨t, .write r, .ok (), t⟩] (.ret ()) t :=
        .own rfl ⟨nofun, rfl⟩ (.done rfl)
      refine ⟨_, _, _, hcollect.bind hwrite, ⟨t, .write r, .ok (), t⟩,
        List.mem_append_right _ List.mem_cons_self, ?_⟩
      rintro ⟨-, hreply⟩
      cases hreply
    · exact absurd ⟨hstats, fun h => absurd h htype⟩ hidle

/-- **Handling a message has no effect exactly when it asks for none.**

Both directions meet here: no run has an effect, or there is one that does. -/
theorem ignored_iff (E : Engine F) (faulty : Prop)
    (ParseFromString : Bytes → Bool × ClientPacket F) (s : Store F) (buffer : Bytes) :
    Ignored E faulty ParseFromString s buffer ↔ (ParseFromString buffer).2.Idle s := by
  constructor
  · intro hignored
    by_contra hidle
    obtain ⟨es, q, t, hrun, e, he, heffect⟩ := ClientPacket.exists_effect E
      (show ∃ n, (fun _ : Int => True) n from ⟨0, trivial⟩) hidle
    have hrun : Steps (storeHandler E faulty (fun _ => True)) Store.Grows
        (handleMessage ParseFromString buffer) s es q t :=
      hrun.mono (fun _ _ _ _ h => handler_mono (fun h => h.elim) (fun _ h => h) h)
        fun s t (h : s = t) => h ▸ Store.Grows.refl s
    exact heffect (hignored es q t hrun e he)
  · intro hidle es q t hrun
    exact hidle.harmless hrun

/-! ## The messages of a run

What has been said of one message is to be said of the messages of a server. Each is
handled between two looks at the flag, and these calls are a run of `handleMessage`,
among the turns of the others. -/

/-- **The databases a server comes to**, over any number of starts: a process
sets its tables up and runs a thread for every connection, and dies between
any two of its calls, any of which may fail. Every message its connections
deliver is one of `Received`.

The set of messages is a parameter, so that a condition on all messages there
have ever been can be stated (`TZ.Readable`). -/
inductive Reached (E : Engine F) (ParseFromString : Bytes → Bool × ClientPacket F)
    (Received : Bytes → Prop) : Database F → Prop
  /-- No process has used the file. -/
  | fresh : Reached E ParseFromString Received []
  /-- A process died, or threw, while it set its tables up. -/
  | started {d d' : Database F} {boot : List (Event (Database F) (Cmd F) Cmd.Resp)}
      {q : ServerProg F Unit} (h : Reached E ParseFromString Received d)
      (hboot : Steps (handler E True (fun _ => True)) Eq construct d boot q d') :
      Reached E ParseFromString Received d'
  /-- A process died while it served. -/
  | served {d m d' : Database F} {boot : List (Event (Database F) (Cmd F) Cmd.Resp)}
      {messages : ℕ → ℕ} {turns : List (Turn ℕ (Database F) (Cmd F) Cmd.Resp)}
      {left : ℕ → ServerProg F Unit} (h : Reached E ParseFromString Received d)
      (hboot : Steps (handler E True (fun _ => True)) Eq construct d boot (.ret ()) m)
      (hrun : Interleaved (handler E True (fun _ => True))
        (fun i => clientThread ParseFromString (messages i)) m turns left d')
      (hreceived : ∀ e ∈ turns, ∀ buffer, e.2.message = some buffer → Received buffer) :
      Reached E ParseFromString Received d'

theorem Reached.holds {ParseFromString : Bytes → Bool × ClientPacket F}
    {Received : Bytes → Prop} {d : Database F} (h : Reached E ParseFromString Received d) :
    ∃ s : Store F, d.Holds s := by
  induction h with
  | fresh => exact ⟨Store.empty, Or.inr ⟨rfl, Or.inl rfl⟩⟩
  | started _ hboot ih =>
    obtain ⟨s, hs⟩ := ih
    exact ⟨s, (construct_steps hs hboot).1⟩
  | served _ hboot hrun _ ih =>
    obtain ⟨s, hs⟩ := ih
    obtain rfl := (construct_steps hs hboot).2.1 rfl
    obtain ⟨t, -, rfl, -⟩ := interleaved_grows (fun i => clientThread_conforms _ _) hrun
    exact ⟨t, Or.inl rfl⟩

/-- **A connection handles a message**: among the turns of a server it reads the
message in the database `d`, and these are the calls it makes until it next
asks whether to end. -/
def Handles (turns : List (Turn ℕ (Database F) (Cmd F) Cmd.Resp)) (i : ℕ) (d : Database F)
    (buffer : Bytes) (during : List (Event (Database F) (Cmd F) Cmd.Resp)) : Prop :=
  ∃ before e between after, turns = before ++ (i, e) :: (between ++ after) ∧ e.pre = d
    ∧ e.message = some buffer ∧ during = ownTurns i between ∧ ∀ e ∈ during, e.cmd ≠ .needExit

section Loop

variable {ParseFromString : Bytes → Bool × ClientPacket F} {s t : Store F}
  {q : ServerProg F Unit} {buffer : Bytes}
  {before during after : List (Event (Store F) (Cmd F) Cmd.Resp)}
  {e : Event (Store F) (Cmd F) Cmd.Resp}

/-- Handling a message reads no other. -/
theorem handleMessage_reads {es : List (Event (Store F) (Cmd F) Cmd.Resp)}
    (h : Steps (storeHandler E faulty clock) Store.Grows (handleMessage ParseFromString buffer)
      s es q t) : ∀ e ∈ es, e.message = none := by
  unfold handleMessage handlePacket at h
  dsimp only at h
  split_ifs at h
  · exact fun e he => (save_silent h e he).1
  · rcases h.bind_inv with ⟨p', -, -, hcollect⟩ | ⟨r, es₁, es₂, m, rfl, hcollect, hwrite⟩
    · exact fun e he => (collect_reads hcollect e he).1.silent.1
    · refine List.forall_mem_append.mpr
        ⟨fun e he => (collect_reads hcollect e he).1.silent.1, ?_⟩
      rcases Steps.call_inv hwrite with ⟨rfl, -, -⟩ | ⟨s₁, w, s₂, es', rfl, -, -, hend⟩
      · exact List.forall_mem_nil _
      · have hend : es' = [] := by
          cases w with
          | ok u => exact (Steps.ret_inv hend).1
          | error ex => exact (Steps.throw_inv hend).1
        rw [hend]
        exact fun e he => (List.mem_singleton.mp he) ▸ rfl
  · obtain ⟨rfl, -, -⟩ := h.ret_inv
    exact List.forall_mem_nil _

/-- After a message the loop asks whether to end. -/
theorem messageLoop_head {n : ℕ} {es : List (Event (Store F) (Cmd F) Cmd.Resp)}
    (h : Steps (storeHandler E faulty clock) Store.Grows (messageLoop ParseFromString n) s es q
      t) (hes : ∀ e ∈ es, e.cmd ≠ .needExit) : es = [] := by
  cases n with
  | zero => exact h.ret_inv.1
  | succ n =>
    rcases Steps.call_inv h with ⟨rfl, -, -⟩ | ⟨s₁, r, s₂, es', rfl, -, -, -⟩
    · rfl
    · exact absurd rfl (hes _ List.mem_cons_self)

/-- **The calls of the loop after it has read a message** are those of handling
it, until it asks whether to end. -/
theorem messageLoop_handles {n : ℕ}
    (h : Steps (storeHandler E faulty clock) Store.Grows (messageLoop ParseFromString n) s
      (before ++ e :: (during ++ after)) q t) (he : e.message = some buffer)
    (hduring : ∀ e ∈ during, e.cmd ≠ .needExit) :
    ∃ q' m, Steps (storeHandler E faulty clock) Store.Grows
      (handleMessage ParseFromString buffer) e.post during q' m := by
  induction n generalizing s before with
  | zero =>
    obtain ⟨hnil, -, -⟩ := h.ret_inv
    cases before <;> cases hnil
  | succ n ih =>
    obtain ⟨hnil, -, -⟩ | ⟨s₁, needExit, s₂, es, hes, -, -, h⟩ := Steps.call_inv h
    · cases before <;> cases hnil
    cases before with
    | nil =>
      cases hes
      cases he
    | cons x before =>
      obtain ⟨-, rfl⟩ := List.cons.inj hes
      cases needExit with
      | true =>
        obtain ⟨hnil, -, -⟩ := Steps.ret_inv h
        cases before <;> cases hnil
      | false =>
        obtain ⟨hnil, -, -⟩ | ⟨s₃, r, s₄, es, hes, -, -, h⟩ := Steps.call_inv h
        · cases before <;> cases hnil
        cases before with
        | nil =>
          -- this is the message
          cases hes
          cases r with
          | error ex => cases he
          | ok b =>
            cases he
            have h : Steps _ _ ((handleMessage ParseFromString buffer).bind fun _ =>
              messageLoop ParseFromString n) s₄ (during ++ after) q t := h
            obtain ⟨q', m, hcut, -⟩ := h.split
            rcases hcut.bind_inv with ⟨p', -, -, hrun⟩ | ⟨u, es₁, es₂, m', rfl, hrun, hnext⟩
            · exact ⟨p', m, hrun⟩
            · obtain rfl := messageLoop_head hnext
                fun e he => hduring e (List.mem_append_right _ he)
              rw [List.append_nil]
              exact ⟨_, m', hrun⟩
        | cons y before =>
          obtain ⟨-, rfl⟩ := List.cons.inj hes
          cases r with
          | error ex =>
            obtain ⟨hnil, -, -⟩ := Steps.throw_inv h
            cases before <;> cases hnil
          | ok b =>
            -- an earlier message is handled first, without reading this one
            have h : Steps _ _ ((handleMessage ParseFromString b).bind fun _ =>
              messageLoop ParseFromString n) s₄ (before ++ e :: (during ++ after)) q t := h
            have hnot : ∀ {es q' m}, Steps (storeHandler E faulty clock) Store.Grows
                (handleMessage ParseFromString b) s₄ es q' m → e ∉ es := by
              intro es q' m hrun hmem
              rw [handleMessage_reads hrun e hmem] at he
              cases he
            rcases h.bind_inv with ⟨p', -, -, hrun⟩ | ⟨u, es₁, es₂, m, hsplit, hrun, hnext⟩
            · exact absurd (List.mem_append_right _ List.mem_cons_self) (hnot hrun)
            · rcases List.append_eq_append_iff.mp hsplit with ⟨c, rfl, hc⟩ | ⟨c, rfl, hc⟩
              · cases c with
                | nil =>
                  have hc : [] ++ e :: (during ++ after) = es₂ := hc
                  exact ih (hc ▸ hnext)
                | cons x c =>
                  obtain ⟨rfl, -⟩ := List.cons.inj hc
                  exact absurd (List.mem_append_right _ List.mem_cons_self) (hnot hrun)
              · exact ih (hc ▸ hnext)

/-- So are those of a thread. -/
theorem clientThread_handles {n : ℕ}
    (h : Steps (storeHandler E faulty clock) Store.Grows (clientThread ParseFromString n) s
      (before ++ e :: (during ++ after)) q t) (he : e.message = some buffer)
    (hduring : ∀ e ∈ during, e.cmd ≠ .needExit) :
    ∃ q' m, Steps (storeHandler E faulty clock) Store.Grows
      (handleMessage ParseFromString buffer) e.post during q' m := by
  unfold clientThread Prog.catchStd at h
  rcases h.tryCatch_inv with ⟨p', -, hrun⟩ | ⟨ex, es₁, es₂, m, hsplit, hrun, hcatch⟩
  · exact messageLoop_handles hrun he hduring
  · -- the handler of the exception makes no call
    have hnil : es₂ = [] := by
      cases ex with
      | nullString => exact hcatch.throw_inv.1
      | _ => exact hcatch.ret_inv.1
    rw [hnil, List.append_nil] at hsplit
    exact messageLoop_handles (hsplit ▸ hrun) he hduring

end Loop

/-- **Every message of a run is handled as `handleMessage` does**, among whatever
the other connections do. -/
theorem handles_steps {ParseFromString : Bytes → Bool × ClientPacket F} {messages : ℕ → ℕ}
    {s : Store F} {turns : List (Turn ℕ (Database F) (Cmd F) Cmd.Resp)}
    {left : ℕ → ServerProg F Unit} {d d' : Database F}
    (h : Interleaved (handler E faulty clock)
      (fun i => clientThread ParseFromString (messages i)) s.toDatabase turns left d')
    {i : ℕ} {buffer : Bytes} {during : List (Event (Database F) (Cmd F) Cmd.Resp)}
    (hi : Handles turns i d buffer during) :
    ∃ (u : Store F) (es : List (Event (Store F) (Cmd F) Cmd.Resp)) (q : ServerProg F Unit)
      (t : Store F), d = u.toDatabase ∧ during = es.map (Event.map Store.toDatabase)
        ∧ Steps (storeHandler E faulty clock) Store.Grows
          (handleMessage ParseFromString buffer) u es q t := by
  obtain ⟨t, turns', rfl, rfl, hrun, hturns⟩ :=
    interleaved_grows (fun i => clientThread_conforms _ _) h
  obtain ⟨before, e, between, after, hsplit, rfl, he, rfl, hduring⟩ := hi
  obtain ⟨before', rest, rfl, rfl, hrest⟩ := List.map_eq_append_iff.mp hsplit
  obtain ⟨⟨j, e'⟩, rest, rfl, he', hrest⟩ := List.map_eq_cons_iff.mp hrest
  obtain ⟨between', after', rfl, rfl, rfl⟩ := List.map_eq_append_iff.mp hrest
  obtain ⟨rfl, rfl⟩ := Prod.mk.inj he'
  have hown := hrun.project (i := j) fun e he _ => (hturns e he).1
  rw [ownTurns_append, ownTurns_cons_self, ownTurns_append] at hown
  rw [Interleaved.ownTurns_mapTurn] at hduring ⊢
  have he : e'.message = some buffer := (e'.message_map Store.toDatabase).symm.trans he
  obtain ⟨q, m, hhandle⟩ := clientThread_handles hown he
    fun e he => hduring _ (List.mem_map_of_mem he)
  -- reading a message changes nothing
  have hpost : e'.post = e'.pre := by
    have hc := hown.handled e' (List.mem_append_right _ List.mem_cons_self)
    obtain ⟨pre, cmd, resp, post⟩ := e'
    cases cmd with
    | read => exact Store.toDatabase_injective hc.2
    | _ => cases he
  exact ⟨e'.pre, _, q, m, rfl, rfl, hpost ▸ hhandle⟩

/-! ## Messages that are turned down -/

/-- **A message that is turned down has no effect exactly when what is left of
it asks for none.** Whatever the runtime leaves of a message it turns down,
and in whichever store it arrives: handling it has no effect, whatever others
do and whichever calls fail, if and only if it is idle; and so, in every run
of a server, no message that is turned down and idle has an effect.

Whether the message was turned down does not occur in the condition. This is
the finding: the result of the parse makes no difference. -/
theorem rejected_ignored_iff (E : Engine F) (R : Protobuf.Runtime F) :
    (∀ (faulty : Prop) (s : Store F) (buffer : Bytes),
      ((ClientPacket.ParseFromString R buffer).1 = false →
          Ignored E faulty (ClientPacket.ParseFromString R) s buffer)
        ↔ ((ClientPacket.ParseFromString R buffer).1 = false →
          (ClientPacket.ParseFromString R buffer).2.Idle s))
    ∧ ∀ (d m d' : Database F) (boot : List (Event (Database F) (Cmd F) Cmd.Resp))
        (messages : ℕ → ℕ) (turns : List (Turn ℕ (Database F) (Cmd F) Cmd.Resp))
        (left : ℕ → ServerProg F Unit),
      Reached E (ClientPacket.ParseFromString R) (fun _ => True) d →
      Steps (handler E True (fun _ => True)) Eq construct d boot (.ret ()) m →
      Interleaved (handler E True (fun _ => True))
        (fun i => clientThread (ClientPacket.ParseFromString R) (messages i)) m turns left d' →
      ∀ i u buffer during, Handles turns i u buffer during →
        (ClientPacket.ParseFromString R buffer).1 = false →
        ∃ s : Store F, u = s.toDatabase
          ∧ ((ClientPacket.ParseFromString R buffer).2.Idle s → ∀ e ∈ during, e.Harmless) := by
  refine ⟨fun faulty s buffer => ?_, ?_⟩
  · exact imp_congr_right fun _ => ignored_iff E faulty _ s buffer
  · intro d m d' boot messages turns left hd hboot hrun i u buffer during hhandles _
    obtain ⟨s₀, hs₀⟩ := hd.holds
    obtain rfl := (construct_steps hs₀ hboot).2.1 rfl
    obtain ⟨s, es, q, t, rfl, rfl, hsteps⟩ := handles_steps hrun hhandles
    exact ⟨s, rfl, fun hidle => List.forall_mem_map.mpr fun e he =>
      (hidle.harmless hsteps e he).map⟩

/-- A message with a `uuid` that is not UTF-8. -/
def rejectedBytes : Bytes := [0x12, 3, 0x0a, 1, 0xff]

theorem parse_rejectedBytes : ClientPacket.ParseFromString binary64 rejectedBytes
    = (false, ⟨0, some ⟨[0xff], 0, ⟨0⟩, ⟨0⟩⟩⟩) := by
  decide +kernel

/-- **A message that is turned down is stored.** Its `data` is there when its
`uuid` is found not to be UTF-8, and so are a client and a packet. -/
theorem rejected_stored :
    (ClientPacket.ParseFromString binary64 rejectedBytes).1 = false
      ∧ ∃ es, ∃ t : Store Binary64,
        Steps (handler (Engine.reference : Engine Binary64) False (fun _ => True)) Eq
          (handleMessage (ClientPacket.ParseFromString binary64) rejectedBytes)
          Store.empty.toDatabase es (.ret ()) t.toDatabase
        ∧ t.find [0xff] ≠ none ∧ t.packets ≠ [] := by
  obtain ⟨es, t, id, packetId, hrun, hcs, hps⟩ := Saving.exists_first
    (Engine.reference : Engine Binary64)
    (show ∃ n, (fun _ : Int => True) n from ⟨0, trivial⟩) ⟨[0xff], 0, ⟨0⟩, ⟨0⟩⟩
    (show Double.isNaN (⟨0⟩ : Binary64) = false by decide)
    (show Double.isNaN (⟨0⟩ : Binary64) = false by decide)
  have hhandle : handleMessage (ClientPacket.ParseFromString binary64) rejectedBytes
      = Saving.Phase.looking.prog ⟨[0xff], 0, ⟨0⟩, ⟨0⟩⟩ := by
    unfold handleMessage
    rw [parse_rejectedBytes]
    exact Saving.saveClientPacket_eq _ 0
  refine ⟨congrArg Prod.fst parse_rejectedBytes, _, t, hhandle ▸ hrun.unlift, ?_, ?_⟩
  · rw [Store.find, hcs]
    exact Option.some_ne_none (⟨id, cstr [0xff]⟩ : Client)
  · rw [hps]
    exact List.cons_ne_nil _ _
