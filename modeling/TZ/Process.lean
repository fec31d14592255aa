import TZ.Lifecycle

/-!
# What holds of every process

From its start to its end, whatever the order of the moves: the main thread
keeps to its protocol, so no thread outlives the connection to the database
(`Process.threads_end_first`); a thread looks at the flag before every message,
so a server that is stopped handles at most one more of each client
(`Process.stopped_reads`); and what the process does to the file is what its
threads do, side by side, once the tables are set up (`Process.reached`). The
last is what the family of threads that the other modules are about stands for.

The other modules are about threads that run side by side from a given file. The program
is a process: a main thread that opens the file, sets the tables up, creates threads one
by one while the earlier ones are already at work, and joins them when it has been told
to stop. Every statement about the family of threads would be about something else if
the process did not come down to it. That it does is what `Stage` says, and it is an
invariant like the others; it has to be strong enough to hold before there are any
threads.

The moves of a process are those of the main thread and those of threads that have been
created and have not ended, in any order, and the flag may be set between any two. What
the main thread may do next is the state of an automaton that only reads its calls
(`TZ.Lifecycle`), so nothing here depends on the text of `main`.
-/

open Server

variable {F : Type}

/-! ## What the flag pays for

That a stopped server reads at most one more message is not a statement about a state,
since the thread may be anywhere in its loop when the flag is set. It is one about
accounts: a look at the flag that shows it unset pays for one message, a message uses
this up, and when the flag is set no look pays any more. A thread that has looked just
before is the one that still reads one. -/

namespace Server

/-- **A look at the flag pays for one message.** The state is whether a look has
been taken that was not used yet. -/
def tokens : Automaton Bool (Cmd F) Cmd.Resp where
  allows token c := match c with
    | .read => token = true
    | _ => True
  next token c r token' := match c, r with
    | .needExit, needExit => token' = !needExit
    | .read, _ => token' = false
    | _, _ => token' = token

/-- The calls that handle a message. -/
def Handling : Cmd F → Prop
  | .needExit => False
  | .read => False
  | _ => True

/-- Every answer moves the state. -/
theorem exists_next (token : Bool) {c : Cmd F} (r : c.Resp) :
    ∃ token', tokens.next token c r token' := by
  cases c <;> exact ⟨_, rfl⟩

/-- A program that makes no other calls keeps the token.

Handling a message takes any number of calls, none of which looks at the flag
or reads. -/
theorem follows_tokens {α : Type} {p : ServerProg F α} {Q : α → Prop} (token : Bool)
    (h : p.Conforms Handling (fun _ _ => True) Q) :
    p.Follows tokens (fun token' _ => token' = token) token := by
  induction p with
  | ret a => rfl
  | throw ex => rfl
  | call c k ih =>
    obtain ⟨hc, hk⟩ := h
    cases c with
    | needExit => exact hc.elim
    | read => exact hc.elim
    | _ => exact ⟨trivial, fun r token' htoken => htoken ▸ ih r (hk r trivial)⟩

variable [Double F] {ParseFromString : Bytes → Bool × ClientPacket F}

omit [Double F] in
theorem saveClientPacket_handling (packet : ClientPacket F) :
    (saveClientPacket packet).Conforms Handling (fun _ _ => True) fun _ => True := by
  obtain ⟨type, data⟩ := packet
  cases data with
  | none => trivial
  | some data =>
    have hinsert : ∀ client : List (TableValue F), (do
        let first ← .ofExcept (vectorAt client 0)
        insertOne PACKETS_TABLE_NAME (packetValues first.value data) :
          ServerProg F Unit).Conforms Handling (fun _ _ => True) fun _ => True :=
      fun client => .bind (.ofExcept (Q := fun _ => True) fun _ _ => trivial)
        fun _ _ => ⟨trivial, fun _ _ => .ofExcept fun _ _ => trivial⟩
    have hselect : (selectOne CLIENTS_TABLE_NAME idColumns (some (whereUuid data.uuid)) :
        ServerProg F (List (TableValue F))).Conforms Handling (fun _ _ => True) fun _ => True :=
      ⟨trivial, fun _ _ => .ofExcept fun _ _ => trivial⟩
    have hregister : (insertOne CLIENTS_TABLE_NAME (clientValues data.uuid) :
        ServerProg F Unit).Conforms Handling (fun _ _ => True) fun _ => True :=
      ⟨trivial, fun _ _ => .ofExcept fun _ _ => trivial⟩
    refine Prog.Conforms.tryCatch (.bind hselect fun client _ => ?_) fun ex => ?_
    · dsimp only
      split_ifs
      · exact .bind hregister fun _ _ => .bind hselect fun client _ => hinsert client
      · exact hinsert client
    · cases ex <;> trivial

theorem handleMessage_handling (buffer : Bytes) :
    (handleMessage ParseFromString buffer).Conforms Handling (fun _ _ => True)
      fun _ => True := by
  unfold handleMessage handlePacket
  dsimp only
  split_ifs
  · exact saveClientPacket_handling _
  · refine (Collecting.collectStatistics_reads.mono (fun c hc => ?_) (fun _ _ _ => trivial)
      fun _ _ => trivial).bind fun stats _ =>
      ⟨trivial, fun _ _ => .ofExcept fun _ _ => trivial⟩
    cases hc <;> trivial
  · trivial

/-- **A thread looks at the flag before every message.**

The loop begins with the look, so at its top no token is needed; the invariant
of the induction is that there may be none. -/
theorem clientThread_follows (n : ℕ) :
    (clientThread ParseFromString n).Follows tokens (fun _ _ => True) false := by
  have hloop : (messageLoop ParseFromString n).Follows tokens (fun token _ => token = false)
      false := by
    induction n with
    | zero => rfl
    | succ n ih =>
      refine ⟨trivial, ?_⟩
      rintro (_ | _) token rfl
      · refine ⟨rfl, ?_⟩
        rintro r token rfl
        cases r with
        | error ex => rfl
        | ok buffer =>
          show ((handleMessage ParseFromString buffer).bind fun _ => messageLoop ParseFromString
            n).Follows _ _ _
          refine Prog.Follows.bind (follows_tokens false (handleMessage_handling buffer)) ?_
            fun _ _ h => h
          rintro token - rfl
          exact ih
      · rfl
  refine hloop.tryCatch (fun _ _ _ => trivial) fun token ex _ => ?_
  cases ex <;> trivial

end Server

/-! ## Runs of the process

Three facts are kept together. The protocol of the main thread alone does not say that
a thread that is joined has ended, that is what a join waits for; and without it
nothing could be said about the threads when the connection is closed. -/

namespace Process

section Runs

variable [Double F] {E : Engine F} {faulty : Prop} {clock : Int → Prop}
  {ParseFromString : Bytes → Bool × ClientPacket F} {d : Database F} {rounds : ℕ}
  {messages : ℕ → ℕ} {pr pr' : Process F}
  {turns turns' : List (Turn ℕ (Database F) (Cmd F) Cmd.Resp)}

/-- **What is true of a process** at any time.

The last field is what is wanted in the end, and the first two are what makes
it inductive. -/
structure Kept (pr : Process F) : Prop where
  /-- The main thread keeps to its protocol. -/
  main : pr.main.Follows Frame.automaton Lifecycle.Ended pr.frame
  /-- A thread that has been joined has ended. -/
  joined : ∀ i ∈ pr.frame.joined, pr.threads i = .ret ()
  /-- If the connection is not open, then every thread has been joined. -/
  closed : pr.frame.handle ≠ .opened → pr.frame.AllJoined

theorem kept_initial : (initial ParseFromString d rounds messages).Kept where
  main := Lifecycle.main_follows rounds
  joined i hi := by cases hi
  closed _ i hi := absurd hi (Nat.not_lt_zero i)

/-- The main thread joins threads that have ended, and closes the connection
when all have been joined.

One case for each call that changes what the frame says. A join is answered
only when the thread has ended (`Process.Answers`), which is the only place
where a thread matters to the main thread. -/
theorem Kept.call {c : MainCmd F} {k : c.Resp → MainProg F Bool} {r : c.Resp} {d : Database F}
    {fr : Frame} (h : pr.Kept) (hp : pr.main = .call c k) (hfr : pr.frame.Next c r fr)
    (hc : pr.Answers E faulty clock c r d) : (pr.call d fr (k r)).Kept := by
  have hmain := h.main
  rw [hp] at hmain
  have hallowed : pr.frame.Allows c := hmain.1
  refine ⟨hmain.step hfr, fun i hi => ?_, fun hhandle i hi => ?_⟩
  · cases c with
    | sqlite3_open => obtain ⟨-, rfl⟩ | ⟨-, rfl | rfl⟩ := hfr <;> exact h.joined i hi
    | spawn => obtain ⟨-, rfl⟩ | ⟨_, -, rfl⟩ := hfr <;> exact h.joined i hi
    | join j =>
      obtain rfl : fr = _ := hfr
      rcases Finset.mem_insert.mp hi with rfl | hi
      · exact hc.1
      · exact h.joined i hi
    | signal =>
      obtain rfl : fr = _ := hfr
      exact h.joined i hi
    | sqlite3_close =>
      obtain rfl : fr = _ := hfr
      exact h.joined i hi
    | _ => exact h.joined i (hfr.eq trivial ▸ hi)
  · cases c with
    | sqlite3_open =>
      obtain ⟨-, rfl⟩ | ⟨-, rfl | rfl⟩ := hfr
      · exact absurd rfl hhandle
      · exact h.closed hhandle i hi
      · exact h.closed (by rw [show pr.frame.handle = _ from hallowed]; nofun) i hi
    | spawn =>
      obtain ⟨-, rfl⟩ | ⟨_, -, rfl⟩ := hfr <;> exact absurd hallowed hhandle
    | join j =>
      obtain rfl : fr = _ := hfr
      exact absurd hallowed.1 hhandle
    | signal =>
      obtain rfl : fr = _ := hfr
      exact h.closed hhandle i hi
    | sqlite3_close =>
      obtain rfl : fr = _ := hfr
      exact hallowed.2 i hi
    | _ =>
      obtain rfl := hfr.eq trivial
      exact h.closed hhandle i hi

omit [Double F] in
/-- A thread that has been joined makes no call. -/
theorem Kept.serve {i : ℕ} {c : Cmd F} {k : c.Resp → ServerProg F Unit} (h : pr.Kept)
    (hp : pr.threads i = .call c k) (d : Database F) (p : ServerProg F Unit) :
    (pr.serve i d p).Kept := by
  refine ⟨h.main, fun j hj => ?_, h.closed⟩
  have hne : j ≠ i := by
    rintro rfl
    cases hp.symm.trans (h.joined j hj)
  exact (serve_others pr d p hne).trans (h.joined j hj)

/-- **It stays true.** -/
theorem Run.kept (h : Run E faulty clock pr turns pr') (hpr : pr.Kept) : pr'.Kept := by
  induction h with
  | done => exact hpr
  | called hp hfr hc _ ih => exact ih (hpr.call hp hfr hc)
  | served hi hp hc hflag _ ih => exact ih (hpr.serve hp _ _)
  | stopped _ _ ih => exact ih ⟨hpr.main, hpr.joined, hpr.closed⟩

omit [Double F] in
/-- A thread makes calls only while the connection is open.

A thread that makes a call has not ended, so it was not joined, so the
connection is not closed. -/
theorem Kept.opened (h : pr.Kept) {i : ℕ} {c : Cmd F} {k : c.Resp → ServerProg F Unit}
    (hi : i < pr.frame.started) (hp : pr.threads i = .call c k) :
    pr.frame.handle = .opened := by
  by_contra hhandle
  cases hp.symm.trans (h.joined i (h.closed hhandle i hi))

end Runs

end Process

/-! ## A process is its threads

The main thread uses the database only to set the tables up. Afterwards what happens
to the file is what the threads do, and a thread that was created late is one that has
not made a call until then: in the family it was there from the beginning and waited. -/

namespace Lifecycle

/-- The calls the main thread makes when the tables have been set up. -/
def Past : MainCmd F → Prop
  | .server _ => False
  | _ => True

/-- The calls it makes when they could not be.

Among them is no call that creates a thread, so a process that could not set
its tables up has done to the file what its attempt has done and nothing else. -/
def Vain : MainCmd F → Prop
  | .server _ => False
  | .signal => False
  | .spawn => False
  | _ => True

theorem joinLoop_conforms {pre : MainCmd F → Prop} (hpre : ∀ i, pre (.join i)) (n i : ℕ) :
    (joinLoop n i : MainProg F Unit).Conforms pre (fun _ _ => True) fun _ => True := by
  induction n generalizing i with
  | zero => trivial
  | succ n ih => exact ⟨hpre i, fun _ _ => ih (i + 1)⟩

theorem acceptLoop_past (n : ℕ) :
    (acceptLoop n : MainProg F Unit).Conforms Past (fun _ _ => True) fun _ => True := by
  induction n with
  | zero => exact ⟨trivial, nofun⟩
  | succ n ih =>
    refine ⟨trivial, fun needExit _ => ?_⟩
    have hone : (acceptOne : MainProg F Unit).Conforms Past (fun _ _ => True) fun _ => True := by
      refine ⟨trivial, fun _ _ => .tryCatch (.bind (Q := fun _ => True) ⟨trivial, fun _ _ =>
        .ofExcept fun _ _ => trivial⟩ fun _ _ => ⟨trivial, fun _ _ =>
          .ofExcept fun _ _ => trivial⟩) fun ex => ?_⟩
      cases ex <;> trivial
    cases needExit with
    | true => trivial
    | false => exact hone.bind fun _ _ => ih

theorem serve_past (n : ℕ) :
    (serve n : MainProg F Bool).Conforms Past (fun _ _ => True) fun _ => True := by
  have hstart : (start n : MainProg F Unit).Conforms Past (fun _ _ => True) fun _ => True :=
    .bind (Q := fun _ => True) ⟨trivial, fun _ _ => .ofExcept fun _ _ => trivial⟩ fun _ _ =>
      (acceptLoop_past n).bind fun _ _ => ⟨trivial, fun size _ =>
        joinLoop_conforms (fun _ => trivial) size 0⟩
  refine Prog.Conforms.bind (Q := fun _ => True) (.tryCatch ⟨trivial, fun _ _ =>
    hstart.bind fun _ _ => trivial⟩ fun ex => ?_) fun success _ => ⟨trivial, fun joinable _ => ?_⟩
  · cases ex <;> trivial
  · cases joinable with
    | true => exact ⟨trivial, nofun⟩
    | false => exact ⟨trivial, fun _ _ => trivial⟩

/-- When the tables cannot be set up, the main thread gives up. -/
theorem booting_throw (n : ℕ) (ex : Exc) :
    (booting n (.throw ex) : MainProg F Bool).Conforms Vain (fun _ _ => True)
      fun _ => True := by
  cases ex with
  | nullString => trivial
  | _ => exact ⟨trivial, fun _ _ => trivial⟩

end Lifecycle

namespace Process

variable [Double F]

/-- **How far a process has come**: the file it has found, the calls that have
set its tables up, and the turns of its threads.

The stages follow the main thread. In the last one the order of its calls does
not matter any more, and only the turns of the threads are recorded. -/
inductive Stage (E : Engine F) (faulty : Prop) (clock : Int → Prop)
    (ParseFromString : Bytes → Bool × ClientPacket F) (d : Database F) (rounds : ℕ)
    (messages : ℕ → ℕ) : List (Turn ℕ (Database F) (Cmd F) Cmd.Resp) → Process F → Prop
  /-- The connection was not opened yet. -/
  | opening {pr : Process F} (hstarted : pr.frame.started = 0)
      (hinstalled : pr.frame.installed = false)
      (hmain : pr.main = Lifecycle.main rounds) (hdatabase : pr.database = d)
      (hthreads : pr.threads = fun i => clientThread ParseFromString (messages i)) :
      Stage E faulty clock ParseFromString d rounds messages [] pr
  /-- The tables are set up. -/
  | booting {pr : Process F} {boot : List (Event (Database F) (Cmd F) Cmd.Resp)} {c : Cmd F}
      {k : c.Resp → ServerProg F Unit} (hstarted : pr.frame.started = 0)
      (hinstalled : pr.frame.installed = false)
      (hboot : Steps (handler E faulty clock) Eq construct d boot (.call c k) pr.database)
      (hmain : pr.main = Lifecycle.booting rounds (.call c k))
      (hthreads : pr.threads = fun i => clientThread ParseFromString (messages i)) :
      Stage E faulty clock ParseFromString d rounds messages [] pr
  /-- The main thread has given up. -/
  | failed {pr : Process F} {boot : List (Event (Database F) (Cmd F) Cmd.Resp)}
      {q : ServerProg F Unit} (hstarted : pr.frame.started = 0)
      (hinstalled : pr.frame.installed = false)
      (hboot : Steps (handler E faulty clock) Eq construct d boot q pr.database)
      (hmain : pr.main.Conforms Lifecycle.Vain (fun _ _ => True) fun _ => True) :
      Stage E faulty clock ParseFromString d rounds messages [] pr
  /-- The threads run. -/
  | serving {pr : Process F} {boot : List (Event (Database F) (Cmd F) Cmd.Resp)}
      {m : Database F} {turns : List (Turn ℕ (Database F) (Cmd F) Cmd.Resp)}
      (hboot : Steps (handler E faulty clock) Eq construct d boot (.ret ()) m)
      (hrun : Interleaved (handler E faulty clock)
        (fun i => clientThread ParseFromString (messages i)) m turns pr.threads pr.database)
      (hmain : pr.main.Conforms Lifecycle.Past (fun _ _ => True) fun _ => True) :
      Stage E faulty clock ParseFromString d rounds messages turns pr

section Stage

variable {E : Engine F} {faulty : Prop} {clock : Int → Prop}
  {ParseFromString : Bytes → Bool × ClientPacket F} {d : Database F} {rounds : ℕ}
  {messages : ℕ → ℕ} {pr pr' : Process F}
  {turns turns' : List (Turn ℕ (Database F) (Cmd F) Cmd.Resp)}

/-- A call of the main thread.

The main thread moves; the threads and the turns are as they were. -/
theorem Stage.call {c : MainCmd F} {k : c.Resp → MainProg F Bool} {r : c.Resp} {d' : Database F}
    {fr : Frame} (h : Stage E faulty clock ParseFromString d rounds messages turns pr)
    (hp : pr.main = .call c k) (hfr : pr.frame.Next c r fr)
    (hc : pr.Answers E faulty clock c r d') :
    Stage E faulty clock ParseFromString d rounds messages turns (pr.call d' fr (k r)) := by
  have hkeeps : (∀ c', c ≠ .server c') → d' = pr.database := by
    intro hne
    cases c with
    | server c => exact absurd rfl (hne c)
    | needExit => exact hc.2
    | join i => exact hc.2
    | _ => exact hc
  cases h with
  | opening hstarted hinstalled hmain hdatabase hthreads =>
    have hp : Lifecycle.main rounds = .call c k := hmain.symm.trans hp
    cases hp
    obtain rfl := hkeeps nofun
    rcases hfr with ⟨rfl, rfl⟩ | ⟨rfl, rfl | rfl⟩
    · exact .booting hstarted hinstalled (Steps.done hdatabase.symm) rfl hthreads
    · exact .failed hstarted hinstalled (Steps.done hdatabase.symm) trivial
    · exact .failed hstarted hinstalled (Steps.done hdatabase.symm) trivial
  | @booting _ boot c' k' hstarted hinstalled hboot hmain hthreads =>
    have hp : Lifecycle.booting rounds (.call c' k') = .call c k := hmain.symm.trans hp
    cases hp
    obtain rfl : fr = pr.frame := hfr
    have hboot' := hboot.append (.one hc rfl)
    generalize hq : k' r = q at hboot'
    show Stage _ _ _ _ _ _ _ _ (pr.call d' pr.frame (Lifecycle.booting rounds (k' r)))
    rw [hq]
    cases q with
    | call c k => exact .booting hstarted hinstalled hboot' rfl hthreads
    | throw ex => exact .failed hstarted hinstalled hboot' (Lifecycle.booting_throw rounds ex)
    | ret a =>
      refine .serving hboot' ?_ (Lifecycle.serve_past rounds)
      show Interleaved _ _ d' [] pr.threads d'
      rw [hthreads]
      exact .nil
  | failed hstarted hinstalled hboot hmain =>
    rw [hp] at hmain
    obtain rfl := hkeeps fun c' hc' => by subst hc'; exact hmain.1
    have hsame : fr.started = pr.frame.started ∧ fr.installed = pr.frame.installed := by
      cases c with
      | sqlite3_open => rcases hfr with ⟨-, rfl⟩ | ⟨-, rfl | rfl⟩ <;> exact ⟨rfl, rfl⟩
      | spawn => exact hmain.1.elim
      | signal => exact hmain.1.elim
      | join i => exact (show fr = _ from hfr) ▸ ⟨rfl, rfl⟩
      | sqlite3_close => exact (show fr = _ from hfr) ▸ ⟨rfl, rfl⟩
      | _ => exact hfr.eq trivial ▸ ⟨rfl, rfl⟩
    exact .failed (hsame.1.trans hstarted) (hsame.2.trans hinstalled) hboot (hmain.2 r trivial)
  | serving hboot hrun hmain =>
    rw [hp] at hmain
    obtain rfl := hkeeps fun c' hc' => by subst hc'; exact hmain.1
    exact .serving hboot hrun (hmain.2 r trivial)

/-- **A process is its threads**: at any time it has set its tables up, or tried
to, and its threads have run side by side. -/
theorem Run.stage (h : Run E faulty clock pr turns' pr')
    (hpr : Stage E faulty clock ParseFromString d rounds messages turns pr) :
    Stage E faulty clock ParseFromString d rounds messages (turns ++ turns') pr' := by
  induction h generalizing turns with
  | done => rwa [List.append_nil]
  | called hp hfr hc _ ih => exact ih (hpr.call hp hfr hc)
  | @served pr pr' i c k r d' turns' hi hp hc hflag _ ih =>
    have hstage : Stage E faulty clock ParseFromString d rounds messages
        (turns ++ [(i, ⟨pr.database, c, r, d'⟩)]) (pr.serve i d' (k r)) := by
      cases hpr with
      | opening hstarted => exact absurd hi (by omega)
      | booting hstarted => exact absurd hi (by omega)
      | failed hstarted => exact absurd hi (by omega)
      | serving hboot hrun hmain =>
        exact .serving hboot (hrun.append (.cons hp hc .nil)) hmain
    have hrest := ih hstage
    rwa [List.append_assoc] at hrest
  | stopped _ _ ih =>
    refine ih ?_
    cases hpr with
    | opening hstarted hinstalled hmain hdatabase hthreads =>
      exact .opening hstarted hinstalled hmain hdatabase hthreads
    | booting hstarted hinstalled hboot hmain hthreads =>
      exact .booting hstarted hinstalled hboot hmain hthreads
    | failed hstarted hinstalled hboot hmain => exact .failed hstarted hinstalled hboot hmain
    | serving hboot hrun hmain => exact .serving hboot hrun hmain

end Stage
end Process

/-! ## A server that is started and stopped

A whole life, from `main` to its return, with one client in between. It is put
together from runs of its parts. -/

namespace Process

section Exists

variable [Double F] {E : Engine F} {faulty : Prop} {clock : Int → Prop}
  {pr pr' pr'' : Process F} {turns turns' : List (Turn ℕ (Database F) (Cmd F) Cmd.Resp)}

/-- Runs compose. -/
theorem Run.append (h : Run E faulty clock pr turns pr')
    (h' : Run E faulty clock pr' turns' pr'') :
    Run E faulty clock pr (turns ++ turns') pr'' := by
  induction h with
  | done => exact h'
  | called hp hfr hc _ ih => exact .called hp hfr hc (ih h')
  | served hi hp hc hflag _ ih => exact .served hi hp hc hflag (ih h')
  | stopped hinstalled _ ih => exact .stopped hinstalled (ih h')

/-- The tables are set up. -/
theorem Run.boot {n : ℕ} {p q : ServerProg F Unit} {d d' : Database F}
    {es : List (Event (Database F) (Cmd F) Cmd.Resp)}
    (h : Steps (handler E faulty clock) Eq p d es q d') (hd : pr.database = d)
    (hp : pr.main = Lifecycle.booting n p) :
    Run E faulty clock pr [] (pr.call d' pr.frame (Lifecycle.booting n q)) := by
  induction h generalizing pr with
  | done hr =>
    subst hr hd
    rw [← hp]
    exact .done
  | @own c k _ _ d₂ _ r _ _ hr hc _ ih =>
    subst hr hd
    exact .called (c := .server c) (r := r) (d := d₂) hp rfl hc (ih rfl rfl)

end Exists

/-- What is left of `main` when one connection has been accepted. -/
def accepting : MainProg F Bool :=
  (Prog.catchStd (((Lifecycle.acceptLoop 1).bind fun _ => (Prog.perform .size).bind fun size =>
    Lifecycle.joinLoop size 0).bind fun _ => .ret true) fun _ => .ret false).bind fun success =>
      Lifecycle.destroy.bind fun _ => .ret success

/-- The process of a server that has accepted one connection. -/
def oneClient (messages : ℕ → ℕ) : Process Binary64 where
  database := Store.empty.toDatabase
  flag := false
  frame := ⟨.opened, true, 1, ∅, false⟩
  main := accepting
  threads i := clientThread (ClientPacket.ParseFromString binary64) (messages i)

/-- A server starts and accepts a connection. -/
theorem exists_oneClient (faulty : Prop) (messages : ℕ → ℕ) :
    Run (Engine.reference : Engine Binary64) faulty (fun _ => True)
      (initial (ClientPacket.ParseFromString binary64) [] 2 messages) [] (oneClient messages) := by
  obtain ⟨boot, hboot⟩ := exists_construct (Engine.reference : Engine Binary64) faulty
    (fun _ => True) (show Database.Holds [] Store.empty from Or.inr ⟨rfl, Or.inl rfl⟩)
  refine .called (c := .sqlite3_open) (r := true) rfl (Or.inl ⟨rfl, rfl⟩) rfl
    ((Run.boot (n := 2) hboot rfl rfl).append ?_)
  exact .called (c := .signal) (r := ()) rfl rfl rfl
    (.called (c := .listen) (r := .ok ()) rfl ⟨nofun, rfl⟩ rfl
    (.called (c := .needExit) (r := false) rfl rfl ⟨rfl, rfl⟩
    (.called (c := .sleep) (r := ()) rfl rfl rfl
    (.called (c := .accept) (r := .ok ()) rfl ⟨nofun, rfl⟩ rfl
    (.called (c := .spawn) (r := .ok ()) rfl (Or.inl ⟨rfl, rfl⟩) rfl .done)))))

/-- It is stopped, and its one thread finds the connection closed. -/
theorem exists_stopped (faulty : Prop) :
    ∃ turns pr, Run (Engine.reference : Engine Binary64) faulty (fun _ => True)
        (initial (ClientPacket.ParseFromString binary64) [] 2 fun _ => 1) turns pr
      ∧ pr.main = .ret true ∧ pr.frame.started = 1 := by
  refine ⟨_, _, (exists_oneClient faulty fun _ => 1).append
    (.served (i := 0) (c := .needExit) (r := false) one_pos rfl rfl rfl
    (.served (i := 0) (c := .read) (r := .error (.systemError "closed")) one_pos rfl
      ⟨fun ex h => ⟨"closed", (Except.error.inj h).symm⟩, rfl⟩ trivial
    (.stopped rfl
    (.called (c := .needExit) (r := true) rfl rfl ⟨rfl, rfl⟩
    (.called (c := .size) (r := (1 : ℕ)) rfl ⟨rfl, rfl⟩ rfl
    (.called (c := .join 0) (r := ()) rfl rfl ⟨rfl, rfl⟩
    (.called (c := .joinable) (r := false) rfl ⟨?_, rfl⟩ rfl
    (.called (c := .sqlite3_close) (r := ()) rfl rfl rfl .done)))))))), rfl, rfl⟩
  refine ⟨fun h => absurd h Bool.false_ne_true, fun h => absurd (fun i hi => ?_) h⟩
  rw [Nat.lt_one_iff.mp hi]
  exact Finset.mem_insert_self 0 _

/-! ## The properties

Each of them is read off an invariant above. -/

section Properties

variable [Double F] {E : Engine F} {faulty : Prop} {clock : Int → Prop}
  {ParseFromString : Bytes → Bool × ClientPacket F} {d : Database F} {rounds : ℕ}
  {messages : ℕ → ℕ} {pr pr' : Process F}
  {turns turns' : List (Turn ℕ (Database F) (Cmd F) Cmd.Resp)}

/-- **No thread outlives the connection.** At any time, in any order of moves:
whenever the main thread or a thread is about to use the connection to the
database, it is open; a thread is joined once; when the connection is about to
be closed, every thread has ended; and when `main` has returned, they have
ended, and the connection is closed – unless it could not be opened, and then
it never is. `std::terminate` is reached only if a thread could not be created
while there were others; `main` does not return then.

The parts are those places of the source at which an order of destruction
could have been wrong: the members of the server, the vector of threads, and
the exceptions that leave `start` early. The destructor of a joinable
`std::thread` ends the process, so the case of a thread that could not be
created is listed with what it leads to. -/
theorem threads_end_first
    (h : Run E faulty clock (initial ParseFromString d rounds messages) turns pr) :
    (∀ c k, pr.main = .call (.server c) k → pr.frame.handle = .opened)
      ∧ (∀ i c k, i < pr.frame.started → pr.threads i = .call c k → pr.frame.handle = .opened)
      ∧ (∀ i k, pr.main = .call (.join i) k → i < pr.frame.started ∧ i ∉ pr.frame.joined)
      ∧ (∀ k, pr.main = .call .sqlite3_close k → pr.frame.handle = .opened
        ∧ ∀ i < pr.frame.started, pr.threads i = .ret ())
      ∧ (∀ k, pr.main = .call .terminate k → pr.frame.lost = true
        ∧ ∃ i < pr.frame.started, i ∉ pr.frame.joined)
      ∧ (∀ success, pr.main = .ret success → (∀ i < pr.frame.started, pr.threads i = .ret ())
        ∧ (pr.frame.lost = true → pr.frame.started = 0 ∧ success = false)
        ∧ (pr.frame.handle = .closed ∨ (success = false ∧ pr.frame.started = 0
          ∧ pr.frame.handle ≠ .opened))) := by
  have hkept := h.kept kept_initial
  have hmain := hkept.main
  refine ⟨fun c k hp => ?_, fun i c k hi hp => hkept.opened hi hp, fun i k hp => ?_,
    fun k hp => ?_, fun k hp => ?_, fun success hp => ?_⟩
  · rw [hp] at hmain
    exact hmain.1
  · rw [hp] at hmain
    exact hmain.1.2
  · rw [hp] at hmain
    exact ⟨hmain.1.1, fun i hi => hkept.joined i (hmain.1.2 i hi)⟩
  · rw [hp] at hmain
    refine ⟨hmain.1.1, ?_⟩
    by_contra hall
    push Not at hall
    exact hmain.1.2 hall
  · rw [hp] at hmain
    obtain ⟨hall, hlost, hend⟩ := hmain
    exact ⟨fun i hi => hkept.joined i (hall i hi), hlost, hend⟩

/-- In particular when a server with one client is stopped. -/
theorem threads_end_first_one :
    ∃ turns pr, Run (Engine.reference : Engine Binary64) False (fun _ => True)
        (initial (ClientPacket.ParseFromString binary64) [] 2 fun _ => 1) turns pr
      ∧ pr.main = .ret true ∧ pr.threads 0 = .ret () ∧ pr.frame.handle = .closed := by
  obtain ⟨turns, pr, hrun, hmain, hstarted⟩ := exists_stopped False
  obtain ⟨-, -, -, -, -, hend⟩ := threads_end_first hrun
  obtain ⟨hthreads, -, hhandle⟩ := hend true hmain
  exact ⟨turns, pr, hrun, hmain, hthreads 0 (hstarted ▸ one_pos),
    hhandle.resolve_right fun h => absurd h.1 (Ne.symm Bool.false_ne_true)⟩

/-- **The turns of a thread are paid for**, where a look at the flag that shows it
set pays for nothing: a thread that holds a token reads at most one message of
a server that is stopped, and one that does not reads none.

By induction on the turns, with the token as what is generalised. -/
theorem Run.reads_le (h : Run E faulty clock pr turns pr') (hflag : pr.flag = true) {i : ℕ}
    {token : Bool} (hp : (pr.threads i).Follows tokens (fun _ _ => True) token) :
    ((ownTurns i turns).filterMap Event.message).length ≤ token.toNat := by
  induction h generalizing token with
  | done => exact Nat.zero_le _
  | called _ _ _ _ ih => exact ih hflag hp
  | stopped _ _ ih => exact ih rfl hp
  | @served pr pr' j c k r d' turns hj hcall hc hsees _ ih =>
    by_cases hij : j = i
    · subst hij
      rw [hcall] at hp
      obtain ⟨hallowed, hp⟩ := hp
      have hrest : ∀ token', tokens.next token c r token' →
          ((ownTurns j turns).filterMap Event.message).length ≤ token'.toNat := fun token' hnext =>
        ih hflag ((serve_threads pr j d' (k r)).symm ▸ hp r token' hnext)
      rw [ownTurns_cons_self]
      cases c with
      | needExit =>
        obtain rfl : r = pr.flag := hsees
        have hnone := hrest _ rfl
        rw [hflag] at hnone
        exact hnone.trans (Nat.zero_le _)
      | read =>
        obtain rfl : token = true := hallowed
        have hnone := hrest false rfl
        cases r with
        | error ex => exact hnone.trans (Nat.zero_le _)
        | ok buffer => exact Nat.succ_le_succ hnone
      | _ => exact hrest token rfl
    · rw [ownTurns_cons_of_ne i hij]
      exact ih hflag ((serve_others pr d' (k r) (Ne.symm hij)).symm ▸ hp)

/-- A thread that was not created yet holds no token. -/
theorem Run.tokens (h : Run E faulty clock pr turns pr') {i : ℕ}
    (hpr : ∃ token, (pr.threads i).Follows Server.tokens (fun _ _ => True) token
      ∧ (pr.frame.started ≤ i → token = false)) :
    ∃ token, (pr'.threads i).Follows Server.tokens (fun _ _ => True) token
      ∧ (pr'.frame.started ≤ i → token = false) := by
  induction h with
  | done => exact hpr
  | called hp hfr hc _ ih =>
    obtain ⟨token, hthread, hnew⟩ := hpr
    exact ih ⟨token, hthread, fun hi => hnew (hfr.started_le.trans hi)⟩
  | stopped _ _ ih => exact ih hpr
  | @served pr pr' j c k r d' turns hj hcall hc hsees _ ih =>
    obtain ⟨token, hthread, hnew⟩ := hpr
    by_cases hij : i = j
    · subst hij
      rw [hcall] at hthread
      obtain ⟨token', hnext⟩ := exists_next token r
      exact ih ⟨token', (serve_threads pr i d' (k r)).symm ▸ hthread.step hnext,
        fun hi => absurd hj (not_lt.mpr hi)⟩
    · exact ih ⟨token, (serve_others pr d' (k r) hij).symm ▸ hthread, hnew⟩

/-- **A server that is stopped handles one more message of each client**, at
most, whatever the order of the moves; and none of a client that connects
later.

The run up to the stop is arbitrary, and so is what comes after: the number of
messages that wait in the connection does not occur. -/
theorem stopped_reads
    (h : Run E faulty clock (initial ParseFromString d rounds messages) turns pr)
    (hflag : pr.flag = true) (h' : Run E faulty clock pr turns' pr') (i : ℕ) :
    ((ownTurns i turns').filterMap Event.message).length ≤ 1
      ∧ (pr.frame.started ≤ i → (ownTurns i turns').filterMap Event.message = []) := by
  obtain ⟨token, hthread, hnew⟩ := h.tokens (i := i)
    ⟨false, clientThread_follows (messages i), fun _ => rfl⟩
  have hle := h'.reads_le hflag hthread
  refine ⟨hle.trans (Bool.toNat_le token), fun hi => ?_⟩
  rw [hnew hi] at hle
  exact List.length_eq_zero_iff.mp (Nat.le_zero.mp hle)

/-- In particular when the client of a server that has just looked at the flag
sends a request. -/
theorem stopped_reads_one :
    ∃ pr turns pr', pr.flag = true
      ∧ Run (Engine.reference : Engine Binary64) False (fun _ => True) pr turns pr'
      ∧ ((ownTurns 0 turns).filterMap Event.message).length = 1 := by
  obtain ⟨k, hk, k', hk'⟩ : ∃ k, clientThread (ClientPacket.ParseFromString binary64) 1
      = .call .needExit k ∧ ∃ k', k false = .call .read k' := ⟨_, rfl, _, rfl⟩
  have hrun := (exists_oneClient False fun _ => 1).append
    (.served (i := 0) (c := .needExit) (r := false) one_pos hk rfl rfl (.stopped rfl .done))
  have hthread : ((oneClient fun _ => 1).serve 0 Store.empty.toDatabase (k false)).stop.threads 0
      = .call .read k' :=
    (serve_threads (oneClient fun _ => 1) 0 Store.empty.toDatabase (k false)).trans hk'
  have hread : Run (Engine.reference : Engine Binary64) False (fun _ => True)
      ((oneClient fun _ => 1).serve 0 Store.empty.toDatabase (k false)).stop _ _ :=
    .served (i := 0) (c := .read) (r := .ok [0x08, 1]) one_pos hthread ⟨nofun, rfl⟩ trivial .done
  exact ⟨_, _, _, rfl, hread, Nat.le_antisymm (stopped_reads hrun rfl hread 0).1 le_rfl⟩

/-- **What a process does to the file** is what a family of threads does, side
by side: a file that a server comes to is one it still comes to when another
process has used it, however far that has got.

This makes the statements about all files a server comes to statements about
all files any number of processes leave, also of those that were killed. -/
theorem reached {Received : Bytes → Prop} (hd : Reached E ParseFromString Received d)
    (h : Run E True (fun _ => True) (initial ParseFromString d rounds messages) turns pr)
    (hreceived : ∀ e ∈ turns, ∀ buffer, e.2.message = some buffer → Received buffer) :
    Reached E ParseFromString Received pr.database := by
  have hstage : Stage E True (fun _ => True) ParseFromString d rounds messages ([] ++ turns) pr :=
    h.stage (.opening rfl rfl rfl rfl rfl)
  rw [List.nil_append] at hstage
  cases hstage with
  | opening _ _ _ hdatabase _ => exact hdatabase ▸ hd
  | booting _ _ hboot _ _ => exact .started hd hboot
  | failed _ _ hboot _ => exact .started hd hboot
  | serving hboot hrun _ => exact .served hd hboot hrun hreceived

/-- In particular when a server that has served one client has been stopped. -/
theorem reached_stopped :
    ∃ turns pr, Run (Engine.reference : Engine Binary64) True (fun _ => True)
        (initial (ClientPacket.ParseFromString binary64) [] 2 fun _ => 1) turns pr
      ∧ pr.main = .ret true
      ∧ Reached Engine.reference (ClientPacket.ParseFromString binary64) (fun _ => True)
        pr.database := by
  obtain ⟨turns, pr, hrun, hmain, -⟩ := exists_stopped True
  exact ⟨turns, pr, hrun, hmain, reached .fresh hrun fun _ _ _ _ => trivial⟩

end Properties

end Process
