import TZ.Allowances

/-!
# A server that is stopped comes to its end

Once the flag is set the allowances of the programs only shrink, however the
moves are ordered, which bounds their number. And there always is a move: the
main thread waits for nothing but a thread it joins, and a thread for nothing at
all. So the process comes to its end (`Process.stopped_ends`).

The bound is a sum. Every thread that has been created has an allowance
(`TZ.Allowances`), and the main thread has one; a move takes from one of them and gives
to none. The allowance of a thread depends on how many clients are listed, and clients
may still be added, so the number it is measured with is not how many there are but how
many there can be when all is done: those in the file and one for each thread.

That there is a move is the other half, and it is not a consequence of the first. A join
waits for a thread, and if that thread waited for something the process would stand
still with all its allowances. A thread waits for nothing here: a call on the database
is answered, and so is a read, if only with an error. What a read that is never answered
does to the server is outside of the model.
-/

open Server

variable {F : Type}

namespace Process

section Moves

variable [Double F]

/-- **A move of the process** other than a Ctrl-C. -/
inductive Move (E : Engine F) (faulty : Prop) (clock : Int → Prop) :
    Process F → Process F → Prop
  /-- The main thread makes its next call. -/
  | called {pr : Process F} {c : MainCmd F} {k : c.Resp → MainProg F Bool} {r : c.Resp}
      {d : Database F} {fr : Frame} (hp : pr.main = .call c k) (hfr : pr.frame.Next c r fr)
      (hc : pr.Answers E faulty clock c r d) : Move E faulty clock pr (pr.call d fr (k r))
  /-- A thread makes its next call. -/
  | served {pr : Process F} {i : ℕ} {c : Cmd F} {k : c.Resp → ServerProg F Unit} {r : c.Resp}
      {d : Database F} (hi : i < pr.frame.started) (hp : pr.threads i = .call c k)
      (hc : handler E faulty clock pr.database c r d) (hflag : pr.Sees c r) :
      Move E faulty clock pr (pr.serve i d (k r))

/-- **So many moves.** When the flag is set, a Ctrl-C is none. -/
inductive Moves (E : Engine F) (faulty : Prop) (clock : Int → Prop) :
    ℕ → Process F → Process F → Prop
  /-- None. -/
  | none {pr : Process F} : Moves E faulty clock 0 pr pr
  /-- One more. -/
  | more {n : ℕ} {pr pr' pr'' : Process F} (h : Move E faulty clock pr pr')
      (rest : Moves E faulty clock n pr' pr'') : Moves E faulty clock (n + 1) pr pr''

/-- **How many moves are left to a process that is stopped**, at most: a thread
finishes the message it is at work on, for which it may have to list every
client there is, and those that the others add meanwhile.

It is computed from two numbers that can be seen when the flag is set. -/
def movesLeft (pr : Process F) : ℕ :=
  pr.frame.started * (pr.frame.started
    + (pr.database.rowsOf CLIENTS_TABLE_NAME).length + 7) + 9

/-- **The process has come to its end**: `main` has returned, or the process was
terminated. -/
def Over (pr : Process F) : Prop :=
  (∃ success, pr.main = .ret success) ∨ ∃ k, pr.main = .call .terminate k

variable {E : Engine F} {faulty : Prop} {clock : Int → Prop}
  {ParseFromString : Bytes → Bool × ClientPacket F} {d : Database F} {rounds : ℕ}
  {messages : ℕ → ℕ} {pr pr' : Process F} {s : Store F} {n m : ℕ}
  {turns turns' : List (Turn ℕ (Database F) (Cmd F) Cmd.Resp)}

/-- **What is true of a process that is stopped**: its programs keep within
their allowances, and those provide for every client and every thread there
will be.

The invariant of the runs after the flag is set. The sums are over the threads
that have been created. -/
structure Ending (n m : ℕ) (pr : Process F) (a : ℕ → Allowance) (b : Allowance) : Prop where
  /-- It is stopped. -/
  flag : pr.flag = true
  /-- What was true before. -/
  kept : pr.Kept
  /-- The file holds no more than `n` clients, with those the threads may add. -/
  clients : ∃ s : Store F, pr.database = s.toDatabase
    ∧ s.clients.length + ∑ i ∈ Finset.range m, (a i).creations ≤ n
  /-- There are no more than `m` threads, with those the main thread may create. -/
  started : pr.frame.started + b.creations ≤ m
  /-- The allowance of the main thread. -/
  main : pr.main.Follows (Lifecycle.ending m) Lifecycle.Returns (some b)
  /-- The acceptor is followed to the end of its loop. -/
  watched : Lifecycle.Watched pr.main
  /-- The allowances of the threads. -/
  threads : ∀ i, (pr.threads i).Follows (Server.ending n) (fun _ x => x = .ok ()) (a i)
  /-- The calls of the threads. -/
  conforms : ∀ i, (pr.threads i).Conforms ServerCall Answered fun _ => True

/-- A move of the main thread leaves the file alone. -/
theorem Ending.database {a : ℕ → Allowance} {b : Allowance} {c : MainCmd F}
    {k : c.Resp → MainProg F Bool} {r : c.Resp} (h : pr.Ending n m a b)
    (hp : pr.main = .call c k) (hc : pr.Answers E faulty clock c r d) : d = pr.database := by
  have hmain := h.main
  rw [hp] at hmain
  cases c with
  | server c => exact absurd trivial hmain.1.1
  | needExit => exact hc.2
  | join i => exact hc.2
  | _ => exact hc

/-- **Every move uses an allowance up.**

One case for the main thread and one for a thread; a thread that is created
enters the sum with an allowance that the main thread has kept for it. -/
theorem Ending.move {a : ℕ → Allowance} {b : Allowance} (h : pr.Ending n m a b)
    (hmove : Move E faulty clock pr pr') :
    ∃ a' b', pr'.Ending n m a' b'
      ∧ ∑ i ∈ Finset.range m, (a' i).calls + b'.calls + 1
        ≤ ∑ i ∈ Finset.range m, (a i).calls + b.calls := by
  obtain ⟨s, hs, hn⟩ := h.clients
  cases hmove with
  | called hp hfr hc =>
    have hmain := h.main
    have hwatched := h.watched
    rw [hp] at hmain hwatched
    have htold := Lifecycle.told_of_next hfr ((Nat.le_add_right _ _).trans h.started)
    have hstarted := Lifecycle.started_of_next hfr
    obtain ⟨b', hleft, hcalls, hthreads⟩ := Lifecycle.left_lt hmain.1 h.flag hc
    refine ⟨a, b', ⟨h.flag, h.kept.call hp hfr hc, ⟨s, (h.database hp hc).trans hs, hn⟩, ?_,
      hmain.step ⟨htold, hleft.symm⟩, hwatched.step h.flag hc, h.threads, h.conforms⟩, by omega⟩
    have hle := h.started
    show _ + b'.creations ≤ m
    exact (Nat.add_le_add_right hstarted _).trans (by omega)
  | @served i c k r d hi hp hc hflag =>
    have hthread := h.threads i
    have hconforms := h.conforms i
    rw [hp] at hthread hconforms
    rw [hs] at hc
    obtain ⟨hanswered, s', rfl, -⟩ := handler_store hconforms.1 hc
    obtain ⟨hlisted, hadded⟩ := listed_and_added hconforms.1 hc
      ((Nat.le_add_right _ _).trans hn)
    obtain ⟨hcalls, hclients⟩ := Server.left_lt hthread.1 h.flag hflag
    have hi : i ∈ Finset.range m :=
      Finset.mem_range.mpr (hi.trans_le ((Nat.le_add_right _ _).trans h.started))
    have hleft := sum_update_add_le Allowance.creations a hi hclients
    have hrest := sum_update_add_le Allowance.calls a hi hcalls
    refine ⟨Function.update a i (Server.left n (a i) c r), b, ⟨h.flag, h.kept.serve hp _ _,
      ⟨s', rfl, by omega⟩, h.started, h.main, h.watched, fun j => ?_, fun j => ?_⟩, by omega⟩
    · by_cases hj : j = i
      · subst hj
        rw [serve_threads, Function.update_self]
        exact hthread.step ⟨hlisted, rfl⟩
      · rw [serve_others _ _ _ hj, Function.update_of_ne hj]
        exact h.threads j
    · by_cases hj : j = i
      · subst hj
        rw [serve_threads]
        exact hconforms.2 r hanswered
      · rw [serve_others _ _ _ hj]
        exact h.conforms j

/-- So do several. -/
theorem Ending.moves {a : ℕ → Allowance} {b : Allowance} {moves : ℕ} (h : pr.Ending n m a b)
    (hmoves : Moves E faulty clock moves pr pr') :
    ∃ a' b', pr'.Ending n m a' b'
      ∧ moves ≤ ∑ i ∈ Finset.range m, (a i).calls + b.calls := by
  induction hmoves generalizing a b with
  | none => exact ⟨a, b, h, Nat.zero_le _⟩
  | more hmove _ ih =>
    obtain ⟨a', b', h', hle⟩ := h.move hmove
    obtain ⟨a'', b'', h'', hle'⟩ := ih h'
    exact ⟨a'', b'', h'', by omega⟩

/-- **There is a move until the process has come to its end.** -/
theorem Ending.progress {a : ℕ → Allowance} {b : Allowance} (h : pr.Ending n m a b)
    (hclock : ∃ now, clock now) : (∃ pr', Move E faulty clock pr pr') ∨ pr.Over := by
  have hmain := h.main
  cases hp : pr.main with
  | ret success => exact Or.inr (Or.inl ⟨success, hp⟩)
  | throw ex =>
    rw [hp] at hmain
    obtain ⟨success, hex⟩ := hmain (Option.some_ne_none b)
    cases hex
  | call c k =>
    have hcall : ∀ {r : c.Resp} {fr : Frame}, pr.frame.Next c r fr →
        pr.Answers E faulty clock c r pr.database →
        (∃ pr', Move E faulty clock pr pr') ∨ pr.Over :=
      fun hfr hc => Or.inl ⟨_, .called hp hfr hc⟩
    rw [hp] at hmain
    cases c with
    | sqlite3_open => exact absurd trivial hmain.1.1
    | server c => exact absurd trivial hmain.1.1
    | signal => exact absurd trivial hmain.1.1
    | listen => exact hcall (r := .ok ()) ⟨nofun, rfl⟩ rfl
    | needExit => exact hcall (r := pr.flag) rfl ⟨rfl, rfl⟩
    | sleep => exact hcall (r := ()) rfl rfl
    | accept => exact hcall (r := .ok ()) ⟨nofun, rfl⟩ rfl
    | spawn => exact hcall (r := .ok ()) (Or.inl ⟨rfl, rfl⟩) rfl
    | size => exact hcall (r := pr.frame.started) ⟨rfl, rfl⟩ rfl
    | joinable =>
      by_cases hall : pr.frame.AllJoined
      · exact hcall (r := false) ⟨⟨fun h => absurd h Bool.false_ne_true, fun h => absurd hall h⟩,
          rfl⟩ rfl
      · exact hcall (r := true) ⟨⟨fun _ => hall, fun _ => rfl⟩, rfl⟩ rfl
    | sqlite3_close => exact hcall (r := ()) rfl rfl
    | terminate => exact Or.inr (Or.inr ⟨k, hp⟩)
    | unfollowed =>
      have hwatched := h.watched
      rw [hp] at hwatched
      cases hwatched.1 rfl
    | join i =>
      -- the thread has ended, or can make a call
      have hfollows := h.kept.main
      rw [hp] at hfollows
      have hi : i < pr.frame.started := hfollows.1.2.1
      have hthread := h.threads i
      have hconforms := h.conforms i
      cases hq : pr.threads i with
      | ret u => exact hcall (r := ()) rfl ⟨hq, rfl⟩
      | throw ex =>
        rw [hq] at hthread
        cases hthread
      | call c' k' =>
        rw [hq] at hconforms
        obtain ⟨s, hs, -⟩ := h.clients
        obtain ⟨r, s', hc, hsees⟩ : ∃ r s', handler E faulty clock pr.database c' r s'
            ∧ pr.Sees c' r := by
          by_cases hexit : c' = .needExit
          · subst hexit
            exact ⟨pr.flag, pr.database, rfl, rfl⟩
          · obtain ⟨r, s', hc⟩ := exists_answer E faulty hclock s hconforms.1
            refine ⟨r, s'.toDatabase, hs ▸ hc, ?_⟩
            cases c' with
            | needExit => exact absurd rfl hexit
            | _ => trivial
        exact Or.inl ⟨_, .served hi hq hc hsees⟩

/-- **The main thread has paid for what it does**, from the time it can be
stopped.

It is what an arbitrary run before the flag was set has to provide. -/
structure Paid (n : ℕ) (pr : Process F) (b : Option Allowance) : Prop where
  /-- It keeps within its allowance. -/
  main : pr.main.Follows (Lifecycle.ending n) Lifecycle.Returns b
  /-- The allowance is there. -/
  installed : pr.frame.installed = true → b ≠ none
  /-- It can be stopped. -/
  flag : pr.flag = true → pr.frame.installed = true
  /-- The allowance is not more than what it is to begin with. -/
  bound : ∀ a ∈ b, a.calls ≤ n + 7 ∧ a.creations ≤ 1

theorem Run.paid (h : Run E faulty clock pr turns pr')
    (hpr : pr.frame.started ≤ n → ∃ b, pr.Paid n b) (hn : pr'.frame.started ≤ n) :
    ∃ b, pr'.Paid n b := by
  induction h with
  | done => exact hpr hn
  | called hp hfr hc _ ih =>
    refine ih (fun hstarted => ?_) hn
    have hstarted := hfr.started_le.trans hstarted
    obtain ⟨b, hb⟩ := hpr hstarted
    have hmain := hb.main
    rw [hp] at hmain
    exact ⟨_, hmain.step ⟨Lifecycle.told_of_next hfr hstarted, rfl⟩,
      Lifecycle.left_ne_none hfr hb.installed, fun hflag => hfr.installed (hb.flag hflag),
      Lifecycle.left_le hb.bound⟩
  | served _ _ _ _ _ ih =>
    refine ih (fun hstarted => ?_) hn
    obtain ⟨b, hb⟩ := hpr hstarted
    exact ⟨b, hb.main, hb.installed, hb.flag, hb.bound⟩
  | stopped hinstalled _ ih =>
    refine ih (fun hstarted => ?_) hn
    obtain ⟨b, hb⟩ := hpr hstarted
    exact ⟨b, hb.main, hb.installed, fun _ => hinstalled, hb.bound⟩

/-- A thread that was not created yet has done nothing. -/
theorem Run.waiting (h : Run E faulty clock pr turns pr')
    (hpr : ∀ i, pr.frame.started ≤ i → pr.threads i = clientThread ParseFromString (messages i)) :
    ∀ i, pr'.frame.started ≤ i →
      pr'.threads i = clientThread ParseFromString (messages i) := by
  induction h with
  | done => exact hpr
  | called _ hfr _ _ ih => exact ih fun i hi => hpr i (hfr.started_le.trans hi)
  | served hj _ _ _ _ ih =>
    exact ih fun i hi => (serve_others _ _ _ (hj.trans_le hi).ne').trans (hpr i hi)
  | stopped _ _ ih => exact ih hpr

/-- **The threads keep within their allowances**, when the file holds so many
clients. -/
theorem threads_ending {ps : ℕ → ServerProg F Unit} {t : Store F}
    {turns : List (Turn ℕ (Store F) (Cmd F) Cmd.Resp)}
    (h : Interleaved (storeHandler E faulty clock)
      (fun i => clientThread ParseFromString (messages i)) s turns ps t)
    (hn : t.clients.length ≤ n) (i : ℕ) :
    (ps i).Conforms ServerCall Answered (fun _ => True)
      ∧ ∃ a, (ps i).Follows (Server.ending n) (fun _ x => x = .ok ()) a
        ∧ a.calls ≤ n + 6 ∧ a.creations ≤ 1 := by
  -- the clients that are listed are in the file at the end
  let J : ServerProg F Unit → Store F → Prop := fun p s =>
    p.Conforms ServerCall Answered (fun _ => True) ∧ (s.clients.length ≤ n →
      ∃ a, p.Follows (Server.ending n) (fun _ x => x = .ok ()) a
        ∧ a.calls ≤ n + 6 ∧ a.creations ≤ 1)
  have hstep : ∀ (i : ℕ) (c : Cmd F) k s (r : c.Resp) s', J (.call c k) s →
      storeHandler E faulty clock s c r s' → J (k r) s' ∧ s.Grows s' := by
    rintro - c k s r s' ⟨hconforms, hs⟩ hc
    have hgrows := storeHandler_grows hconforms.1 hc
    refine ⟨⟨hconforms.2 r (handler_store hconforms.1 hc).1, fun hn => ?_⟩, hgrows⟩
    have hn := hgrows.clients.length_le.trans hn
    obtain ⟨a, ha, hbound⟩ := hs hn
    exact ⟨_, ha.step ⟨(listed_and_added hconforms.1 hc hn).1, rfl⟩, Server.left_le hbound⟩
  have hstable : ∀ (i : ℕ) q s s', J q s → s.Grows s' → J q s' := by
    rintro - q s s' ⟨hconforms, hs⟩ hgrows
    exact ⟨hconforms, fun hn => hs (hgrows.clients.length_le.trans hn)⟩
  obtain ⟨hJ, -⟩ := h.rely_guarantee hstep hstable fun i =>
    ⟨clientThread_conforms _ _, fun _ => ⟨⟨1, 0⟩, clientThread_ending _ one_pos,
      Nat.succ_le_of_lt (Nat.succ_pos _), Nat.zero_le _⟩⟩
  exact ⟨(hJ i).1, (hJ i).2 hn⟩

/-- A process that can be stopped has set its tables up, and its threads run side
by side. -/
theorem Run.serving (hd : d.Holds s)
    (h : Run E faulty clock (initial ParseFromString d rounds messages) turns pr)
    (hinstalled : pr.frame.installed = true) :
    ∃ (t : Store F) (turns' : List (Turn ℕ (Store F) (Cmd F) Cmd.Resp)),
      pr.database = t.toDatabase ∧ Interleaved (storeHandler E faulty clock)
        (fun i => clientThread ParseFromString (messages i)) s turns' pr.threads t := by
  have hstage : Stage E faulty clock ParseFromString d rounds messages ([] ++ turns) pr :=
    h.stage (.opening rfl rfl rfl rfl rfl)
  cases hstage with
  | opening _ hnot => exact absurd (hnot.symm.trans hinstalled) Bool.false_ne_true
  | booting _ hnot => exact absurd (hnot.symm.trans hinstalled) Bool.false_ne_true
  | failed _ hnot => exact absurd (hnot.symm.trans hinstalled) Bool.false_ne_true
  | serving hboot hrun _ =>
    obtain rfl := (construct_steps hd hboot).2.1 rfl
    obtain ⟨t, turns', ht, -, hrun, -, -⟩ :=
      hrun.lift simulates_store fun i => clientThread_conforms _ _
    exact ⟨t, turns', ht, hrun⟩

/-- **What a process that has been stopped has to go by.** -/
theorem Run.ending (hd : d.Holds s)
    (h : Run E faulty clock (initial ParseFromString d rounds messages) turns pr)
    (hflag : pr.flag = true) (hwatched : Lifecycle.Watched pr.main) :
    ∃ n m a b, pr.Ending n m a b
      ∧ ∑ i ∈ Finset.range m, (a i).calls + b.calls ≤ pr.movesLeft := by
  obtain ⟨_ | b, hb⟩ := h.paid (n := pr.frame.started + 1) (fun _ => ⟨none,
    Lifecycle.main_ending rounds, nofun, nofun, nofun⟩) (Nat.le_succ _)
  · exact absurd rfl (hb.installed (hb.flag hflag))
  obtain ⟨t, turns', hdatabase, hrun⟩ := h.serving hd (hb.flag hflag)
  have hthreads := threads_ending hrun (Nat.le_add_right t.clients.length pr.frame.started)
  choose hconforms a ha hcalls hcreations using hthreads
  -- a thread that was not created yet makes one call
  let a' : ℕ → Allowance := fun i => if i < pr.frame.started then a i else ⟨1, 0⟩
  have hlast : a' pr.frame.started = ⟨1, 0⟩ := if_neg (lt_irrefl _)
  have hcalls' := sum_range_succ_le Allowance.calls a' fun i hi =>
    (congrArg Allowance.calls (if_pos hi)).trans_le (hcalls i)
  have hcreations' := sum_range_succ_le Allowance.creations a' fun i hi =>
    (congrArg Allowance.creations (if_pos hi)).trans_le (hcreations i)
  rw [hlast] at hcalls' hcreations'
  refine ⟨t.clients.length + pr.frame.started, pr.frame.started + 1, a', b, ⟨hflag,
    h.kept kept_initial, ⟨t, hdatabase, ?_⟩, Nat.add_le_add_left (hb.bound b rfl).2 _, hb.main,
    hwatched, fun i => ?_, hconforms⟩, ?_⟩
  · exact Nat.add_le_add_left (hcreations'.trans_eq (Nat.mul_one _)) _
  · by_cases hi : i < pr.frame.started
    · exact (show a' i = a i from if_pos hi) ▸ ha i
    · rw [show a' i = ⟨1, 0⟩ from if_neg hi, h.waiting (fun _ _ => rfl) i (Nat.le_of_not_lt hi)]
      exact clientThread_ending _ one_pos
  · have hmain := (hb.bound b rfl).1
    have hlisted : (pr.database.rowsOf CLIENTS_TABLE_NAME).length = t.clients.length := by
      rw [hdatabase, Store.rowsOf_clients, List.length_map]
    have hsum : pr.frame.started + t.clients.length + 7
        = t.clients.length + pr.frame.started + 6 + 1 := by omega
    rw [movesLeft, hlisted, hsum, Nat.mul_succ]
    have hcalls' : _ ≤ pr.frame.started * (t.clients.length + pr.frame.started + 6) + 1 := hcalls'
    omega

/-- **A server that is stopped comes to its end**, whatever the order of the
moves: no more than so many are left, and there is one until `main` has returned
– or the process is terminated, which `threads_end_first` is about. That takes
that every call is answered: a connection that neither delivers a message nor
breaks keeps its thread, and so the process.

Both parts are needed: a bound on the moves says nothing about a process that
stands still, and a process that always has a move may go on forever. -/
theorem stopped_ends (hclock : ∃ now, clock now) (hd : d.Holds s)
    (h : Run E faulty clock (initial ParseFromString d rounds messages) turns pr)
    (hflag : pr.flag = true) (hwatched : Lifecycle.Watched pr.main) {moves : ℕ}
    (hmoves : Moves E faulty clock moves pr pr') :
    moves ≤ pr.movesLeft ∧ ((∃ pr'', Move E faulty clock pr' pr'') ∨ pr'.Over) := by
  obtain ⟨n, m, a, b, hending, hle⟩ := h.ending hd hflag hwatched
  obtain ⟨a', b', hending', hmoves⟩ := hending.moves hmoves
  exact ⟨hmoves.trans hle, hending'.progress hclock⟩

end Moves

/-- A server that has accepted one connection is followed until it looks at the
flag. -/
theorem accepting_watched : Lifecycle.Watched (accepting : MainProg Binary64 Bool) := by
  refine ⟨nofun, ?_⟩
  rintro (_ | _) looked rfl
  · exact Lifecycle.follows_looked _
  · have hbody : (((Prog.perform .size).bind fun size => Lifecycle.joinLoop size 0).bind
        fun _ => .ret true : MainProg Binary64 Bool).Conforms (fun c => c ≠ .unfollowed)
        (fun _ _ => True) fun _ => True :=
      Prog.Conforms.bind (Q := fun _ => True)
        ⟨nofun, fun size _ => Lifecycle.joinLoop_conforms (fun _ => nofun) size 0⟩
        fun _ _ => trivial
    have hdestroy : (Lifecycle.destroy : MainProg Binary64 Unit).Conforms
        (fun c => c ≠ .unfollowed) (fun _ _ => True) fun _ => True := by
      refine ⟨nofun, fun joinable _ => ?_⟩
      cases joinable with
      | true => exact ⟨nofun, nofun⟩
      | false => exact ⟨nofun, fun _ _ => trivial⟩
    have hcatch : (Prog.catchStd (((Prog.perform .size).bind fun size =>
        Lifecycle.joinLoop size 0).bind fun _ => .ret true) fun _ => .ret false :
          MainProg Binary64 Bool).Conforms (fun c => c ≠ .unfollowed) (fun _ _ => True)
          fun _ => True := by
      refine hbody.tryCatch fun ex => ?_
      cases ex <;> trivial
    have hend : ∀ success, (Lifecycle.destroy.bind fun _ => .ret success :
        MainProg Binary64 Bool).Conforms (fun c => c ≠ .unfollowed) (fun _ _ => True)
          fun _ => True := fun success => hdestroy.bind fun _ _ => trivial
    exact Lifecycle.follows_watched (hcatch.bind fun success _ => hend success) _

/-- In particular a server that has accepted one connection. -/
theorem stopped_ends_one :
    ∃ turns pr, Run (Engine.reference : Engine Binary64) False (fun _ => True)
        (initial (ClientPacket.ParseFromString binary64) [] 2 fun _ => 1) turns pr
      ∧ pr.flag = true
      ∧ ∀ moves pr', Moves (Engine.reference : Engine Binary64) False (fun _ => True) moves pr pr' →
        moves ≤ 17 ∧ ((∃ pr'', Move Engine.reference False (fun _ => True) pr' pr'')
          ∨ pr'.Over) := by
  have hrun := (exists_oneClient False fun _ => 1).append (.stopped rfl .done)
  refine ⟨_, _, hrun, rfl, fun moves pr' hmoves => ?_⟩
  exact stopped_ends ⟨0, trivial⟩ (show Database.Holds [] Store.empty from Or.inr ⟨rfl, Or.inl rfl⟩)
    hrun rfl accepting_watched hmoves

end Process
