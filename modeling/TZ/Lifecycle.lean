import Mathlib.Data.Finset.Insert
import TZ.Automata
import TZ.Rejected

/-!
# The server from its start to its end

`main` of the server, `Server::Server`, `Server::start` and `Server::stop`,
`SQLite::SQLite` and `SQLite::~SQLite`: the connection to the database is
opened, the tables are set up, and then the acceptor starts a thread for every
connection until Ctrl-C sets a flag; the threads are joined, and the connection
is closed when the global pointer to the server is destroyed. A move of the
process is one call of the main thread, one call of one of the threads, or a
Ctrl-C, and nothing is assumed about which move comes next.

A loop is followed for a given number of rounds. That of the acceptor does not
end when they are used up: its run is just not followed any further.

What is printed is left out, and so are the arguments of `main`. That memory
runs out is left out as well.
-/

open Server

variable {F : Type}

/-! ## What the main thread does -/

/-- **What the main thread asks of its surroundings.** -/
inductive MainCmd (F : Type) where
  /-- `sqlite3_open_v2`: whether it is `SQLITE_OK`. -/
  | sqlite3_open
  /-- A call of `Server::Server`. -/
  | server (c : Cmd F)
  /-- `std::signal`. -/
  | signal
  /-- `net::ip::make_address` and `tcp::acceptor`. -/
  | listen
  /-- `m_needExit`. -/
  | needExit
  /-- `std::this_thread::sleep_for`. -/
  | sleep
  /-- `acceptor.accept(socket)`. -/
  | accept
  /-- `m_threads.emplace_back(std::thread(...))`. -/
  | spawn
  /-- `m_threads.size()`. -/
  | size
  /-- `join()` of the `i`-th thread. -/
  | join (i : ℕ)
  /-- Whether a thread in `m_threads` is joinable. -/
  | joinable
  /-- `sqlite3_close_v2`. -/
  | sqlite3_close
  /-- `std::terminate`. -/
  | terminate
  /-- The run is not followed any further. -/
  | unfollowed

/-- The answers. -/
abbrev MainCmd.Resp {F : Type} : MainCmd F → Type
  | .sqlite3_open => Bool
  | .server c => c.Resp
  | .signal => Unit
  | .listen => Except Exc Unit
  | .needExit => Bool
  | .sleep => Unit
  | .accept => Except Exc Unit
  | .spawn => Except Exc Unit
  | .size => ℕ
  | .join _ => Unit
  | .joinable => Bool
  | .sqlite3_close => Unit
  | .terminate => Empty
  | .unfollowed => Empty

/-- A program of the main thread. -/
abbrev MainProg (F α : Type) := Prog (MainCmd F) MainCmd.Resp Exc α

namespace Lifecycle

/-- `SQLite::SQLite`. -/
def openSQLite : MainProg F Unit := do
  let res ← Prog.perform .sqlite3_open
  if res then .ret () else .throw (.exception "Can't create/open DB.")

/-- A program of the server as one of the main thread. -/
def inServer {α : Type} : ServerProg F α → MainProg F α
  | .ret a => .ret a
  | .throw ex => .throw ex
  | .call c k => .call (.server c) fun r => inServer (k r)

/-- What is left of `Server::Server` once the connection is open. If it throws,
`m_psqlite3` is destroyed. -/
def settingUp (p : ServerProg F Unit) : MainProg F Unit :=
  (inServer p).catchStd fun ex => do
    let _ ← Prog.perform .sqlite3_close
    .throw ex

/-- `Server::Server`. -/
def construct : MainProg F Unit := do
  openSQLite
  settingUp Server.construct

/-- The body of the loop that accepts connections. -/
def acceptOne : MainProg F Unit := do
  let _ ← Prog.perform .sleep
  Prog.tryCatch (do
    let _ ← .call .accept .ofExcept
    .call .spawn .ofExcept)
    fun ex => match ex with
      | .systemError _ => .ret ()
      | ex => .throw ex

/-- The loop that accepts connections. -/
def acceptLoop : ℕ → MainProg F Unit
  | 0 => .call .unfollowed Empty.elim
  | n + 1 => do
    let needExit ← Prog.perform .needExit
    if needExit then .ret ()
    else do
      acceptOne
      acceptLoop n

/-- The loop that joins the threads, from the `i`-th on. -/
def joinLoop : ℕ → ℕ → MainProg F Unit
  | 0, _ => .ret ()
  | n + 1, i => do
    let _ ← Prog.perform (.join i)
    joinLoop n (i + 1)

/-- `Server::start`. -/
def start (n : ℕ) : MainProg F Unit := do
  .call .listen .ofExcept
  acceptLoop n
  let size ← Prog.perform .size
  joinLoop size 0

/-- `Server::~Server`: `m_threads` is destroyed, which terminates the process if
a thread is joinable, and then `m_psqlite3`. -/
def destroy : MainProg F Unit := do
  let joinable ← Prog.perform .joinable
  if joinable then .call .terminate Empty.elim
  else .call .sqlite3_close .ret

/-- What is left of `main` once `g_pServer` is set: the rest of the `try` block,
and the destruction of `g_pServer` when `main` has returned. -/
def serve (n : ℕ) : MainProg F Bool := do
  let success ← Prog.catchStd (do
    let _ ← Prog.perform .signal
    start n
    .ret true) fun _ => .ret false
  destroy
  .ret success

/-- **`main`**, and whether it returns `EXIT_SUCCESS`. The `try` block is cut in
two at the statement that sets `g_pServer`. -/
def main (n : ℕ) : MainProg F Bool := do
  let pServer ← Prog.catchStd (do
    construct
    .ret true) fun _ => .ret false
  if pServer then serve n else .ret false

end Lifecycle

/-! ## The process -/

/-- The connection to the database. -/
inductive Handle where
  /-- There is none. -/
  | null
  /-- It is open. -/
  | opened
  /-- It could not be opened, but was allocated. -/
  | broken
  /-- It is closed. -/
  | closed

/-- **What the main thread has done**, as far as it matters what it does next. -/
structure Frame where
  /-- The connection to the database. -/
  handle : Handle
  /-- Whether Ctrl-C calls `Server::stop`. -/
  installed : Bool
  /-- The size of `m_threads`. -/
  started : ℕ
  /-- The threads that have been joined. -/
  joined : Finset ℕ
  /-- Whether a thread could not be created. -/
  lost : Bool

namespace Frame

/-- Before `main`. -/
def initial : Frame := ⟨.null, false, 0, ∅, false⟩

/-- Every thread has been joined. -/
def AllJoined (fr : Frame) : Prop := ∀ i < fr.started, i ∈ fr.joined

/-- **What the main thread may do.** -/
def Allows (fr : Frame) : MainCmd F → Prop
  | .sqlite3_open => fr.handle = .null
  | .server _ => fr.handle = .opened
  | .spawn => fr.handle = .opened
  | .join i => fr.handle = .opened ∧ i < fr.started ∧ i ∉ fr.joined
  | .sqlite3_close => fr.handle = .opened ∧ fr.AllJoined
  | .terminate => fr.lost = true ∧ ¬ fr.AllJoined
  | _ => True

/-- **What the answers mean.** A connection that could not be opened may have
been allocated. The exception of a thread that could not be created is not a
`beast::system_error`; those of the acceptor are. -/
def Next (fr : Frame) : (c : MainCmd F) → c.Resp → Frame → Prop
  | .sqlite3_open, r, fr' =>
    (r = true ∧ fr' = { fr with handle := .opened })
      ∨ (r = false ∧ (fr' = fr ∨ fr' = { fr with handle := .broken }))
  | .signal, _, fr' => fr' = { fr with installed := true }
  | .listen, r, fr' => (∀ ex, r = .error ex → ∃ what, ex = .systemError what) ∧ fr' = fr
  | .accept, r, fr' => (∀ ex, r = .error ex → ∃ what, ex = .systemError what) ∧ fr' = fr
  | .spawn, r, fr' =>
    (r = .ok () ∧ fr' = { fr with started := fr.started + 1 })
      ∨ ∃ what, r = .error (.exception what) ∧ fr' = { fr with lost := true }
  | .size, r, fr' => r = fr.started ∧ fr' = fr
  | .join i, _, fr' => fr' = { fr with joined := insert i fr.joined }
  | .joinable, r, fr' => (r = true ↔ ¬ fr.AllJoined) ∧ fr' = fr
  | .sqlite3_close, _, fr' => fr' = { fr with handle := .closed }
  | _, _, fr' => fr' = fr

/-- The calls that are of no consequence for what the main thread does next. -/
def Idle : MainCmd F → Prop
  | .sqlite3_open => False
  | .signal => False
  | .spawn => False
  | .join _ => False
  | .sqlite3_close => False
  | _ => True

theorem Next.eq {fr fr' : Frame} {c : MainCmd F} {r : c.Resp} (h : fr.Next c r fr')
    (hc : Idle c) : fr' = fr := by
  cases c with
  | listen => exact h.2
  | accept => exact h.2
  | size => exact h.2
  | joinable => exact h.2
  | terminate => exact r.elim
  | unfollowed => exact r.elim
  | sqlite3_open => exact hc.elim
  | signal => exact hc.elim
  | spawn => exact hc.elim
  | join i => exact hc.elim
  | sqlite3_close => exact hc.elim
  | _ => exact h

/-- No thread is forgotten. -/
theorem Next.started_le {fr fr' : Frame} {c : MainCmd F} {r : c.Resp} (h : fr.Next c r fr') :
    fr.started ≤ fr'.started := by
  cases c with
  | sqlite3_open => rcases h with ⟨-, rfl⟩ | ⟨-, rfl | rfl⟩ <;> exact le_rfl
  | spawn =>
    rcases h with ⟨-, rfl⟩ | ⟨_, -, rfl⟩
    · exact Nat.le_succ _
    · exact le_rfl
  | signal => exact (congrArg started h).ge
  | join i => exact (congrArg started h).ge
  | sqlite3_close => exact (congrArg started h).ge
  | _ => exact (congrArg started (h.eq trivial)).ge

/-- The handler of Ctrl-C stays installed. -/
theorem Next.installed {fr fr' : Frame} {c : MainCmd F} {r : c.Resp} (h : fr.Next c r fr')
    (hfr : fr.installed = true) : fr'.installed = true := by
  cases c with
  | sqlite3_open => rcases h with ⟨-, rfl⟩ | ⟨-, rfl | rfl⟩ <;> exact hfr
  | spawn => rcases h with ⟨-, rfl⟩ | ⟨_, -, rfl⟩ <;> exact hfr
  | signal => exact congrArg Frame.installed h
  | join i => exact (congrArg Frame.installed h).trans hfr
  | sqlite3_close => exact (congrArg Frame.installed h).trans hfr
  | _ => exact (congrArg Frame.installed (h.eq trivial)).trans hfr

/-- The protocol of the main thread. -/
def automaton : Automaton Frame (MainCmd F) MainCmd.Resp := ⟨Allows, Next⟩

end Frame

/-- **The process of a server.** -/
structure Process (F : Type) where
  /-- The file. -/
  database : Database F
  /-- `m_needExit`. -/
  flag : Bool
  /-- What the main thread has done. -/
  frame : Frame
  /-- What is left of the main thread. -/
  main : MainProg F Bool
  /-- What is left of each thread, and all of those that were not created yet. -/
  threads : ℕ → ServerProg F Unit

namespace Process

variable [Double F]

/-- Before `main`. The threads will serve so many messages each, unless they
have to end before. -/
def initial (ParseFromString : Bytes → Bool × ClientPacket F) (d : Database F) (rounds : ℕ)
    (messages : ℕ → ℕ) : Process F where
  database := d
  flag := false
  frame := .initial
  main := Lifecycle.main rounds
  threads i := clientThread ParseFromString (messages i)

/-- **What the rest of the process answers to the main thread**: whether the
flag is set, and that a thread has ended that is joined. -/
def Answers (E : Engine F) (faulty : Prop) (clock : Int → Prop) (pr : Process F) :
    (c : MainCmd F) → c.Resp → Database F → Prop
  | .server c, r, d' => handler E faulty clock pr.database c r d'
  | .needExit, r, d' => r = pr.flag ∧ d' = pr.database
  | .join i, _, d' => pr.threads i = .ret () ∧ d' = pr.database
  | _, _, d' => d' = pr.database

/-- What a thread sees of the flag. -/
def Sees (pr : Process F) : (c : Cmd F) → c.Resp → Prop
  | .needExit, r => r = pr.flag
  | _, _ => True

/-- The main thread has made a call. -/
def call (pr : Process F) (d : Database F) (fr : Frame) (p : MainProg F Bool) : Process F :=
  { pr with database := d, frame := fr, main := p }

/-- A thread has made a call. -/
def serve (pr : Process F) (i : ℕ) (d : Database F) (p : ServerProg F Unit) : Process F :=
  { pr with database := d, threads := Function.update pr.threads i p }

omit [Double F] in
@[simp] theorem serve_threads (pr : Process F) (i : ℕ) (d : Database F) (p : ServerProg F Unit) :
    (pr.serve i d p).threads i = p := Function.update_self _ _ _

omit [Double F] in
theorem serve_others (pr : Process F) {i j : ℕ} (d : Database F) (p : ServerProg F Unit)
    (hj : j ≠ i) : (pr.serve i d p).threads j = pr.threads j := Function.update_of_ne hj _ _

/-- `Server::stop`. -/
def stop (pr : Process F) : Process F := { pr with flag := true }

/-- **The runs of the process**, with the turns of the threads. -/
inductive Run (E : Engine F) (faulty : Prop) (clock : Int → Prop) :
    Process F → List (Turn ℕ (Database F) (Cmd F) Cmd.Resp) → Process F → Prop
  /-- Nothing happens. -/
  | done {pr : Process F} : Run E faulty clock pr [] pr
  /-- The main thread makes its next call. -/
  | called {pr pr' : Process F} {c : MainCmd F} {k : c.Resp → MainProg F Bool} {r : c.Resp}
      {d : Database F} {fr : Frame} {turns : List (Turn ℕ (Database F) (Cmd F) Cmd.Resp)}
      (hp : pr.main = .call c k) (hfr : pr.frame.Next c r fr)
      (hc : pr.Answers E faulty clock c r d)
      (rest : Run E faulty clock (pr.call d fr (k r)) turns pr') :
      Run E faulty clock pr turns pr'
  /-- A thread makes its next call. -/
  | served {pr pr' : Process F} {i : ℕ} {c : Cmd F} {k : c.Resp → ServerProg F Unit}
      {r : c.Resp} {d : Database F} {turns : List (Turn ℕ (Database F) (Cmd F) Cmd.Resp)}
      (hi : i < pr.frame.started) (hp : pr.threads i = .call c k)
      (hc : handler E faulty clock pr.database c r d) (hflag : pr.Sees c r)
      (rest : Run E faulty clock (pr.serve i d (k r)) turns pr') :
      Run E faulty clock pr ((i, ⟨pr.database, c, r, d⟩) :: turns) pr'
  /-- Ctrl-C. -/
  | stopped {pr pr' : Process F} {turns : List (Turn ℕ (Database F) (Cmd F) Cmd.Resp)}
      (hinstalled : pr.frame.installed = true) (rest : Run E faulty clock pr.stop turns pr') :
      Run E faulty clock pr turns pr'

end Process

/-! ## The protocol of the main thread -/

namespace Lifecycle

/-- **How the main thread ends.** Every thread has been joined, and the
connection is closed – unless it could not be opened. -/
def Ended (fr : Frame) : Except Exc Bool → Prop
  | .ok success => fr.AllJoined ∧ (fr.lost = true → fr.started = 0 ∧ success = false)
    ∧ (fr.handle = .closed ∨ (success = false ∧ fr.started = 0 ∧ fr.handle ≠ .opened))
  | .error ex => ex = .nullString ∧ fr.started = 0

/-- The connection is open, and no thread has been joined. -/
structure Serving (fr : Frame) : Prop where
  /-- The connection is open. -/
  handle : fr.handle = .opened
  /-- No thread has been joined. -/
  joined : fr.joined = ∅

/-- A loop that joins threads has joined those before the `i`-th. -/
structure Joining (i : ℕ) (fr : Frame) : Prop where
  /-- The connection is open. -/
  handle : fr.handle = .opened
  /-- Every thread could be created. -/
  lost : fr.lost = false
  /-- Those before the `i`-th have been joined. -/
  joined : ∀ j, j ∈ fr.joined ↔ j < i

theorem joinLoop_follows (n i : ℕ) {fr : Frame} (hfr : Joining i fr) (hn : fr.started = i + n) :
    (joinLoop n i : MainProg F Unit).Follows Frame.automaton
      (fun fr x => x = .ok () ∧ Joining fr.started fr) fr := by
  induction n generalizing i fr with
  | zero => exact ⟨rfl, hn ▸ hfr⟩
  | succ n ih =>
    refine ⟨⟨hfr.handle, by omega, fun h => absurd ((hfr.joined i).mp h) (lt_irrefl i)⟩, ?_⟩
    rintro - fr' rfl
    refine ih (i + 1) ⟨hfr.handle, hfr.lost, fun j => ?_⟩ (by rw [hn]; omega)
    rw [Finset.mem_insert, hfr.joined]
    omega

/-- What accepting connections comes to: a thread could not be created if it
throws. -/
def Accepted (fr : Frame) (x : Except Exc Unit) : Prop :=
  Serving fr ∧ (x = .ok () ∧ fr.lost = false
    ∨ ∃ what, x = .error (.exception what) ∧ fr.lost = true)

theorem acceptOne_follows {fr : Frame} (hfr : Serving fr) (hlost : fr.lost = false) :
    (acceptOne : MainProg F Unit).Follows Frame.automaton Accepted fr := by
  refine ⟨trivial, ?_⟩
  rintro - fr rfl
  refine Prog.Follows.tryCatch (P := fun fr x => Serving fr ∧ (x = .ok () ∧ fr.lost = false
    ∨ (∃ what, x = .error (.systemError what)) ∧ fr.lost = false
    ∨ ∃ what, x = .error (.exception what) ∧ fr.lost = true)) ?_ ?_ ?_
  · refine Prog.Follows.bind (P := fun fr' x => fr' = fr ∧ ∀ ex, x = .error ex →
      ∃ what, ex = .systemError what) (Prog.Follows.ofExcept trivial ?_) ?_ ?_
    · rintro r fr' ⟨herr, rfl⟩
      exact ⟨rfl, herr⟩
    · rintro fr' - ⟨rfl, -⟩
      refine Prog.Follows.ofExcept hfr.handle ?_
      rintro r fr'' (⟨rfl, rfl⟩ | ⟨what, rfl, rfl⟩)
      · exact ⟨⟨hfr.handle, hfr.joined⟩, Or.inl ⟨rfl, hlost⟩⟩
      · exact ⟨⟨hfr.handle, hfr.joined⟩, Or.inr (Or.inr ⟨what, rfl, rfl⟩)⟩
    · rintro fr' ex ⟨rfl, herr⟩
      obtain ⟨what, rfl⟩ := herr ex rfl
      exact ⟨hfr, Or.inr (Or.inl ⟨⟨what, rfl⟩, hlost⟩)⟩
  · rintro fr' _ ⟨hfr', ⟨-, hlost'⟩ | ⟨⟨_, h⟩, -⟩ | ⟨_, h, -⟩⟩
    · exact ⟨hfr', Or.inl ⟨rfl, hlost'⟩⟩
    · cases h
    · cases h
  · rintro fr' ex ⟨hfr', ⟨h, -⟩ | ⟨⟨what, h⟩, hlost'⟩ | ⟨what, h, hlost'⟩⟩
    · cases h
    · cases h
      exact ⟨hfr', Or.inl ⟨rfl, hlost'⟩⟩
    · cases h
      exact ⟨hfr', Or.inr ⟨what, rfl, hlost'⟩⟩

theorem acceptLoop_follows (n : ℕ) {fr : Frame} (hfr : Serving fr) (hlost : fr.lost = false) :
    (acceptLoop n : MainProg F Unit).Follows Frame.automaton Accepted fr := by
  induction n generalizing fr with
  | zero => exact ⟨trivial, nofun⟩
  | succ n ih =>
    refine ⟨trivial, ?_⟩
    rintro (_ | _) fr rfl
    · show (acceptOne.bind fun _ => acceptLoop n : MainProg F Unit).Follows _ _ _
      refine Prog.Follows.bind (acceptOne_follows hfr hlost) ?_ fun _ _ h => ?_
      · rintro fr' _ ⟨hfr', ⟨-, hlost'⟩ | ⟨_, h, -⟩⟩
        · exact ih hfr' hlost'
        · cases h
      · obtain ⟨hfr', ⟨h, -⟩ | ⟨what, h, hlost'⟩⟩ := h
        · cases h
        · cases h
          exact ⟨hfr', Or.inr ⟨what, rfl, hlost'⟩⟩
    · exact ⟨hfr, Or.inl ⟨rfl, hlost⟩⟩

/-- **What `start` comes to**: every thread has been joined, or, if it throws,
there is none or one could not be created. -/
def Finished (fr : Frame) (x : Except Exc Unit) : Prop :=
  (x = .ok () ∧ Joining fr.started fr)
    ∨ ∃ ex, x = .error ex ∧ ex ≠ .nullString ∧ Serving fr ∧ (fr.lost = true ∨ fr.started = 0)

theorem start_follows (n : ℕ) {fr : Frame} (hfr : Serving fr) (hlost : fr.lost = false)
    (hstarted : fr.started = 0) :
    (start n : MainProg F Unit).Follows Frame.automaton Finished fr := by
  refine Prog.Follows.bind (P := fun fr' x => fr' = fr ∧ ∀ ex, x = .error ex →
    ∃ what, ex = .systemError what) (Prog.Follows.ofExcept trivial fun r fr' h => ⟨h.2, h.1⟩)
    ?_ ?_
  · rintro fr - ⟨rfl, -⟩
    refine Prog.Follows.bind (acceptLoop_follows n hfr hlost) ?_ ?_
    · rintro fr' _ ⟨hfr', ⟨-, hlost'⟩ | ⟨_, h, -⟩⟩
      · refine ⟨trivial, ?_⟩
        rintro - fr' ⟨rfl, rfl⟩
        refine (joinLoop_follows fr'.started 0 ⟨hfr'.handle, hlost', fun j => ?_⟩
          (Nat.zero_add _).symm).mono fun _ _ h => Or.inl h
        rw [hfr'.joined]
        simp
      · cases h
    · rintro fr' ex ⟨hfr', ⟨h, -⟩ | ⟨what, h, hlost'⟩⟩
      · cases h
      · cases h
        exact Or.inr ⟨_, rfl, nofun, hfr', Or.inl hlost'⟩
  · rintro fr ex ⟨rfl, herr⟩
    obtain ⟨what, rfl⟩ := herr ex rfl
    exact Or.inr ⟨_, rfl, nofun, hfr, Or.inr hstarted⟩

theorem serve_follows (n : ℕ) {fr : Frame} (hfr : Serving fr) (hlost : fr.lost = false)
    (hstarted : fr.started = 0) :
    (serve n : MainProg F Bool).Follows Frame.automaton Ended fr := by
  have hbody : (Prog.catchStd (do
      let _ ← Prog.perform .signal
      start n
      .ret true) fun _ => .ret false : MainProg F Bool).Follows Frame.automaton
      (fun fr x => ∃ success, x = .ok success ∧ (Joining fr.started fr
        ∨ (success = false ∧ Serving fr ∧ (fr.lost = true ∨ fr.started = 0)))) fr := by
    refine ⟨trivial, ?_⟩
    rintro - fr' rfl
    show (Prog.catchStd ((start n).bind fun _ => .ret true) fun _ => .ret false :
      MainProg F Bool).Follows _ _ _
    refine Prog.Follows.tryCatch (P := fun fr x => (x = .ok true ∧ Joining fr.started fr)
      ∨ ∃ ex, x = .error ex ∧ ex ≠ .nullString ∧ Serving fr ∧ (fr.lost = true ∨ fr.started = 0))
      (Prog.Follows.bind (start_follows n ⟨hfr.handle, hfr.joined⟩ hlost hstarted) ?_ ?_) ?_ ?_
    · rintro fr' _ (⟨-, hfr'⟩ | ⟨_, h, -⟩)
      · exact Or.inl ⟨rfl, hfr'⟩
      · cases h
    · rintro fr' ex (⟨h, -⟩ | ⟨_, h, hend⟩)
      · cases h
      · cases h
        exact Or.inr ⟨ex, rfl, hend⟩
    · rintro fr' success (⟨h, hfr'⟩ | ⟨_, h, -⟩)
      · exact ⟨success, rfl, Or.inl hfr'⟩
      · cases h
    · rintro fr' ex (⟨h, -⟩ | ⟨_, h, hne, hfr', hend⟩)
      · cases h
      · cases h
        cases ex with
        | nullString => exact absurd rfl hne
        | _ => exact ⟨false, rfl, Or.inr ⟨rfl, hfr', hend⟩⟩
  refine Prog.Follows.bind hbody ?_ ?_
  · rintro fr success ⟨_, h, hfr⟩
    cases h
    have hhandle : fr.handle = .opened := hfr.elim Joining.handle fun h => h.2.1.handle
    refine ⟨trivial, ?_⟩
    rintro (_ | _) fr' ⟨hr, rfl⟩
    · have hall : fr'.AllJoined := by simpa using hr
      refine ⟨⟨hhandle, hall⟩, ?_⟩
      rintro - fr rfl
      refine ⟨hall, fun hlost => ?_, Or.inl rfl⟩
      rcases hfr with hfr | ⟨hfalse, hfr, -⟩
      · exact absurd (hfr.lost.symm.trans hlost) Bool.false_ne_true
      · refine ⟨Nat.eq_zero_of_not_pos fun hpos => ?_, hfalse⟩
        have hmem := hall 0 hpos
        rw [hfr.joined] at hmem
        cases hmem
    · have hnot : ¬ fr'.AllJoined := hr.mp rfl
      refine ⟨⟨?_, hnot⟩, nofun⟩
      rcases hfr with hfr | ⟨-, -, hlost | hzero⟩
      · exact absurd (fun i hi => (hfr.joined i).mpr hi) hnot
      · exact hlost
      · exact absurd (fun i hi => absurd hi (by omega)) hnot
  · rintro fr ex ⟨_, h, -⟩
    cases h

theorem settingUp_follows (p : ServerProg F Unit) {fr : Frame} (hhandle : fr.handle = .opened)
    (hstarted : fr.started = 0) :
    (settingUp p).Follows Frame.automaton (fun fr' x => (x = .ok () ∧ fr' = fr)
      ∨ ∃ ex, x = .error ex ∧ ((ex = .nullString ∧ fr' = fr)
        ∨ (ex ≠ .nullString ∧ fr' = { fr with handle := .closed }))) fr := by
  induction p with
  | ret a => exact Or.inl ⟨rfl, rfl⟩
  | throw ex =>
    have hclose : (Prog.call .sqlite3_close fun _ => .throw ex : MainProg F Unit).Follows
        Frame.automaton (fun fr' x => x = .error ex ∧ fr' = { fr with handle := .closed }) fr := by
      refine ⟨⟨hhandle, fun i hi => absurd hi (by omega)⟩, ?_⟩
      rintro - fr' rfl
      exact ⟨rfl, rfl⟩
    cases ex with
    | nullString => exact Or.inr ⟨_, rfl, Or.inl ⟨rfl, rfl⟩⟩
    | _ => exact hclose.mono fun _ _ h => Or.inr ⟨_, h.1, Or.inr ⟨nofun, h.2⟩⟩
  | call c k ih =>
    refine ⟨hhandle, ?_⟩
    rintro r fr' rfl
    exact ih r

/-- What is left of `main` while the tables are set up. -/
def booting (n : ℕ) (p : ServerProg F Unit) : MainProg F Bool :=
  (Prog.catchStd ((settingUp p).bind fun _ => .ret true) fun _ => .ret false).bind
    fun pServer => if pServer then serve n else .ret false

theorem booting_follows (n : ℕ) (p : ServerProg F Unit) {fr : Frame}
    (hfr : Serving fr) (hlost : fr.lost = false) (hstarted : fr.started = 0) :
    (booting n p).Follows Frame.automaton Ended fr := by
  refine Prog.Follows.bind (P := fun fr' x => (x = .ok true ∧ fr' = fr)
    ∨ (x = .ok false ∧ fr' = { fr with handle := .closed })
    ∨ (x = .error .nullString ∧ fr' = fr)) (Prog.Follows.tryCatch
      (P := fun fr' x => (x = .ok true ∧ fr' = fr) ∨ ∃ ex, x = .error ex
        ∧ ((ex = .nullString ∧ fr' = fr)
          ∨ (ex ≠ .nullString ∧ fr' = { fr with handle := .closed })))
      (Prog.Follows.bind (settingUp_follows p hfr.handle hstarted) ?_ ?_) ?_ ?_) ?_ ?_
  · rintro fr' _ (⟨-, rfl⟩ | ⟨_, h, -⟩)
    · exact Or.inl ⟨rfl, rfl⟩
    · cases h
  · rintro fr' ex (⟨h, -⟩ | ⟨_, h, hend⟩)
    · cases h
    · cases h
      exact Or.inr ⟨ex, rfl, hend⟩
  · rintro fr' a (h | ⟨_, h, -⟩)
    · exact Or.inl h
    · cases h
  · rintro fr' ex (⟨h, -⟩ | ⟨_, h, ⟨rfl, rfl⟩ | ⟨hne, rfl⟩⟩)
    · cases h
    · cases h
      exact Or.inr (Or.inr ⟨rfl, rfl⟩)
    · cases h
      cases ex with
      | nullString => exact absurd rfl hne
      | _ => exact Or.inr (Or.inl ⟨rfl, rfl⟩)
  · rintro fr' a (⟨h, rfl⟩ | ⟨h, rfl⟩ | ⟨h, -⟩)
    · cases h
      exact serve_follows n hfr hlost hstarted
    · cases h
      exact ⟨fun i hi => absurd hi (by rw [hstarted]; omega), fun _ => ⟨hstarted, rfl⟩,
        Or.inl rfl⟩
    · cases h
  · rintro fr' ex (⟨h, -⟩ | ⟨h, -⟩ | ⟨h, rfl⟩)
    · cases h
    · cases h
    · cases h
      exact ⟨rfl, hstarted⟩

/-- **The main thread keeps to its protocol.** -/
theorem main_follows (n : ℕ) :
    (main n : MainProg F Bool).Follows Frame.automaton Ended Frame.initial := by
  refine ⟨rfl, ?_⟩
  rintro r fr (⟨rfl, rfl⟩ | ⟨rfl, h⟩)
  · exact booting_follows n Server.construct ⟨rfl, rfl⟩ rfl rfl
  · rcases h with rfl | rfl
    · exact ⟨fun i hi => absurd hi (Nat.not_lt_zero i), nofun, Or.inr ⟨rfl, rfl, nofun⟩⟩
    · exact ⟨fun i hi => absurd hi (Nat.not_lt_zero i), nofun, Or.inr ⟨rfl, rfl, nofun⟩⟩

end Lifecycle
