import TZ.Concurrency
import TZ.Sending

/-!
# Clients, server, and what is between them

Every client has a connection of its own, for which the server runs a thread.
A connection carries messages in both directions and keeps them in order; it
may break at any moment, and then a call that uses it throws. A move of the
network is one call of a thread or one call of a client, and nothing is assumed
about which move comes next.

The two sides share only what they say to each other, so an assertion about
the whole network is one about every connection, with its thread and its
client, and the store (`Network.Run.rely_guarantee`).
-/

open Server Protobuf

/-! ## Connections -/

/-- **One direction of a connection**: the messages that have been written to it,
and how many of them have been read. -/
structure Channel where
  /-- The messages, in order. -/
  written : List Bytes
  /-- How many have been read. -/
  taken : ℕ

namespace Channel

/-- Nothing has been written yet. -/
def empty : Channel := ⟨[], 0⟩

/-- A message is added. -/
def push (ch : Channel) (buffer : Bytes) : Channel :=
  { ch with written := ch.written ++ [buffer] }

/-- A message is read. -/
def take (ch : Channel) : Channel := { ch with taken := ch.taken + 1 }

/-- **What `write` does.** If it throws, the message has been written or it has
not. -/
inductive Writes {α : Type} (buffer : Bytes) : Channel → Except Exc α → Channel → Prop
  /-- The message is written. -/
  | sent {ch : Channel} (a : α) : Writes buffer ch (.ok a) (ch.push buffer)
  /-- The connection breaks. -/
  | broken {ch ch' : Channel} (what : String) (h : ch' = ch ∨ ch' = ch.push buffer) :
      Writes buffer ch (.error (.systemError what)) ch'

/-- **What `read` does.** -/
inductive Reads : Channel → Except Exc Bytes → Channel → Prop
  /-- The next message is read. -/
  | received {ch : Channel} {buffer : Bytes} (h : ch.written[ch.taken]? = some buffer) :
      Reads ch (.ok buffer) ch.take
  /-- The connection breaks. -/
  | broken {ch : Channel} (what : String) : Reads ch (.error (.systemError what)) ch

variable {ch ch' : Channel} {buffer : Bytes}

theorem Writes.written {α : Type} {r : Except Exc α} (h : Writes buffer ch r ch') :
    ch'.taken = ch.taken
      ∧ (ch'.written = ch.written ∨ ch'.written = ch.written ++ [buffer]) := by
  cases h with
  | sent a => exact ⟨rfl, Or.inr rfl⟩
  | broken what h =>
    rcases h with rfl | rfl
    · exact ⟨rfl, Or.inl rfl⟩
    · exact ⟨rfl, Or.inr rfl⟩

theorem Reads.written {r : Except Exc Bytes} (h : Reads ch r ch') :
    ch'.written = ch.written := by
  cases h <;> rfl

end Channel

/-- A connection: what goes to the server, and what comes back; and what the
client has seen on its clock meanwhile. -/
structure Connection where
  /-- From the client to the server. -/
  up : Channel
  /-- From the server to the client. -/
  down : Channel
  /-- What the clock of the client has shown. -/
  clock : List Int

namespace Connection

/-- A new connection. -/
def empty : Connection := ⟨.empty, .empty, []⟩

variable {F : Type} [Double F]

/-- **What a call of a thread does to its connection.** -/
def Serves (W : Writer F) (x : Connection) : (c : Cmd F) → c.Resp → Connection → Prop
  | .read, r, x' => ∃ up, x.up.Reads r up ∧ x' = { x with up := up }
  | .write stats, r, x' =>
    ∃ down, x.down.Writes (stats.SerializeAsString W.toRuntime) r down
      ∧ x' = { x with down := down }
  | _, _, x' => x' = x

/-- **What a call of a client does to its connection**, and what it is answered.
The generator of coordinates yields values of `drawn`. -/
def Answers (drawn : F → Prop) (x : Connection) :
    (c : ClientCmd F) → c.Resp → Connection → Prop
  | .now, r, x' => (-2 ^ 63 ≤ r ∧ r < 2 ^ 63) ∧ x' = { x with clock := x.clock ++ [r] }
  | .interval, r, x' => (Client.INTERVAL_MIN ≤ r ∧ r ≤ Client.INTERVAL_MAX) ∧ x' = x
  | .coordinate, r, x' => drawn r ∧ x' = x
  | .sleep, _, x' => x' = x
  | .needExit, _, x' => x' = x
  | .write buffer, r, x' => ∃ up, x.up.Writes buffer r up ∧ x' = { x with up := up }
  | .read, r, x' => ∃ down, x.down.Reads r down ∧ x' = { x with down := down }

end Connection

/-! ## The network -/

/-- **What a client is started for.** -/
inductive Role where
  /-- It sends packets, for at most so many rounds of its loop. -/
  | sender (uuid : Uuid) (rounds : ℕ)
  /-- It asks for the statistics. -/
  | asker

/-- The state of the network: the file of the server, the connections, and what
is left of every thread and of every client. -/
structure Network (ι F : Type) where
  /-- The file. -/
  database : Database F
  /-- The connections. -/
  connections : ι → Connection
  /-- The threads. -/
  threads : ι → ServerProg F Unit
  /-- The clients, with what they print. -/
  clients : ι → ClientProg F (Option Bytes)

variable {ι F : Type} [DecidableEq ι]

namespace Network

/-- A thread has made a call. -/
def serve (N : Network ι F) (i : ι) (d : Database F) (x : Connection) (p : ServerProg F Unit) :
    Network ι F where
  database := d
  connections := Function.update N.connections i x
  threads := Function.update N.threads i p
  clients := N.clients

/-- A client has made a call. -/
def answer (N : Network ι F) (i : ι) (x : Connection) (p : ClientProg F (Option Bytes)) :
    Network ι F where
  database := N.database
  connections := Function.update N.connections i x
  threads := N.threads
  clients := Function.update N.clients i p

@[simp] theorem serve_connections (N : Network ι F) (i : ι) (d : Database F) (x : Connection)
    (p : ServerProg F Unit) : (N.serve i d x p).connections i = x := Function.update_self _ _ _

@[simp] theorem serve_threads (N : Network ι F) (i : ι) (d : Database F) (x : Connection)
    (p : ServerProg F Unit) : (N.serve i d x p).threads i = p := Function.update_self _ _ _

@[simp] theorem answer_connections (N : Network ι F) (i : ι) (x : Connection)
    (p : ClientProg F (Option Bytes)) : (N.answer i x p).connections i = x :=
  Function.update_self _ _ _

@[simp] theorem answer_clients (N : Network ι F) (i : ι) (x : Connection)
    (p : ClientProg F (Option Bytes)) : (N.answer i x p).clients i = p :=
  Function.update_self _ _ _

theorem serve_others (N : Network ι F) {i j : ι} (d : Database F) (x : Connection)
    (p : ServerProg F Unit) (hj : j ≠ i) : (N.serve i d x p).connections j = N.connections j :=
  Function.update_of_ne hj _ _

theorem answer_others (N : Network ι F) {i j : ι} (x : Connection)
    (p : ClientProg F (Option Bytes)) (hj : j ≠ i) :
    (N.answer i x p).connections j = N.connections j := Function.update_of_ne hj _ _

/-- The second of two calls of a thread overwrites what the first has left. -/
theorem serve_serve (N : Network ι F) (i : ι) (d d' : Database F) (x x' : Connection)
    (p p' : ServerProg F Unit) : (N.serve i d x p).serve i d' x' p' = N.serve i d' x' p' := by
  unfold serve
  dsimp only
  rw [Function.update_idem, Function.update_idem]

theorem answer_answer (N : Network ι F) (i : ι) (x x' : Connection)
    (p p' : ClientProg F (Option Bytes)) : (N.answer i x p).answer i x' p' = N.answer i x' p' := by
  unfold answer
  dsimp only
  rw [Function.update_idem, Function.update_idem]

theorem serve_self (N : Network ι F) (i : ι) :
    N.serve i N.database (N.connections i) (N.threads i) = N := by
  unfold serve
  rw [Function.update_eq_self, Function.update_eq_self]

theorem answer_self (N : Network ι F) (i : ι) :
    N.answer i (N.connections i) (N.clients i) = N := by
  unfold answer
  rw [Function.update_eq_self, Function.update_eq_self]

end Network

variable [Double F]

/-- The client of `main`: the statistics it prints, if it was started for them. -/
def Role.prog (W : Writer F) (to_string : F → Bytes) : Role → ClientProg F (Option Bytes)
  | .sender uuid rounds => (Client.start W uuid rounds).bind fun _ => .ret none
  | .asker => (Client.getStatistics W to_string).bind fun text => .ret (some text)

namespace Network

/-- **The network at its start.** A client that connects later is one that has
not made a call yet. -/
def start (W : Writer F) (to_string : F → Bytes) (d : Database F) (roles : ι → Role)
    (messages : ι → ℕ) : Network ι F where
  database := d
  connections _ := .empty
  threads i := clientThread (ClientPacket.ParseFromString W.toRuntime) (messages i)
  clients i := (roles i).prog W to_string

/-- **The runs of the network**, with the turns of the threads. -/
inductive Run (H : Handler (Database F) (Cmd F) Cmd.Resp) (W : Writer F) (drawn : F → Prop) :
    Network ι F → List (Turn ι (Database F) (Cmd F) Cmd.Resp) → Network ι F → Prop
  /-- Nothing happens. -/
  | done {N : Network ι F} : Run H W drawn N [] N
  /-- A thread makes its next call. -/
  | served {N M : Network ι F} {i : ι} {c : Cmd F} {k : c.Resp → ServerProg F Unit} {r : c.Resp}
      {d : Database F} {x : Connection} {turns : List (Turn ι (Database F) (Cmd F) Cmd.Resp)}
      (hp : N.threads i = .call c k) (h : H N.database c r d)
      (hx : (N.connections i).Serves W c r x) (rest : Run H W drawn (N.serve i d x (k r)) turns M) :
      Run H W drawn N ((i, ⟨N.database, c, r, d⟩) :: turns) M
  /-- A client makes its next call. -/
  | answered {N M : Network ι F} {i : ι} {c : ClientCmd F}
      {k : c.Resp → ClientProg F (Option Bytes)} {r : c.Resp} {x : Connection}
      {turns : List (Turn ι (Database F) (Cmd F) Cmd.Resp)} (hp : N.clients i = .call c k)
      (hx : (N.connections i).Answers drawn c r x)
      (rest : Run H W drawn (N.answer i x (k r)) turns M) :
      Run H W drawn N turns M

namespace Run

variable {H : Handler (Database F) (Cmd F) Cmd.Resp} {W : Writer F} {drawn : F → Prop}
  {N M L : Network ι F} {turns turns' : List (Turn ι (Database F) (Cmd F) Cmd.Resp)}

/-- Runs compose. -/
theorem append (h : Run H W drawn N turns M) (h' : Run H W drawn M turns' L) :
    Run H W drawn N (turns ++ turns') L := by
  induction h with
  | done => exact h'
  | served hp hc hx _ ih => exact .served hp hc hx (ih h')
  | answered hp hx _ ih => exact .answered hp hx (ih h')

/-- **The server sees a run of its threads**, whatever the clients do. -/
theorem interleaved (h : Run H W drawn N turns M) :
    Interleaved H N.threads N.database turns M.threads M.database := by
  induction h with
  | done => exact .nil
  | served hp hc hx _ ih => exact .cons hp hc ih
  | answered hp hx _ ih => exact ih

/-- **A client by itself**: the network waits for it. -/
theorem client_alone {i : ι} {p q : ClientProg F (Option Bytes)} {x x' : Connection}
    {es : List (Event Connection (ClientCmd F) ClientCmd.Resp)}
    (h : Steps (fun x c r x' => Connection.Answers drawn x c r x') Eq p x es q x')
    (hp : N.clients i = p) (hx : N.connections i = x) : Run H W drawn N [] (N.answer i x' q) := by
  induction h generalizing N with
  | done hr =>
    subst hr hp hx
    rw [answer_self]
    exact .done
  | @own c k x x₁ x₂ x' r es q hr hc _ ih =>
    subst hr hx
    have hrest := ih (answer_clients N i x₂ (k r)) (answer_connections N i x₂ (k r))
    rw [answer_answer] at hrest
    exact .answered hp hc hrest

/-- **A thread by itself**, as long as it uses the database only. -/
theorem thread_alone {i : ι} {p q : ServerProg F Unit} {d d' : Database F}
    {es : List (Event (Database F) (Cmd F) Cmd.Resp)} (h : Steps H Eq p d es q d')
    (hp : N.threads i = p) (hd : N.database = d)
    (hes : ∀ e ∈ es, SaveCall e.cmd ∨ ReadCall e.cmd) :
    Run H W drawn N (es.map (Prod.mk i)) (N.serve i d' (N.connections i) q) := by
  induction h generalizing N with
  | done hr =>
    subst hr hp hd
    rw [serve_self]
    exact .done
  | @own c k d d₁ d₂ d' r es q hr hc _ ih =>
    subst hr hd
    obtain ⟨hcall, hes⟩ := List.forall_mem_cons.mp hes
    have hx : (N.connections i).Serves W c r (N.connections i) := by
      have hcall : SaveCall c ∨ ReadCall c := hcall
      rcases hcall with hcall | hcall <;> cases hcall <;> rfl
    have hrest := ih (serve_threads N i d₂ (N.connections i) (k r)) rfl hes
    rw [serve_connections, serve_serve] at hrest
    exact .served hp hc hx hrest

/-- **A run goes through the state before each turn.** -/
theorem split_at {e : Turn ι (Database F) (Cmd F) Cmd.Resp}
    (h : Run H W drawn N (turns ++ e :: turns') M) :
    ∃ L, Run H W drawn N turns L ∧ L.database = e.2.pre ∧ Run H W drawn L (e :: turns') M := by
  generalize hall : turns ++ e :: turns' = all at h
  induction h generalizing turns with
  | done => cases turns <;> cases hall
  | @served N M i c k r d x all hp hc hx rest ih =>
    cases turns with
    | nil =>
      cases hall
      exact ⟨N, .done, rfl, .served hp hc hx rest⟩
    | cons e' turns =>
      obtain ⟨rfl, htail⟩ := List.cons.inj hall
      obtain ⟨L, hbefore, hrest⟩ := ih htail
      exact ⟨L, .served hp hc hx hbefore, hrest⟩
  | answered hp hx _ ih =>
    obtain ⟨L, hbefore, hrest⟩ := ih hall
    exact ⟨L, .answered hp hx hbefore, hrest⟩

end Run

/-! ## Assertions about the network -/

/-- **An assertion about the network**: one about the store of its file, and one
about each connection, with its thread and its client, and the store. -/
def Satisfies (I : Store F → Prop)
    (J : ι → Store F → Connection → ServerProg F Unit → ClientProg F (Option Bytes) → Prop)
    (N : Network ι F) : Prop :=
  ∃ s : Store F, N.database = s.toDatabase ∧ I s
    ∧ ∀ i, J i s (N.connections i) (N.threads i) (N.clients i)

variable {E : Engine F} {faulty : Prop} {clock : Int → Prop} {W : Writer F} {drawn : F → Prop}
  {N M : Network ι F} {turns : List (Turn ι (Database F) (Cmd F) Cmd.Resp)}

/-- **The rely-guarantee rule of the network.** A call of a thread keeps what is
asserted of its own connection, and moves the store by `G`, which keeps what is
asserted of the others; a call of a client keeps what is asserted of its
connection. -/
theorem Run.rely_guarantee {I : Store F → Prop}
    {J : ι → Store F → Connection → ServerProg F Unit → ClientProg F (Option Bytes) → Prop}
    {G : ι → Store F → Store F → Prop}
    (hcall : ∀ i s x c k q, J i s x (.call c k) q → ServerCall c)
    (hserve : ∀ i s x c k q r s' x', I s → J i s x (.call c k) q →
      storeHandler E faulty clock s c r s' → x.Serves W c r x' →
      I s' ∧ J i s' x' (k r) q ∧ G i s s')
    (hanswer : ∀ i s x p c k r x', J i s x p (.call c k) → x.Answers drawn c r x' →
      J i s x' p (k r))
    (hstable : ∀ i j s s' x p q, i ≠ j → I s → J j s x p q → G i s s' → J j s' x p q)
    (hN : N.Satisfies I J) (h : Run (handler E faulty clock) W drawn N turns M) :
    M.Satisfies I J := by
  induction h with
  | done => exact hN
  | @served N M i c k r d x turns hp hc hx _ ih =>
    obtain ⟨s, hd, hI, hJ⟩ := hN
    rw [hd] at hc
    have hi := hJ i
    rw [hp] at hi
    obtain ⟨-, s', rfl, -⟩ := handler_store (hcall _ _ _ _ _ _ hi) hc
    obtain ⟨hI', hi', hG⟩ := hserve i s _ c k _ r s' x hI hi hc hx
    refine ih ⟨s', rfl, hI', fun j => ?_⟩
    show J j s' (Function.update N.connections i x j) (Function.update N.threads i (k r) j)
      (N.clients j)
    by_cases hj : j = i
    · subst hj
      rw [Function.update_self, Function.update_self]
      exact hi'
    · rw [Function.update_of_ne hj, Function.update_of_ne hj]
      exact hstable i j s s' _ _ _ (Ne.symm hj) hI (hJ j) hG
  | @answered N M i c k r x turns hp hx _ ih =>
    obtain ⟨s, hd, hI, hJ⟩ := hN
    have hi := hJ i
    rw [hp] at hi
    refine ih ⟨s, hd, hI, fun j => ?_⟩
    show J j s (Function.update N.connections i x j) (N.threads j)
      (Function.update N.clients i (k r) j)
    by_cases hj : j = i
    · subst hj
      rw [Function.update_self, Function.update_self]
      exact hanswer j s _ _ c k r x hi hx
    · rw [Function.update_of_ne hj, Function.update_of_ne hj]
      exact hJ j

end Network
