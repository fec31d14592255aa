import TZ.Network

/-!
# What a client has sent is stored

The packets of a client pass its own program, the wire, a connection, the loop
of a thread, and up to four calls on a database that other threads use at the
same time. What comes out at the other end is what went in: the rows of a
client are a prefix of the packets it has sent, in the order it sent them,
each of them once, whichever calls fail (`packets_delivered`). A packet that is
read is stored before the next one is read, so only the packet that is being
saved may be missing – and if no call fails, none is lost, because no other
client has the same uuid.

This is the one statement that is about the whole system: two programs, with a wire
between them that may break, and a database that many threads share. None of its parts
is in a state of which one could say that the packets so far are stored. The sender is
ahead of the connection, the connection of the thread, and the thread of the database.
The invariant is therefore about three numbers: of the packets that were *sent*, so many
were *taken* by the thread, and so many are *stored*. They only grow, each is at most
the one before it, and the last two differ by at most one (`Delivering`).

That other clients are at work at the same time is dealt with by saying what they do and
not when: whatever a thread does, it touches the rows of one uuid (`Store.Touches`), and
what is said of other uuids stays as it is. So every thread keeps its own invariant and
does not break that of another, and the invariants can be proved one connection at a
time, as in rely-guarantee reasoning (`Role.Asserts.others`).
-/

open Server Protobuf

variable {F : Type} [Double F]

/-! ## What a store says of a uuid

A packet is a row with an id, and the id belongs to a client with a uuid. The sender
knows nothing of ids. `Store.said` says what the rows say in terms of the uuid, in the
order in which they were inserted. -/

namespace Store

/-- What the rows of the client of a uuid say. -/
def said (s : Store F) (uuid : Bytes) : List (Sample F) :=
  (s.find uuid).elim [] fun c => s.samplesOf c.id

/-- **What the saves of one client do to a store**: nothing, or they add the
client, or they add a packet of it.

The three cases are all that a thread can do in one step, whatever it is in
the middle of. -/
inductive Touches (uuid : Bytes) (s : Store F) : Store F → Prop
  /-- Nothing is added. -/
  | nothing : Touches uuid s s
  /-- The client is added. -/
  | client {s' : Store F} (h : s.find uuid = none) (hadds : s.AddsClient s' uuid) :
      Touches uuid s s'
  /-- A packet of the client is added. -/
  | packet {s' : Store F} {id : Int} {data : ClientPacket.Data F} (hc : ⟨id, uuid⟩ ∈ s.clients)
      (hadds : s.AddsPacket s' id data) : Touches uuid s s'

variable {s s' : Store F} {uuid u : Bytes}

theorem Touches.grows (h : s.Touches uuid s') : s.Grows s' := by
  cases h with
  | nothing => exact .refl s
  | client h hadds => exact hadds.grows
  | packet hc hadds => exact hadds.grows

/-- Every row keeps its client. -/
theorem Touches.owned (h : s.Touches uuid s') (hs : s.Owned) : s'.Owned := by
  cases h with
  | nothing => exact hs
  | client h hadds =>
    obtain ⟨id, hcs, hps⟩ := hadds
    intro p hp
    rw [hcs, List.map_append]
    exact List.mem_append_left _ (hs p (hps ▸ hp))
  | packet hc hadds =>
    obtain ⟨id, hcs, hps⟩ := hadds
    intro p hp
    rw [hps, List.mem_append, List.mem_singleton] at hp
    rw [hcs]
    rcases hp with hp | rfl
    · exact hs p hp
    · exact List.mem_map_of_mem hc

/-- Only the client of the uuid is added. -/
theorem Touches.clients (h : s.Touches uuid s') {c : Client} (hc : c ∈ s'.clients) :
    c ∈ s.clients ∨ c.uuid = uuid := by
  cases h with
  | nothing => exact Or.inl hc
  | client h hadds =>
    obtain ⟨id, hcs, -⟩ := hadds
    rw [hcs, List.mem_append, List.mem_singleton] at hc
    exact hc.imp_right fun h => congrArg Client.uuid h
  | packet hc' hadds =>
    obtain ⟨id, hcs, -⟩ := hadds
    exact Or.inl (hcs ▸ hc)

/-- **The clients of other uuids are found as before.** -/
theorem Touches.find_others (h : s.Touches uuid s') (hu : u ≠ uuid) : s'.find u = s.find u := by
  cases h with
  | nothing => rfl
  | client h hadds =>
    obtain ⟨id, hcs, -⟩ := hadds
    have hnew : [(⟨id, uuid⟩ : Client)].find? (fun c => c.uuid = u) = none :=
      List.find?_cons_of_neg (by simpa using hu.symm)
    unfold find
    rw [hcs, List.find?_append, hnew, Option.or_none]
  | packet hc hadds =>
    obtain ⟨id, hcs, -⟩ := hadds
    unfold find
    rw [hcs]

/-- **What is said of other uuids stays as it is.**

Another client may be added, and this may not take the id of one that is
there; that ids are distinct is part of the store. -/
theorem Touches.said_others (h : s.Touches uuid s') (hu : u ≠ uuid) : s'.said u = s.said u := by
  have hfind := h.find_others hu
  unfold said
  rw [hfind]
  cases hc : s.find u with
  | none => rfl
  | some c =>
    show s'.samplesOf c.id = s.samplesOf c.id
    cases h with
    | nothing => rfl
    | client h hadds =>
      obtain ⟨id, -, hps⟩ := hadds
      unfold samplesOf
      rw [hps]
    | packet hmem hadds =>
      obtain ⟨id, -, hps⟩ := hadds
      obtain ⟨hc, huuid⟩ := s.find_eq_some_iff.mp hc
      unfold samplesOf
      rw [hps, List.filter_append, List.filter_singleton]
      rename_i clientId data
      have hne : clientId ≠ c.id := fun heq =>
        hu (huuid.symm.trans (congrArg Client.uuid
          (List.inj_on_of_nodup_map s.ids_nodup hc hmem heq.symm)))
      rw [decide_eq_false hne]
      exact congrArg _ (List.append_nil _)

/-- Of a new client nothing is said.

The id of a new client is one that no packet has, because every packet has its
client. Otherwise a new client would inherit rows. -/
theorem said_addsClient (hs : s.Owned) (hnone : s.find uuid = none)
    (hadds : s.AddsClient s' uuid) : s'.said uuid = s.said uuid := by
  obtain ⟨c, hc⟩ := Saving.AddsClient.find hadds
  obtain ⟨id, hcs, hps⟩ := hadds
  have hid : c ∉ s.clients.map Client.id := by
    have hmem := (s'.find_eq_some_iff.mp hc).1
    have hnodup := s'.ids_nodup
    rw [hcs, List.mem_append, List.mem_singleton] at hmem
    rw [hcs, List.map_append, List.nodup_append] at hnodup
    rcases hmem with hmem | hmem
    · rw [find_eq_none_iff] at hnone
      exact absurd (List.mem_map_of_mem (f := Client.uuid) hmem) hnone
    · obtain ⟨rfl, -⟩ := Client.mk.inj hmem
      exact fun h => hnodup.2.2 _ h _ List.mem_cons_self rfl
  unfold said
  rw [hc, hnone]
  show s'.samplesOf c = []
  unfold samplesOf
  rw [List.map_eq_nil_iff, List.filter_eq_nil_iff, hps]
  exact fun p hp hpid => hid (of_decide_eq_true hpid ▸ hs p hp)

/-- **A new packet is said last.**

SQLite lists rows in an order of its own, but the store keeps them in the
order of insertion, and this is about the store. -/
theorem said_addsPacket {id : Int} {data : ClientPacket.Data F} (hc : ⟨id, uuid⟩ ∈ s.clients)
    (hadds : s.AddsPacket s' id data) : s'.said uuid = s.said uuid ++ [data.sample] := by
  obtain ⟨packetId, hcs, hps⟩ := hadds
  have hfind : s.find uuid = some ⟨id, uuid⟩ := s.find_eq_some_iff.mpr ⟨hc, rfl⟩
  have hfind' : s'.find uuid = some ⟨id, uuid⟩ := s'.find_eq_some_iff.mpr ⟨hcs ▸ hc, rfl⟩
  unfold said
  rw [hfind, hfind']
  show s'.samplesOf id = s.samplesOf id ++ [data.sample]
  unfold samplesOf
  rw [hps, List.filter_append, List.map_append, List.filter_singleton, decide_eq_true rfl]
  rfl

end Store

/-- **What a step of a save does to what is said of its uuid**: the step that adds
the packet adds what it says. -/
theorem Saving.Step.said {faulty : Prop} {data : ClientPacket.Data F} {phase phase' : Saving.Phase}
    {s s' : Store F} (h : Saving.Step faulty data phase s phase' s') (hs : s.Owned)
    (hknown : phase.Known data s) :
    s.Touches (cstr data.uuid) s'
      ∧ (phase' = .stored ∧ s'.said (cstr data.uuid) = s.said (cstr data.uuid) ++ [data.sample]
        ∨ phase' ≠ .stored ∧ s'.said (cstr data.uuid) = s.said (cstr data.uuid)) := by
  cases h with
  | registered hnone hadds =>
    exact ⟨.client hnone hadds, Or.inr ⟨nofun, Store.said_addsClient hs hnone hadds⟩⟩
  | stored hx hy hadds =>
    exact ⟨.packet hknown hadds, Or.inl ⟨rfl, Store.said_addsPacket hknown hadds⟩⟩
  | _ => exact ⟨.nothing, Or.inr ⟨nofun, rfl⟩⟩

/-- What a save that will not throw knows is not changed by the saves of
others.

A save that has found no client will add it, and that is clear only as long as
nobody else adds the same. With distinct uuids nobody does. -/
theorem Saving.Phase.Clear.others {data : ClientPacket.Data F} {phase : Saving.Phase}
    {s s' : Store F} {uuid : Bytes} (h : phase.Clear s data) (htouch : s.Touches uuid s')
    (huuid : cstr data.uuid ≠ uuid) : phase.Clear s' data := by
  have hfind := htouch.find_others huuid
  cases phase with
  | registering => exact hfind.trans h
  | lookingAgain =>
    obtain ⟨c, hc⟩ := h
    exact ⟨c, hfind.trans hc⟩
  | _ => exact h

/-! ## The thread of a sender

The thread is a program with a loop and a handler for exceptions around it. It is
followed by what is left of it, which has one of four forms; in each of them it is
known how many packets were taken and how many are stored. -/

namespace Server

section Thread

variable (ParseFromString : Bytes → Bool × ClientPacket F)

/-- The `try` block of a thread. -/
def inTry (p : ServerProg F Unit) : ServerProg F Unit := p.catchStd fun _ => .ret ()

/-- The loop when it has not been asked to end. -/
def readMessage (n : ℕ) : ServerProg F Unit := do
  let buffer ← .call .read .ofExcept
  handleMessage ParseFromString buffer
  messageLoop ParseFromString n

/-- **What is left of the thread of a sender** that has read `taken` of the
packets that were `sent`, and has stored `stored` of them.

If calls may fail, a save may end the thread with the packet taken and not
stored. That is the case in which the two numbers differ when it has ended,
and it can happen once, since the thread reads no more. -/
inductive Serving (faulty : Prop) (sent : List (ClientPacket.Data F)) (taken : ℕ) (s : Store F) :
    ℕ → ServerProg F Unit → Prop
  /-- It is about to ask whether to end. -/
  | waiting (n : ℕ) :
      Serving faulty sent taken s taken (inTry (messageLoop ParseFromString n))
  /-- It is about to read. -/
  | reading (n : ℕ) :
      Serving faulty sent taken s taken (inTry (readMessage ParseFromString n))
  /-- It is saving the packet it has read last. -/
  | saving {stored : ℕ} {data : ClientPacket.Data F} {phase : Saving.Phase} (n : ℕ)
      (htaken : taken = stored + 1) (hdata : sent[stored]? = some data)
      (hphase : phase ≠ .stored ∧ ∀ what, phase ≠ .failed what)
      (hknown : phase.Known data.received s) (hclear : ¬ faulty → phase.Clear s data.received) :
      Serving faulty sent taken s stored
        (inTry ((phase.prog data.received).bind fun _ => messageLoop ParseFromString n))
  /-- It has ended. -/
  | ended {stored : ℕ} (hle : stored ≤ taken) (hge : taken ≤ stored + 1)
      (hclear : ¬ faulty → stored = taken) : Serving faulty sent taken s stored (.ret ())

variable {ParseFromString} {faulty : Prop} {sent : List (ClientPacket.Data F)}
  {taken stored : ℕ} {s s' : Store F} {p : ServerProg F Unit}

/-- The packet that has been read last is the only one that may not have been
stored. -/
theorem Serving.bounds (h : Serving ParseFromString faulty sent taken s stored p) :
    stored ≤ taken ∧ taken ≤ stored + 1 := by
  cases h with
  | waiting n => exact ⟨le_rfl, Nat.le_succ _⟩
  | reading n => exact ⟨le_rfl, Nat.le_succ _⟩
  | saving n htaken _ _ _ _ => omega
  | ended hle hge _ => exact ⟨hle, hge⟩

/-- It is not concerned by what is sent meanwhile.

The sender may be far ahead; what it sends next is appended. -/
theorem Serving.push (h : Serving ParseFromString faulty sent taken s stored p)
    (data : ClientPacket.Data F) :
    Serving ParseFromString faulty (sent ++ [data]) taken s stored p := by
  cases h with
  | waiting n => exact .waiting n
  | reading n => exact .reading n
  | saving n htaken hdata hphase hknown hclear =>
    refine .saving n htaken ?_ hphase hknown hclear
    rw [List.getElem?_append_left (List.getElem?_eq_some_iff.mp hdata).1]
    exact hdata
  | ended hle hge hclear => exact .ended hle hge hclear

/-- And not by the saves of other clients. -/
theorem Serving.others {uuid u : Bytes}
    (h : Serving ParseFromString faulty sent taken s stored p)
    (hsent : ∀ data ∈ sent, cstr data.received.uuid = uuid) (hu : uuid ≠ u)
    (htouch : s.Touches u s') : Serving ParseFromString faulty sent taken s' stored p := by
  cases h with
  | waiting n => exact .waiting n
  | reading n => exact .reading n
  | saving n htaken hdata hphase hknown hclear =>
    have huuid := hsent _ (List.mem_of_getElem? hdata)
    exact .saving n htaken hdata hphase (hknown.grows htouch.grows)
      fun hf => (hclear hf).others htouch (huuid ▸ hu)
  | ended hle hge hclear => exact .ended hle hge hclear

omit [Double F] in
/-- **The call of a thread that is saving** is a step of the save. -/
theorem inTry_saving {data : ClientPacket.Data F} {phase : Saving.Phase} {rest : ServerProg F Unit}
    {c : Cmd F} {k : c.Resp → ServerProg F Unit}
    (hp : inTry ((phase.prog data).bind fun _ => rest) = .call c k)
    (hphase : phase ≠ .stored ∧ ∀ what, phase ≠ .failed what) :
    ∃ k' : c.Resp → ServerProg F Unit, phase.prog data = .call c k'
      ∧ ∀ r, k r = inTry ((k' r).bind fun _ => rest) := by
  cases hprog : phase.prog data with
  | ret a =>
    cases phase with
    | stored => exact absurd rfl hphase.1
    | failed what => exact absurd rfl (hphase.2 what)
    | _ => cases hprog
  | throw ex =>
    cases phase with
    | stored => exact absurd rfl hphase.1
    | failed what => exact absurd rfl (hphase.2 what)
    | _ => cases hprog
  | call c' k' =>
    rw [hprog] at hp
    cases hp
    exact ⟨k', rfl, fun r => rfl⟩

/-- A thread makes only the calls the server makes. -/
theorem Serving.serverCall {c : Cmd F} {k : c.Resp → ServerProg F Unit}
    (h : Serving ParseFromString faulty sent taken s stored (.call c k)) : ServerCall c := by
  generalize hp : Prog.call c k = p at h
  cases h with
  | waiting n =>
    cases n with
    | zero => cases hp
    | succ n =>
      cases hp
      exact .needExit
  | reading n =>
    cases hp
    exact .read
  | @saving _ data phase n _ _ hphase _ _ =>
    obtain ⟨k', hprog, -⟩ := inTry_saving hp.symm hphase
    have hcall := Saving.Phase.calls data.received phase
    rw [hprog] at hcall
    exact hcall.1.saveCall.serverCall
  | ended hle hge hclear => cases hp

/-- **A thread is idle** when it is between two packets, or has ended. -/
def Idle (p : ServerProg F Unit) : Prop :=
  (∃ k, p = .call .needExit k) ∨ (∃ k, p = .call .read k) ∨ p = .ret ()

/-- An idle thread has stored all it has read, if no call fails. -/
theorem Serving.idle (h : Serving ParseFromString faulty sent taken s stored p) (hp : Idle p)
    (hf : ¬ faulty) : stored = taken := by
  cases h with
  | waiting n => rfl
  | reading n => rfl
  | @saving _ data phase n _ _ hphase _ _ =>
    have hcall : ∀ {c : Cmd F} {k : c.Resp → ServerProg F Unit},
        inTry ((phase.prog data.received).bind fun _ => messageLoop ParseFromString n)
          = .call c k → Saving.CallOf data.received c := by
      intro c k hp
      obtain ⟨k', hprog, -⟩ := inTry_saving hp hphase
      have hcall := Saving.Phase.calls data.received phase
      rw [hprog] at hcall
      exact hcall.1
    rcases hp with ⟨k, hp⟩ | ⟨k, hp⟩ | hp
    · cases hcall hp
    · cases hcall hp
    · cases phase with
      | stored => exact absurd rfl hphase.1
      | failed what => exact absurd rfl (hphase.2 what)
      | _ => cases hp
  | ended _ _ hclear => exact hclear hf

variable {E : Engine F} {clock : Int → Prop} {W : Writer F} {drawn : F → Prop} {uuid : Uuid}
  {At : W.Stream → List (List UInt8) → Prop} {double : F → List UInt8} {maxSize : ℕ}

/-- **A step of the thread of a sender.** It reads the next packet, or stores the
one it has read, or does neither; it touches only the rows of its client.

One case for each of the four forms. The packet that is stored is the one that
was read last, and it is the next one in the order of sending, since the
connection keeps the order. -/
theorem Serving.step (hW : W.Lawful At double maxSize)
    (hstorable : ∀ data, Client.Sends drawn uuid data → Storable data.received)
    {c : Cmd F} {k : c.Resp → ServerProg F Unit} {r : c.Resp} {x x' : Connection}
    (h : Serving (ClientPacket.ParseFromString W.toRuntime) faulty sent x.up.taken s stored
      (.call c k))
    (hsent : ∀ data ∈ sent, Client.Sends drawn uuid data)
    (hwritten : x.up.written = sent.map (Client.bytes W)) (htaken : x.up.taken ≤ sent.length)
    (hs : s.Owned) (hc : storeHandler E faulty clock s c r s') (hx : x.Serves W c r x') :
    x'.up.written = x.up.written ∧ x'.up.taken ≤ sent.length
      ∧ s.Touches uuid.to_string s'
      ∧ ∃ stored', Serving (ClientPacket.ParseFromString W.toRuntime) faulty sent x'.up.taken s'
          stored' (k r)
        ∧ (stored' = stored ∧ s'.said uuid.to_string = s.said uuid.to_string
          ∨ stored' = stored + 1 ∧ ∃ data, sent[stored]? = some data
            ∧ s'.said uuid.to_string
              = s.said uuid.to_string ++ [data.received.sample]) := by
  generalize hp : Prog.call c k = p at h
  generalize htook : x.up.taken = taken at h
  cases h with
  | waiting n =>
    cases n with
    | zero => cases hp
    | succ n =>
      cases hp
      have hd : s' = s := Store.toDatabase_injective hc
      have hx : x' = x := hx
      subst hd hx
      refine ⟨rfl, htaken, .nothing, stored, ?_, Or.inl ⟨rfl, rfl⟩⟩
      rw [htook]
      cases r with
      | true => exact .ended le_rfl (Nat.le_succ _) fun _ => rfl
      | false => exact .reading n
  | reading n =>
    cases hp
    have hd : s' = s := Store.toDatabase_injective hc.2
    subst hd
    obtain ⟨up, hread, rfl⟩ := hx
    cases hread with
    | broken what =>
      refine ⟨rfl, htaken, .nothing, stored, ?_, Or.inl ⟨rfl, rfl⟩⟩
      exact .ended (htook ▸ le_rfl) (htook ▸ Nat.le_succ _) fun _ => htook.symm
    | @received buffer hbuffer =>
      rw [hwritten, List.getElem?_map, Option.map_eq_some_iff] at hbuffer
      obtain ⟨data, hdata, rfl⟩ := hbuffer
      refine ⟨rfl, (List.getElem?_eq_some_iff.mp hdata).1, .nothing, stored, ?_,
        Or.inl ⟨rfl, rfl⟩⟩
      rw [htook] at hdata
      have hparse := Client.parse_bytes hW (hsent _ (List.mem_of_getElem? hdata))
      have hlooking : Saving.Phase.looking ≠ .stored
          ∧ ∀ what, Saving.Phase.looking ≠ .failed what := ⟨nofun, nofun⟩
      have hhandle : handleMessage (ClientPacket.ParseFromString W.toRuntime)
          (Client.bytes W data) = Saving.Phase.looking.prog data.received := by
        rw [← Saving.saveClientPacket_eq data.received ClientPacket.DATA]
        unfold handleMessage
        rw [hparse]
        rfl
      show Serving _ faulty sent (x.up.taken + 1) s' stored
        (inTry ((handleMessage (ClientPacket.ParseFromString W.toRuntime)
          (Client.bytes W data)).bind fun _ => messageLoop _ n))
      rw [hhandle]
      exact .saving n (congrArg (· + 1) htook) hdata hlooking trivial fun _ => trivial
  | @saving _ data phase n htaken' hdata hphase hknown hclear =>
    have hmem := hsent _ (List.mem_of_getElem? hdata)
    obtain ⟨k', hprog, hk⟩ := inTry_saving hp.symm hphase
    have hx : x' = x := by
      have hcall := Saving.Phase.calls data.received phase
      rw [hprog] at hcall
      obtain ⟨hcall, -⟩ := hcall
      cases hcall <;> exact hx
    subst hx
    obtain ⟨phase', hk', hstep⟩ := Saving.step hprog hc
    obtain ⟨htouch, hsaid⟩ := hstep.said hs hknown
    rw [hmem.cstr_received] at htouch hsaid
    have hclear' : ¬ faulty → phase'.Clear s' data.received := by
      intro hf
      obtain rfl : faulty = False := eq_false hf
      exact hstep.clear (hclear hf) (hstorable data hmem)
    refine ⟨rfl, htaken, htouch, ?_⟩
    rw [hk, hk', htook]
    rcases hsaid with ⟨rfl, hsaid⟩ | ⟨hne, hsaid⟩
    · refine ⟨stored + 1, ?_, Or.inr ⟨rfl, data, hdata, hsaid⟩⟩
      rw [← htaken']
      exact .waiting n
    · refine ⟨stored, ?_, Or.inl ⟨rfl, hsaid⟩⟩
      cases phase' with
      | stored => exact absurd rfl hne
      | failed what =>
        exact .ended (by omega) (by omega) fun hf => (hclear' hf).elim
      | _ => exact .saving n htaken' hdata ⟨nofun, nofun⟩ hstep.known hclear'
  | ended hle hge hclear => cases hp

end Thread

end Server

/-! ## The thread of one that asks

Its messages are requests, so it only lists. That it writes to no table is all that
the others need to know of it. -/

namespace Server

/-- The calls that do not write to a table. -/
def Quiet : Cmd F → Prop
  | .createTable .. => False
  | .insertOne .. => False
  | _ => True

theorem Quiet.store_eq {E : Engine F} {faulty : Prop} {clock : Int → Prop} {c : Cmd F}
    (h : Quiet c) (hc : ServerCall c) {s s' : Store F} {r : c.Resp}
    (hr : storeHandler E faulty clock s c r s') : s' = s := by
  have hr : handler E faulty clock s.toDatabase c r s'.toDatabase := hr
  refine Store.toDatabase_injective ?_
  cases hc with
  | lookup uuid => exact (Store.handler_lookup hr).1
  | addClient uuid => exact h.elim
  | addPacket clientId data => exact h.elim
  | listClients => exact (Store.handler_listClients hr).1
  | listPackets clientId => exact (Store.handler_listPackets hr).1
  | now => exact hr.2
  | needExit => exact hr
  | read => exact hr.2
  | write stats => exact hr.2

omit [Double F] in
theorem quiet_of_readCall {c : Cmd F} (h : ReadCall c) : Quiet c := by
  cases h <;> trivial

/-- **A thread whose messages hold no packets writes to no table.** -/
theorem clientThread_quiet {ParseFromString : Bytes → Bool × ClientPacket F}
    {Received : Bytes → Prop}
    (hdata : ∀ buffer, Received buffer → (ParseFromString buffer).2.data = none) (n : ℕ) :
    (clientThread ParseFromString n).Conforms (fun c => ServerCall c ∧ Quiet c)
      (Hears Received) (fun _ => True) := by
  have hhandle : ∀ buffer, Received buffer →
      (handleMessage ParseFromString buffer).Conforms (fun c => ServerCall c ∧ Quiet c)
        (Hears Received) (fun _ => True) := by
    intro buffer hreceived
    have hdata := hdata buffer hreceived
    unfold handleMessage handlePacket
    dsimp only
    split_ifs
    · unfold saveClientPacket
      rw [hdata]
      trivial
    · exact (Collecting.collectStatistics_reads.mono
        (fun c h => ⟨h.serverCall, quiet_of_readCall h⟩) (fun _ _ _ => trivial)
        (fun _ _ => trivial)).bind fun stats _ =>
          ⟨⟨.write stats, trivial⟩, fun r _ => .ofExcept fun _ _ => trivial⟩
    · trivial
  have hloop : (messageLoop ParseFromString n).Conforms (fun c => ServerCall c ∧ Quiet c)
      (Hears Received) (fun _ => True) := by
    induction n with
    | zero => trivial
    | succ n ih =>
      refine ⟨⟨.needExit, trivial⟩, fun needExit _ => ?_⟩
      cases needExit with
      | true => trivial
      | false =>
        refine ⟨⟨.read, trivial⟩, fun r hr => ?_⟩
        cases r with
        | error ex => trivial
        | ok buffer => exact (hhandle buffer hr).bind fun _ _ => ih
  refine hloop.tryCatch fun ex => ?_
  cases ex <;> trivial

end Server

/-! ## The whole network

The state is that of all clients, connections and threads, and the database. The
invariant has a part for the store and a part for each connection, which depends on
the role of its client. -/

variable {ι : Type} [DecidableEq ι]

/-- The uuid of the packets a client sends, if it sends any. -/
def Role.uuid : Role → Option Uuid
  | .sender uuid _ => some uuid
  | .asker => none

/-- **What is true of the connection of a sender**: what it has sent, what of that
has been read, and what of that has been stored.

The sent packets are not determined by the bytes, so they are quantified here
once for both conditions. -/
structure Delivering (W : Writer F) (drawn : F → Prop) (faulty : Prop) (uuid : Uuid)
    (base : List (Sample F)) (s : Store F) (x : Connection) (p : ServerProg F Unit)
    (q : ClientProg F (Option Bytes)) : Prop where
  /-- The client sends packets of its own. -/
  client : q.Conforms (Client.Writing W drawn uuid) (Client.Draws drawn) (fun _ => True)
  /-- They are read in order, and their rows are in the same order. -/
  flow : ∃ sent stored, x.up.written = sent.map (Client.bytes W)
    ∧ (∀ data ∈ sent, Client.Sends drawn uuid data) ∧ x.up.taken ≤ sent.length
    ∧ Serving (ClientPacket.ParseFromString W.toRuntime) faulty sent x.up.taken s stored p
    ∧ s.said uuid.to_string
      = base ++ (sent.take stored).map fun data => data.received.sample

/-- What is true of the connection of one that asks: its request is all it has
sent, and its thread writes to no table. -/
structure Asked (W : Writer F) (drawn : F → Prop) (x : Connection) (p : ServerProg F Unit)
    (q : ClientProg F (Option Bytes)) : Prop where
  /-- The client sends requests. -/
  client : q.Conforms (Client.Asking W) (Client.Draws drawn) (fun _ => True)
  /-- It has sent nothing else. -/
  requests : ∀ buffer ∈ x.up.written,
    buffer = (Client.request : ClientPacket F).SerializeAsString W
  /-- The thread writes to no table. -/
  thread : p.Conforms (fun c => ServerCall c ∧ Quiet c)
    (Hears fun buffer => buffer = (Client.request : ClientPacket F).SerializeAsString W)
    (fun _ => True)

/-- What is true of a connection, by the role of its client. -/
def Role.Asserts (W : Writer F) (drawn : F → Prop) (faulty : Prop) (s₀ : Store F) :
    Role → Store F → Connection → ServerProg F Unit → ClientProg F (Option Bytes) → Prop
  | .sender uuid _, s, x, p, q =>
    Delivering W drawn faulty uuid (s₀.said uuid.to_string) s x p q
  | .asker, _, x, p, q => Asked W drawn x p q

/-- What the thread of a client does to the store. -/
def Role.Touches : Role → Store F → Store F → Prop
  | .sender uuid _, s, s' => s.Touches uuid.to_string s'
  | .asker, s, s' => s' = s

/-- **What is true of the store**: every row has its client, and nothing has
happened to the rows of anyone who is not a sender.

Of senders nothing is said here, as their rows are the matter of their own
connections. -/
structure Kept (roles : ι → Role) (s₀ s : Store F) : Prop where
  /-- Every row has its client. -/
  owned : s.Owned
  /-- Of others the same is said as before. -/
  others : ∀ u, (∀ i uuid, (roles i).uuid = some uuid → u ≠ uuid.to_string) →
    s.said u = s₀.said u
  /-- Only senders have been added. -/
  clients : ∀ c ∈ s.clients, c ∈ s₀.clients
    ∨ ∃ i uuid, (roles i).uuid = some uuid ∧ c.uuid = uuid.to_string

omit [DecidableEq ι] in
theorem Role.Asserts.delivering {W : Writer F} {drawn : F → Prop} {faulty : Prop} {role : Role}
    {s₀ s : Store F} {x : Connection} {p : ServerProg F Unit} {q : ClientProg F (Option Bytes)}
    {uuid : Uuid} (h : role.Asserts W drawn faulty s₀ s x p q) (hrole : role.uuid = some uuid) :
    Delivering W drawn faulty uuid (s₀.said uuid.to_string) s x p q := by
  cases role with
  | asker => cases hrole
  | sender uuid' rounds =>
    cases hrole
    exact h

section Moves

variable {W : Writer F} {drawn : F → Prop} {faulty : Prop} {E : Engine F} {clock : Int → Prop}
  {At : W.Stream → List (List UInt8) → Prop} {double : F → List UInt8} {maxSize : ℕ}
  {roles : ι → Role} {s₀ s s' : Store F} {x x' : Connection} {p : ServerProg F Unit}
  {q : ClientProg F (Option Bytes)}

omit [DecidableEq ι] in
/-- The saves of a sender keep what is true of the store. -/
theorem Kept.touches {i : ι} (h : Kept roles s₀ s) (ht : (roles i).Touches s s') :
    Kept roles s₀ s' := by
  cases hrole : roles i with
  | asker =>
    rw [hrole] at ht
    exact (show s' = s from ht) ▸ h
  | sender uuid rounds =>
    rw [hrole] at ht
    have ht : s.Touches uuid.to_string s' := ht
    have huuid : (roles i).uuid = some uuid := by rw [hrole]; rfl
    refine ⟨ht.owned h.owned, fun u hu => ?_, fun c hc => ?_⟩
    · exact (ht.said_others (hu i uuid huuid)).trans (h.others u hu)
    · rcases ht.clients hc with hc | hc
      · exact h.clients c hc
      · exact Or.inr ⟨i, uuid, huuid, hc⟩

/-- **A call of a thread** keeps what is true of its connection.

The two things that are proved are the guarantee of a thread: its own part of
the invariant, and that it touches only its own rows. -/
theorem Role.Asserts.serve (hW : W.Lawful At double maxSize)
    (hstorable : ∀ uuid data, Client.Sends drawn uuid data → Storable data.received)
    {role : Role} {c : Cmd F} {k : c.Resp → ServerProg F Unit} {r : c.Resp}
    (h : role.Asserts W drawn faulty s₀ s x (.call c k) q) (hs : s.Owned)
    (hc : storeHandler E faulty clock s c r s') (hx : x.Serves W c r x') :
    role.Asserts W drawn faulty s₀ s' x' (k r) q ∧ role.Touches s s' := by
  cases role with
  | sender uuid rounds =>
    obtain ⟨hclient, sent, stored, hwritten, hsent, htaken, hserving, hsaid⟩ := h
    obtain ⟨hup, htaken', htouch, stored', hserving', hstored⟩ :=
      hserving.step hW (hstorable uuid) hsent hwritten htaken hs hc hx
    refine ⟨⟨hclient, sent, stored', hup.trans hwritten, hsent, htaken', hserving', ?_⟩, htouch⟩
    rcases hstored with ⟨rfl, hsame⟩ | ⟨rfl, data, hdata, hnew⟩
    · exact hsame.trans hsaid
    · rw [hnew, hsaid, List.take_add_one, hdata, List.map_append, List.append_assoc]
      rfl
  | asker =>
    obtain ⟨hclient, hrequests, hthread⟩ := h
    obtain ⟨⟨hcall, hquiet⟩, hrest⟩ := hthread
    obtain rfl := hquiet.store_eq hcall hc
    refine ⟨?_, rfl⟩
    have hup : x'.up.written = x.up.written ∧ Hears (fun buffer =>
        buffer = (Client.request : ClientPacket F).SerializeAsString W) c r := by
      cases hcall with
      | read =>
        obtain ⟨up, hread, rfl⟩ := hx
        refine ⟨hread.written, ?_⟩
        cases hread with
        | broken what => trivial
        | received hbuffer => exact hrequests _ (List.mem_of_getElem? hbuffer)
      | write stats =>
        obtain ⟨down, -, rfl⟩ := hx
        exact ⟨rfl, trivial⟩
      | _ =>
        obtain rfl : x' = x := hx
        exact ⟨rfl, trivial⟩
    exact ⟨hclient, hup.1 ▸ hrequests, hrest r hup.2⟩

/-- **A call of a client** keeps what is true of its connection. -/
theorem Role.Asserts.answer {role : Role} {c : ClientCmd F}
    {k : c.Resp → ClientProg F (Option Bytes)} {r : c.Resp}
    (h : role.Asserts W drawn faulty s₀ s x p (.call c k)) (hx : x.Answers drawn c r x') :
    role.Asserts W drawn faulty s₀ s x' p (k r) := by
  have hdraws : Client.Draws drawn c r := by
    cases c with
    | now => exact hx.1
    | coordinate => exact hx.1
    | _ => trivial
  have hup : (x'.up = x.up) ∨ ∃ buffer, c = .write buffer ∧ x'.up.taken = x.up.taken
      ∧ (x'.up.written = x.up.written ∨ x'.up.written = x.up.written ++ [buffer]) := by
    cases c with
    | write buffer =>
      obtain ⟨up, hwrite, rfl⟩ := hx
      exact Or.inr ⟨buffer, rfl, hwrite.written⟩
    | read =>
      obtain ⟨down, -, rfl⟩ := hx
      exact Or.inl rfl
    | now => exact Or.inl (hx.2 ▸ rfl)
    | sleep => exact Or.inl (congrArg Connection.up hx)
    | needExit => exact Or.inl (congrArg Connection.up hx)
    | _ => exact Or.inl (congrArg Connection.up hx.2)
  cases role with
  | sender uuid rounds =>
    obtain ⟨⟨hwriting, hrest⟩, sent, stored, hwritten, hsent, htaken, hserving, hsaid⟩ := h
    refine ⟨hrest r hdraws, ?_⟩
    rcases hup with hup | ⟨buffer, rfl, htaken', hup | hup⟩
    · exact ⟨sent, stored, hup ▸ hwritten, hsent, hup ▸ htaken, hup ▸ hserving, hsaid⟩
    · exact ⟨sent, stored, hup ▸ hwritten, hsent, htaken' ▸ htaken, htaken' ▸ hserving, hsaid⟩
    · obtain ⟨data, hdata, rfl⟩ := hwriting
      refine ⟨sent ++ [data], stored, ?_, List.forall_mem_append.mpr ⟨hsent, ?_⟩, ?_,
        htaken' ▸ hserving.push data, ?_⟩
      · rw [hup, hwritten, List.map_append]
        rfl
      · exact fun d hd => List.mem_singleton.mp hd ▸ hdata
      · rw [htaken', List.length_append]
        exact htaken.trans (Nat.le_add_right _ _)
      · rw [hsaid, List.take_append_of_le_length (hserving.bounds.1.trans htaken)]
  | asker =>
    obtain ⟨⟨hasking, hrest⟩, hrequests, hthread⟩ := h
    refine ⟨hrest r hdraws, ?_, hthread⟩
    rcases hup with hup | ⟨buffer, rfl, -, hup | hup⟩
    · exact hup ▸ hrequests
    · exact hup ▸ hrequests
    · rw [hup]
      refine List.forall_mem_append.mpr ⟨hrequests, fun b hb => ?_⟩
      exact (List.mem_singleton.mp hb).trans hasking

/-- **The calls of another thread** keep it too, if no other client has the same
uuid.

This is the rely: whatever another thread does to its own rows. -/
theorem Role.Asserts.others {role other : Role}
    (hne : ∀ uuid, role.uuid = some uuid → other.uuid ≠ some uuid)
    (h : role.Asserts W drawn faulty s₀ s x p q) (ht : other.Touches s s') :
    role.Asserts W drawn faulty s₀ s' x p q := by
  cases role with
  | asker => exact h
  | sender uuid rounds =>
    cases other with
    | asker => exact (show s' = s from ht) ▸ h
    | sender uuid' rounds' =>
      have ht : s.Touches uuid'.to_string s' := ht
      have huuid : uuid.to_string ≠ uuid'.to_string := fun heq =>
        hne uuid rfl (congrArg some (Uuid.to_string_injective heq).symm)
      obtain ⟨hclient, sent, stored, hwritten, hsent, htaken, hserving, hsaid⟩ := h
      exact ⟨hclient, sent, stored, hwritten, hsent, htaken,
        hserving.others (fun data hdata => (hsent data hdata).cstr_received) huuid ht,
        (ht.said_others huuid).trans hsaid⟩

/-- A thread makes only the calls the server makes. -/
theorem Role.Asserts.serverCall {role : Role} {c : Cmd F} {k : c.Resp → ServerProg F Unit}
    (h : role.Asserts W drawn faulty s₀ s x (.call c k) q) : ServerCall c := by
  cases role with
  | asker => exact h.thread.1.1
  | sender uuid rounds =>
    obtain ⟨-, sent, stored, -, -, -, hserving, -⟩ := h
    exact hserving.serverCall

end Moves

section Runs

variable {W : Writer F} {drawn : F → Prop} {faulty : Prop} {E : Engine F} {clock : Int → Prop}
  {At : W.Stream → List (List UInt8) → Prop} {double : F → List UInt8} {maxSize : ℕ}
  {roles : ι → Role}

omit [DecidableEq ι] in
/-- **It is true when all clients have just connected.** -/
theorem Network.satisfies_start (hW : W.Lawful At double maxSize) (to_string : F → Bytes)
    {s : Store F} (hs : s.Owned) (messages : ι → ℕ) :
    (Network.start W to_string s.toDatabase roles messages).Satisfies (Kept roles s)
      fun i => (roles i).Asserts W drawn faulty s := by
  refine ⟨s, rfl, ⟨hs, fun _ _ => rfl, fun c hc => Or.inl hc⟩, fun i => ?_⟩
  show (roles i).Asserts W drawn faulty s s Connection.empty
    (inTry (messageLoop (ClientPacket.ParseFromString W.toRuntime) (messages i)))
    ((roles i).prog W to_string)
  cases roles i with
  | sender uuid rounds =>
    refine ⟨(Client.start_conforms rounds).bind fun _ _ => trivial, [], 0, rfl,
      List.forall_mem_nil _, le_rfl, .waiting (messages i), (List.append_nil _).symm⟩
  | asker =>
    refine ⟨(Client.getStatistics_conforms to_string).bind fun _ _ => trivial,
      List.forall_mem_nil _, clientThread_quiet ?_ (messages i)⟩
    rintro buffer rfl
    rw [Client.parse_request hW]

/-- **It stays true.**

By induction on the run, with one case for a call of a thread and one for a
call of a client. -/
theorem Network.Run.delivers {N M : Network ι F}
    {turns : List (Turn ι (Database F) (Cmd F) Cmd.Resp)} (hW : W.Lawful At double maxSize)
    (hzero : Double.isNaN (Double.zero : F) = false)
    (hdrawn : ∀ x, drawn x → Double.isNaN x = false)
    (hroles : ∀ i j uuid, (roles i).uuid = some uuid → (roles j).uuid = some uuid → i = j)
    {s : Store F} (hN : N.Satisfies (Kept roles s) fun i => (roles i).Asserts W drawn faulty s)
    (h : Network.Run (handler E faulty clock) W drawn N turns M) :
    M.Satisfies (Kept roles s) fun i => (roles i).Asserts W drawn faulty s := by
  have hreceived : ∀ x, drawn x → Double.isNaN (ServerStatistic.received x) = false := by
    intro x hx
    unfold ServerStatistic.received
    split_ifs
    · exact hzero
    · exact hdrawn x hx
  have hstorable : ∀ uuid data, Client.Sends drawn uuid data → Storable data.received := by
    intro uuid data hdata
    show (Double.isNaN (ServerStatistic.received data.x)
      || Double.isNaN (ServerStatistic.received data.y)) = false
    rw [hreceived _ hdata.x, hreceived _ hdata.y]
    rfl
  refine h.rely_guarantee (G := fun i => (roles i).Touches) ?_ ?_ ?_ ?_ hN
  · exact fun i s' x c k q hi => hi.serverCall
  · intro i s' x c k q r s'' x' hkept hi hc hx
    obtain ⟨hi', htouch⟩ := hi.serve hW hstorable hkept.owned hc hx
    exact ⟨hkept.touches htouch, hi', htouch⟩
  · exact fun i s' x p c k r x' hi hx => hi.answer hx
  · intro i j s' s'' x p q hij _ hj htouch
    exact hj.others (fun uuid hj hi => hij (hroles i j uuid hi hj)) htouch

/-- **What a client has sent is stored**, in order and once. Let any number of
clients send packets or ask for the statistics, each over a connection that
keeps messages in order but may break, with distinct uuids, from any file a
server may find; and let their calls and those of the threads be carried out
in any order, any of those on the database failing. Then the rows of a sender
are those there were, and a prefix of the packets it has sent; of those that
were read at most the last is missing, and none that a thread is not at work
on, if no call fails. Nothing is added to the rows of anyone else.

Distinct uuids are what clients have as they make them at random; two clients
with the same one would write to the same rows, and a prefix of either would
not be what is stored. The rows at the start are counted, since a client may
come back to a file it has written to. -/
theorem packets_delivered {hist : List (Epoch F)} {d₀ d : Database F}
    {boot : List (Event (Database F) (Cmd F) Cmd.Resp)} {to_string : F → Bytes}
    {messages : ι → ℕ} {turns : List (Turn ι (Database F) (Cmd F) Cmd.Resp)} {M : Network ι F}
    (hW : W.Lawful At double maxSize) (hzero : Double.isNaN (Double.zero : F) = false)
    (hdrawn : ∀ x, drawn x → Double.isNaN x = false)
    (hroles : ∀ i j uuid, (roles i).uuid = some uuid → (roles j).uuid = some uuid → i = j)
    (hd : History E hist d₀)
    (hboot : Steps (handler E True (fun _ => True)) Eq construct d₀ boot (.ret ()) d)
    (hrun : Network.Run (handler E faulty clock) W drawn
      (Network.start W to_string d roles messages) turns M) :
    ∃ s t : Store F, d = s.toDatabase ∧ M.database = t.toDatabase
      ∧ (∀ i uuid, (roles i).uuid = some uuid →
        ∃ (sent : List (ClientPacket.Data F)) (stored : ℕ),
        (M.connections i).up.written = sent.map (Client.bytes W)
          ∧ (∀ data ∈ sent, Client.Sends drawn uuid data)
          ∧ t.said uuid.to_string = s.said uuid.to_string
            ++ (sent.take stored).map (fun data => data.received.sample)
          ∧ stored ≤ (M.connections i).up.taken ∧ (M.connections i).up.taken ≤ stored + 1
          ∧ (M.connections i).up.taken ≤ sent.length
          ∧ (¬ faulty → Idle (M.threads i) → stored = (M.connections i).up.taken))
      ∧ ∀ u, (∀ i uuid, (roles i).uuid = some uuid → u ≠ uuid.to_string) →
        t.said u = s.said u := by
  obtain ⟨s, hs, howned⟩ := hd.owned
  obtain rfl := (construct_steps hs hboot).2.1 rfl
  obtain ⟨t, ht, hkept, hasserts⟩ := hrun.delivers hW hzero hdrawn hroles
    (Network.satisfies_start hW to_string howned messages)
  refine ⟨s, t, rfl, ht, fun i uuid hi => ?_, hkept.others⟩
  obtain ⟨-, sent, stored, hwritten, hsent, htaken, hserving, hsaid⟩ := (hasserts i).delivering hi
  exact ⟨sent, stored, hwritten, hsent, hsaid, hserving.bounds.1, hserving.bounds.2, htaken,
    fun hf hidle => hserving.idle hidle hf⟩

end Runs

/-! ## Two packets of a client

The theorem has a run as its hypothesis. This is one in which something is delivered:
the client sends two packets, five seconds apart, and its thread reads and saves both. -/

/-- A client. -/
def firstUuid : Uuid := ⟨List.replicate 16 0, rfl⟩

/-- What it sends. -/
def firstData : ClientPacket.Data Binary64 := ⟨firstUuid.to_string, 0, ⟨1⟩, ⟨1⟩⟩

/-- What it sends five seconds later. -/
def secondData : ClientPacket.Data Binary64 := ⟨firstUuid.to_string, 50000000, ⟨1⟩, ⟨1⟩⟩

theorem sends_firstData : Client.Sends (fun x : Binary64 => x = ⟨1⟩) firstUuid firstData :=
  ⟨rfl, by decide, rfl, rfl⟩

theorem sends_secondData : Client.Sends (fun x : Binary64 => x = ⟨1⟩) firstUuid secondData :=
  ⟨rfl, by decide, rfl, rfl⟩

/-- **A client by itself sends a packet.** -/
theorem exists_sent :
    ∃ es : List (Event Connection (ClientCmd Binary64) ClientCmd.Resp), ∃ q,
      Steps (fun x c r x' => Connection.Answers (fun x : Binary64 => x = ⟨1⟩) x c r x') Eq
        ((Role.sender firstUuid 1).prog binary64Writer fun _ => []) .empty es q
        ⟨Channel.empty.push (Client.bytes binary64Writer firstData), .empty,
          [-50000000, 0, 0]⟩ := by
  have hstart : (-2 ^ 63 : Int) ≤ -50000000 ∧ (-50000000 : Int) < 2 ^ 63 := by decide
  have hdue : (-2 ^ 63 : Int) ≤ 0 ∧ (0 : Int) < 2 ^ 63 := by decide
  exact ⟨_, _, .own (r := (-50000000 : Int)) rfl ⟨hstart, rfl⟩
    (.own (r := (5 : Int)) rfl ⟨⟨le_rfl, by decide⟩, rfl⟩
    (.own (r := (0 : Int)) rfl ⟨hdue, rfl⟩ (.own (r := (0 : Int)) rfl ⟨hdue, rfl⟩
    (.own rfl ⟨rfl, rfl⟩ (.own rfl ⟨rfl, rfl⟩ (.own rfl ⟨_, .sent 81, rfl⟩ (.done rfl)))))))⟩

/-- A connection over which both packets have been sent, of which so many have been
read. -/
def sentConnection (taken : ℕ) : Connection where
  up := ⟨[Client.bytes binary64Writer firstData, Client.bytes binary64Writer secondData], taken⟩
  down := .empty
  clock := [-50000000, 0, 0, 0, 50000000, 50000000]

/-- **A client by itself sends two packets**, the second as soon as it may.

The times of the clock are those at which the client looks at it: at the
start, and in each round of its loop. -/
theorem exists_sent_two :
    ∃ es : List (Event Connection (ClientCmd Binary64) ClientCmd.Resp), ∃ q,
      Steps (fun x c r x' => Connection.Answers (fun x : Binary64 => x = ⟨1⟩) x c r x') Eq
        ((Role.sender firstUuid 2).prog binary64Writer fun _ => []) .empty es q
        (sentConnection 0) := by
  have hstart : (-2 ^ 63 : Int) ≤ -50000000 ∧ (-50000000 : Int) < 2 ^ 63 := by decide
  have hdue : (-2 ^ 63 : Int) ≤ 0 ∧ (0 : Int) < 2 ^ 63 := by decide
  have hnext : (-2 ^ 63 : Int) ≤ 50000000 ∧ (50000000 : Int) < 2 ^ 63 := by decide
  exact ⟨_, _, .own (r := (-50000000 : Int)) rfl ⟨hstart, rfl⟩
    (.own (r := (5 : Int)) rfl ⟨⟨le_rfl, by decide⟩, rfl⟩
    -- the first round, and when the next packet is due
    (.own (r := (0 : Int)) rfl ⟨hdue, rfl⟩ (.own (r := (0 : Int)) rfl ⟨hdue, rfl⟩
    (.own rfl ⟨rfl, rfl⟩ (.own rfl ⟨rfl, rfl⟩ (.own rfl ⟨_, .sent 81, rfl⟩
    (.own (r := (0 : Int)) rfl ⟨hdue, rfl⟩ (.own (r := (5 : Int)) rfl ⟨⟨le_rfl, by decide⟩, rfl⟩
    (.own (r := ()) rfl rfl (.own (r := false) rfl rfl
    -- the second round
    (.own (r := (50000000 : Int)) rfl ⟨hnext, rfl⟩
    (.own (r := (50000000 : Int)) rfl ⟨hnext, rfl⟩
    (.own rfl ⟨rfl, rfl⟩ (.own rfl ⟨rfl, rfl⟩
    (.own rfl ⟨_, .sent 81, rfl⟩ (.done rfl))))))))))))))))⟩

/-- The runs with the reference engine and a runtime like that of the C++ code,
with no call failing, and with one number for all coordinates. -/
abbrev Network.PlainRun {ι : Type} [DecidableEq ι] (clock : Int → Prop) :
    Network ι Binary64 → List (Turn ι (Database Binary64) (Cmd Binary64) Cmd.Resp) →
      Network ι Binary64 → Prop :=
  Network.Run (handler (Engine.reference : Engine Binary64) False clock) binary64Writer
    fun x => x = ⟨1⟩

section Threads

variable {ι : Type} [DecidableEq ι] (clock : Int → Prop) {N : Network ι Binary64} {i : ι}
  {x : Connection} {n : ℕ}

/-- **The next message is read**, while the others wait. -/
theorem exists_read_run {buffer : Bytes} (hx : N.connections i = x)
    (hget : x.up.written[x.up.taken]? = some buffer)
    (hp : N.threads i
      = inTry (messageLoop (ClientPacket.ParseFromString binary64Writer.toRuntime) (n + 1))) :
    ∃ turns : List (Turn ι (Database Binary64) (Cmd Binary64) Cmd.Resp),
      Network.PlainRun clock N turns (N.serve i N.database { x with up := x.up.take }
            (inTry ((handleMessage (ClientPacket.ParseFromString binary64Writer.toRuntime)
              buffer).bind fun _ => messageLoop
                (ClientPacket.ParseFromString binary64Writer.toRuntime) n)))
        ∧ ∀ e ∈ turns, e.2.reply = none := by
  obtain ⟨k, hk, k', hk', hrest⟩ : ∃ k, N.threads i = .call .needExit k ∧ ∃ k',
      k false = .call .read k' ∧ k' (.ok buffer)
        = inTry ((handleMessage (ClientPacket.ParseFromString binary64Writer.toRuntime)
          buffer).bind fun _ => messageLoop
            (ClientPacket.ParseFromString binary64Writer.toRuntime) n) :=
    ⟨_, hp, _, rfl, rfl⟩
  have hexit : Network.PlainRun clock N _ _ :=
    .served (c := .needExit) (r := false) hk rfl rfl .done
  have hread : Network.PlainRun clock (N.serve i N.database (N.connections i) (k false)) _ _ :=
    .served (c := .read) (r := .ok buffer) (x := { x with up := x.up.take })
    ((Network.serve_threads _ _ _ _ _).trans hk') ⟨nofun, rfl⟩ (by
      rw [Network.serve_connections, hx]
      exact ⟨_, .received hget, rfl⟩) .done
  rw [Network.serve_serve, hrest] at hread
  refine ⟨_, hexit.append hread, fun e he => ?_⟩
  simp only [List.mem_append, List.mem_singleton] at he
  rcases he with rfl | rfl <;> rfl

/-- **The next packet is read and saved**, while the others wait. -/
theorem exists_saved_run {data : ClientPacket.Data Binary64} {s t : Store Binary64}
    {es : List (Event (Store Binary64) (Cmd Binary64) Cmd.Resp)}
    (hsave : Steps (storeHandler (Engine.reference : Engine Binary64) False clock) Eq
      (Saving.Phase.looking.prog data.received) s es (.ret ()) t)
    (hdata : Client.Sends (fun x : Binary64 => x = ⟨1⟩) firstUuid data)
    (hd : N.database = s.toDatabase) (hx : N.connections i = x)
    (hget : x.up.written[x.up.taken]? = some (Client.bytes binary64Writer data))
    (hp : N.threads i
      = inTry (messageLoop (ClientPacket.ParseFromString binary64Writer.toRuntime) (n + 1))) :
    ∃ turns : List (Turn ι (Database Binary64) (Cmd Binary64) Cmd.Resp),
      Network.PlainRun clock N turns (N.serve i t.toDatabase { x with up := x.up.take }
          (inTry (messageLoop (ClientPacket.ParseFromString binary64Writer.toRuntime) n)))
        ∧ ∀ e ∈ turns, e.2.reply = none := by
  have hhandle : handleMessage (ClientPacket.ParseFromString binary64Writer.toRuntime)
      (Client.bytes binary64Writer data) = Saving.Phase.looking.prog data.received := by
    rw [← Saving.saveClientPacket_eq data.received ClientPacket.DATA]
    unfold handleMessage
    rw [Client.parse_bytes binary64Writer_lawful hdata]
    rfl
  have hcalls := steps_calls (fun _ h => h.serverCall) (Saving.Phase.saves _ _) hsave
  obtain ⟨turns, hread, hsilent⟩ := exists_read_run clock hx hget hp
  have hthread : Steps (handler (Engine.reference : Engine Binary64) False clock) Eq
      (inTry ((handleMessage (ClientPacket.ParseFromString binary64Writer.toRuntime)
        (Client.bytes binary64Writer data)).bind fun _ => messageLoop
          (ClientPacket.ParseFromString binary64Writer.toRuntime) n)) s.toDatabase
      (es.map (Event.map Store.toDatabase))
      (inTry (messageLoop (ClientPacket.ParseFromString binary64Writer.toRuntime) n))
      t.toDatabase :=
    hhandle ▸ (hsave.unlift.bind_left.tryCatch)
  have hsaved : Network.PlainRun clock _ _ _ := Network.Run.thread_alone hthread
    (Network.serve_threads N i _ { x with up := x.up.take } _) hd
    (List.forall_mem_map.mpr fun e he => Or.inl (hcalls e he).1)
  rw [Network.serve_connections, Network.serve_serve] at hsaved
  refine ⟨_, hread.append hsaved, fun e he => ?_⟩
  rcases List.mem_append.mp he with he | he
  · exact hsilent e he
  · obtain ⟨_, hmap, rfl⟩ := List.mem_map.mp he
    obtain ⟨e', he', rfl⟩ := List.mem_map.mp hmap
    exact (e'.reply_map _).trans (hcalls e' he').1.silent.2

end Threads

/-- **A client by itself sends two packets, which are read and saved.** -/
theorem exists_delivered_run :
    ∃ (turns : List (Turn Unit (Database Binary64) (Cmd Binary64) Cmd.Resp))
      (M : Network Unit Binary64) (t : Store Binary64),
      Network.PlainRun (fun _ => True) (Network.start binary64Writer (fun _ => [])
          Store.empty.toDatabase (fun _ : Unit => .sender firstUuid 2) fun _ => 2) turns M
        ∧ M.database = t.toDatabase ∧ M.threads () = .ret ()
        ∧ M.connections () = sentConnection 2 := by
  have hclock : ∃ n, (fun _ : Int => True) n := ⟨0, trivial⟩
  obtain ⟨es, q, hsent⟩ := exists_sent_two
  have hclient := Network.Run.client_alone
    (H := handler (Engine.reference : Engine Binary64) False (fun _ => True))
    (W := binary64Writer) (i := ()) (N := Network.start binary64Writer (fun _ => [])
      Store.empty.toDatabase (fun _ => .sender firstUuid 2) fun _ => 2) hsent rfl rfl
  obtain ⟨es₁, s, -, -, hsave₁, -, -⟩ := Saving.exists_first
    (Engine.reference : Engine Binary64) hclock firstData.received (by decide) (by decide)
  obtain ⟨es₂, q₂, t, m, id, hsave₂, -, -, hend⟩ := Saving.exists_alone
    (Engine.reference : Engine Binary64) hclock s secondData.received
  obtain rfl : q₂ = .ret () := hend.1
  obtain ⟨turns₁, hsaved₁, -⟩ := exists_saved_run (fun _ => True) (i := ()) (n := 1)
    (x := sentConnection 0) hsave₁ sends_firstData
    (N := (Network.start binary64Writer (fun _ => []) Store.empty.toDatabase
      (fun _ : Unit => .sender firstUuid 2) fun _ => 2).answer () _ q) rfl
    (Network.answer_connections _ _ _ _) rfl rfl
  obtain ⟨turns₂, hsaved₂, -⟩ := exists_saved_run (fun _ => True) (i := ()) (n := 0)
    (x := sentConnection 1) hsave₂ sends_secondData rfl (Network.serve_connections _ _ _ _ _) rfl
    (Network.serve_threads _ _ _ _ _)
  exact ⟨_, _, t, hclient.append (hsaved₁.append hsaved₂), rfl, Network.serve_threads _ _ _ _ _,
    Network.serve_connections _ _ _ _ _⟩

/-- What the rows of the client say then, if they say what it has sent. -/
theorem said_of_sent {s t : Store Binary64} {sent : List (ClientPacket.Data Binary64)}
    {stored : ℕ} (hwritten : (sentConnection 2).up.written = sent.map (Client.bytes binary64Writer))
    (hsends : ∀ data ∈ sent, Client.Sends (fun x => x = ⟨1⟩) firstUuid data)
    (hstored : stored = 2) (hs : s.said firstUuid.to_string = [])
    (hsaid : t.said firstUuid.to_string = s.said firstUuid.to_string
      ++ (sent.take stored).map fun data => data.received.sample) :
    t.said firstUuid.to_string = [firstData.received.sample, secondData.received.sample] := by
  have hboth : ∀ data ∈ [firstData, secondData],
      Client.Sends (fun x => x = ⟨1⟩) firstUuid data :=
    List.forall_mem_cons.mpr ⟨sends_firstData, List.forall_mem_singleton.mpr sends_secondData⟩
  have hreceived := Client.received_of_bytes binary64Writer_lawful hsends hboth hwritten.symm
  have hsamples : (sent.map fun data => data.received.sample)
      = [firstData.received.sample, secondData.received.sample] :=
    List.map_map.symm.trans (congrArg (List.map ClientPacket.Data.sample) hreceived)
  rw [hsaid, hs, hstored, List.map_take, hsamples]
  rfl

/-- In particular two packets that are read and saved. -/
theorem packets_delivered_one :
    ∃ (turns : List (Turn Unit (Database Binary64) (Cmd Binary64) Cmd.Resp))
      (M : Network Unit Binary64) (t : Store Binary64),
      Network.PlainRun (fun _ => True) (Network.start binary64Writer (fun _ => [])
          Store.empty.toDatabase (fun _ : Unit => .sender firstUuid 2) fun _ => 2) turns M
        ∧ M.database = t.toDatabase
        ∧ t.said firstUuid.to_string
          = [firstData.received.sample, secondData.received.sample] := by
  obtain ⟨turns, M, u, hrun, -, hthread, hconnection⟩ := exists_delivered_run
  obtain ⟨boot, hboot⟩ := exists_construct (Engine.reference : Engine Binary64) True
    (fun _ => True) (show Database.Holds [] Store.empty from Or.inr ⟨rfl, Or.inl rfl⟩)
  obtain ⟨s, t, hs, ht, hdelivered, -⟩ := packets_delivered binary64Writer_lawful
    (by decide) (by rintro _ rfl; decide) (fun _ _ _ _ _ => rfl) .fresh hboot hrun
  obtain rfl := Store.toDatabase_injective hs
  obtain ⟨sent, stored, hwritten, hsends, hsaid, -, -, -, hidle⟩ := hdelivered () firstUuid rfl
  have hstored := hidle id (Or.inr (Or.inr hthread))
  rw [hconnection] at hwritten hstored
  exact ⟨_, _, t, hrun, ht, said_of_sent hwritten hsends hstored rfl hsaid⟩
