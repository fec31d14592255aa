import Mathlib.Data.List.FinRange
import Mathlib.Data.List.Pairwise
import Mathlib.Data.List.Perm.Basic
import TZ.Replies

/-!
# Saves on several connections

What connections that save packets side by side come to should be what saving
the packets one after another comes to, but for the ids that the rows are
given (`Store.Renames`). It is whenever every save returns (`Store.Saved`): a
save that returns has added its row, under the one client of its uuid, and
nothing else is added.

But a save may throw. It looks its client up, and adds one if there is none;
in between another save may add the same client, and then the insert is turned
down by the `UNIQUE` constraint and the packet is lost. So the saves are what
they should be exactly in the runs in which no two of them are about to add
the same client (`Racing`).

Three choices make this provable for any number of connections and any schedule. The
comparison with a serial run is not made step by step, because the ids differ from the
first race for an id on; what a set of saves *comes to* is said without reference to an
order (`Store.Saved`), both runs come to it, and two stores that do are the same up to a
renaming. That all saves return is enough for this, whatever failed on the way.

The race is a property of a point of the run, two connections that are about to add the
same client, and not of the schedule, so the condition can be read off the programs that
are left. And the direction that is easily forgotten, that a race always costs a save,
rests on counting: a client is added once in a run, and each of the two would have to be
the one that adds it (`racing_throws`).
-/

open Server

/-! ## Renaming keys

General facts about two lists whose elements correspond: if the keys of the one are
distinct, the correspondence is a function on keys, and it can be extended to a
function on all keys that changes no other. -/

/-- **Lists that agree element by element agree up to a renaming of keys**, if
the keys of the first are distinct. The renaming changes no other key.

The renaming is a function of keys alone, since the ids of clients occur again
in the rows of packets and must be renamed alike there. -/
theorem exists_renaming {α β κ : Type} [DecidableEq κ] {f : α → κ} {g : β → κ}
    {R : α → β → Prop} {l : List α} {l' : List β} (h : List.Forall₂ R l l')
    (hl : (l.map f).Nodup) :
    ∃ π : κ → κ, (∀ n ∉ l.map f, π n = n)
      ∧ List.Forall₂ (fun a b => R a b ∧ π (f a) = g b) l l' := by
  induction h with
  | nil => exact ⟨id, fun _ _ => rfl, .nil⟩
  | @cons a b l l' hab hrest ih =>
    rw [List.map_cons, List.nodup_cons] at hl
    obtain ⟨π, hfix, hπ⟩ := ih hl.2
    refine ⟨Function.update π (f a) (g b), fun n hn => ?_,
      .cons ⟨hab, Function.update_self _ _ _⟩ (List.forall₂_iff_zip.mpr ⟨hπ.length_eq, ?_⟩)⟩
    · rw [List.map_cons, List.mem_cons, not_or] at hn
      rw [Function.update_of_ne hn.1, hfix n hn.2]
    · intro a' b' hzip
      have hab' := List.forall₂_zip hπ hzip
      have hne : f a' ≠ f a :=
        fun heq => hl.1 (heq ▸ List.mem_map_of_mem (List.of_mem_zip hzip).1)
      exact ⟨hab'.1, (Function.update_of_ne hne _ _).trans hab'.2⟩

/-- Every element of the second of two lists that agree has its element in the
first. -/
theorem exists_of_forall₂ {α β : Type} {R : α → β → Prop} {l : List α} {l' : List β}
    (h : List.Forall₂ R l l') {b : β} (hb : b ∈ l') : ∃ a ∈ l, R a b := by
  induction h with
  | nil => cases hb
  | @cons a b' l l' hab hrest ih =>
    rcases List.mem_cons.mp hb with rfl | hb
    · exact ⟨a, List.mem_cons_self, hab⟩
    · obtain ⟨a', ha', hab'⟩ := ih hb
      exact ⟨a', List.mem_cons_of_mem _ ha', hab'⟩

/-- Lists that agree with the same list agree with each other. -/
theorem forall₂_comp {α β γ : Type} {R : α → γ → Prop} {S : β → γ → Prop} {l : List α}
    {l' : List β} {m : List γ} (h : List.Forall₂ R l m) (h' : List.Forall₂ S l' m) :
    List.Forall₂ (fun a b => ∃ c, R a c ∧ S b c) l l' := by
  induction h generalizing l' with
  | nil =>
    cases h'
    exact .nil
  | cons hac hrest ih =>
    cases h' with
    | cons hbc hrest' => exact .cons ⟨_, hac, hbc⟩ (ih hrest')

variable {F : Type} [Double F]

namespace Store

/-- **Two stores that have grown out of a third hold the same rows**, up to a
renaming of the ids that were generated since. The renaming gives distinct
rows distinct ids, as the ids of a store are distinct.

Two functions are needed, as ids of clients and of packets are made up
separately. Both leave the ids of the third store alone: what was there before
has not changed its id. -/
def Renames (s t u : Store F) : Prop :=
  ∃ ρ π : Int → Int, (∀ c ∈ s.clients, ρ c.id = c.id) ∧ (∀ p ∈ s.packets, π p.id = p.id)
    ∧ (t.clients.map fun c => ⟨ρ c.id, c.uuid⟩).Perm u.clients
    ∧ (t.packets.map fun p => ⟨π p.id, ρ p.clientId, p.timestamp, p.x, p.y⟩).Perm u.packets

/-- Every row has its client. -/
def Owned (s : Store F) : Prop := ∀ p ∈ s.packets, p.clientId ∈ s.clients.map Client.id

/-- **What saving packets on a store comes to**, in whatever order. -/
structure Saved (s : Store F) (l : List (ClientPacket.Data F)) (t : Store F) : Prop where
  /-- What was there is still there. -/
  grows : s.Grows t
  /-- There is one more row for each packet, which says what the packet says. -/
  packets : ∃ ps, t.packets.Perm (s.packets ++ ps) ∧ List.Forall₂ t.Says ps l
  /-- Only clients of the packets have been added. -/
  clients : ∀ c ∈ t.clients, c ∈ s.clients ∨ ∃ data ∈ l, cstr data.uuid = c.uuid

variable {s t u : Store F} {l : List (ClientPacket.Data F)}

/-- The clients that saving packets adds are those of the packets that were not
there. -/
theorem Saved.mem_new (h : Saved s l t) {cs : List Client} (hcs : t.clients = s.clients ++ cs)
    {uuid : Bytes} : uuid ∈ cs.map Client.uuid
      ↔ uuid ∉ s.clients.map Client.uuid ∧ ∃ data ∈ l, cstr data.uuid = uuid := by
  have hnodup := t.uuids_nodup
  rw [hcs, List.map_append, List.nodup_append] at hnodup
  constructor
  · rintro huuid
    have hold : uuid ∉ s.clients.map Client.uuid := fun hmem => hnodup.2.2 _ hmem _ huuid rfl
    obtain ⟨c, hc, rfl⟩ := List.mem_map.mp huuid
    refine ⟨hold, (h.clients c (hcs ▸ List.mem_append_right _ hc)).resolve_left fun hmem => ?_⟩
    exact hold (List.mem_map_of_mem hmem)
  · rintro ⟨hold, data, hdata, rfl⟩
    obtain ⟨ps, -, hsaid⟩ := h.packets
    obtain ⟨p, -, hp⟩ := exists_of_forall₂ hsaid hdata
    have hc := hp.1
    rw [hcs, List.mem_append] at hc
    exact List.mem_map_of_mem (f := Client.uuid)
      (hc.resolve_left fun hmem => hold (List.mem_map_of_mem (f := Client.uuid) hmem))

/-- The ids of the clients agree, up to a renaming of those that are new.

A uuid is new in one of the stores exactly if it is new in the other, because
in both there are only clients of the same packets. -/
theorem Saved.rename_clients (ht : Saved s l t) (hu : Saved s l u) :
    ∃ ρ : Int → Int, (∀ c ∈ s.clients, ρ c.id = c.id)
      ∧ (t.clients.map fun c => ⟨ρ c.id, c.uuid⟩).Perm u.clients := by
  obtain ⟨ct, hct⟩ := ht.grows.clients
  obtain ⟨cu, hcu⟩ := hu.grows.clients
  have hids := t.ids_nodup
  have huuids := t.uuids_nodup
  have huuids' := u.uuids_nodup
  rw [← hct, List.map_append, List.nodup_append] at hids huuids
  rw [← hcu, List.map_append, List.nodup_append] at huuids'
  -- the same uuids are new in both
  have hperm : (ct.map Client.uuid).Perm (cu.map Client.uuid) := by
    refine (List.perm_ext_iff_of_nodup huuids.2.1 huuids'.2.1).mpr fun uuid => ?_
    rw [ht.mem_new hct.symm, hu.mem_new hcu.symm]
  have hself : List.Forall₂ (fun uuid (c : Client) => uuid = c.uuid) (cu.map Client.uuid) cu :=
    List.forall₂_map_left_iff.mpr (List.forall₂_same.mpr fun _ _ => rfl)
  obtain ⟨cu', hagree, hcu'⟩ := List.perm_comp_forall₂ hperm hself
  obtain ⟨ρ, hfix, hρ⟩ := exists_renaming (g := Client.id)
    (List.forall₂_map_left_iff.mp hagree) hids.2.1
  have hold : ∀ c ∈ s.clients, ρ c.id = c.id := fun c hc =>
    hfix _ fun hmem => hids.2.2 _ (List.mem_map_of_mem hc) _ hmem rfl
  refine ⟨ρ, hold, ?_⟩
  rw [← hct, ← hcu, List.map_append]
  refine List.Perm.append ?_ ?_
  · rw [show s.clients.map (fun c => (⟨ρ c.id, c.uuid⟩ : Client)) = s.clients from
      (List.map_congr_left fun c hc => congrArg (Client.mk · c.uuid) (hold c hc)).trans
        (List.map_id _)]
  · refine List.Perm.trans (.of_eq ?_) hcu'
    rw [← List.forall₂_eq_eq_eq, List.forall₂_map_left_iff]
    refine hρ.imp fun c c' h => ?_
    rw [h.1, h.2]

/-- **Whatever order packets are saved in, the rows are the same**, up to a
renaming of the new ids.

Packets of one client may say the same, and then it is not determined which
row is which in the other store. Any choice will do; the lists are matched
through the packets. -/
theorem Saved.renames (hs : s.Owned) (ht : Saved s l t) (hu : Saved s l u) :
    Renames s t u := by
  obtain ⟨ρ, hρ, hclients⟩ := ht.rename_clients hu
  obtain ⟨pt, hpt, hsaid⟩ := ht.packets
  obtain ⟨pu, hpu, hsaid'⟩ := hu.packets
  have hids := t.packetIds_nodup
  rw [(hpt.map Packet.id).nodup_iff, List.map_append, List.nodup_append] at hids
  obtain ⟨π, hfix, hπ⟩ := exists_renaming (g := Packet.id) (forall₂_comp hsaid hsaid') hids.2.1
  have hold : ∀ p ∈ s.packets, π p.id = p.id := fun p hp =>
    hfix _ fun hmem => hids.2.2 _ (List.mem_map_of_mem hp) _ hmem rfl
  refine ⟨ρ, π, hρ, hold, hclients, (hpt.map _).trans (List.Perm.trans (.of_eq ?_) hpu.symm)⟩
  rw [List.map_append]
  refine congrArg₂ _ ?_ ?_
  · refine (List.map_congr_left fun p hp => ?_).trans (List.map_id _)
    obtain ⟨c, hc, hid⟩ := List.mem_map.mp (hs p hp)
    rw [hold p hp, ← hid, hρ c hc, hid]
    rfl
  · rw [← List.forall₂_eq_eq_eq, List.forall₂_map_left_iff]
    refine hπ.imp fun p q h => ?_
    obtain ⟨⟨data, ⟨hc, htime, hx, hy⟩, hc', htime', hx', hy'⟩, hid⟩ := h
    -- both rows have the id of the client of the same uuid
    have hrenamed : ⟨ρ p.clientId, cstr data.uuid⟩ ∈ u.clients :=
      hclients.subset (List.mem_map_of_mem (f := fun c => (⟨ρ c.id, c.uuid⟩ : Client)) hc)
    have hclient : ρ p.clientId = q.clientId :=
      congrArg Client.id (List.inj_on_of_nodup_map u.uuids_nodup hrenamed hc' rfl)
    rw [hid, hclient, htime, hx, hy, ← htime', ← hx', ← hy']

end Store

/-! ## Connections

A connection saves packets one after another, as the loop of a thread does. The first
save that throws ends it here; in `clientThread` an exception ends the thread as well. -/

variable {E : Engine F} {faulty : Prop} {clock : Int → Prop}

omit [Double F] in
/-- **A connection** saves its packets one after another, until one of the saves
throws. -/
def saves (l : List (ClientPacket.Data F)) : ServerProg F Unit :=
  Statistics.saveEach (l.map fun data => ⟨ClientPacket.DATA, some data⟩)

omit [Double F] in
theorem saves_cons (data : ClientPacket.Data F) (l : List (ClientPacket.Data F)) :
    saves (data :: l) = (Saving.Phase.looking.prog data).bind fun _ => saves l := by
  rw [← Saving.saveClientPacket_eq data ClientPacket.DATA]
  rfl

omit [Double F] in
theorem saves_conforms (l : List (ClientPacket.Data F)) :
    (saves l).Conforms ServerCall Answered (fun _ => True) :=
  Statistics.saveEach_conforms _

/-- Every call of a save is a step of it. -/
theorem Saving.steps_step {data : ClientPacket.Data F} {phase : Saving.Phase} {s t : Store F}
    {q : ServerProg F Unit} {es : List (Event (Store F) (Cmd F) Cmd.Resp)}
    (h : Steps (storeHandler E faulty clock) Store.Grows (phase.prog data) s es q t) :
    ∀ e ∈ es, ∃ phase₁ phase₂, Saving.Step faulty data phase₁ e.pre phase₂ e.post := by
  generalize hp : phase.prog data = p at h
  induction h generalizing phase with
  | done hr => exact List.forall_mem_nil _
  | own hr hc _ ih =>
    obtain ⟨phase', hk, hstep⟩ := Saving.step hp hc
    exact List.forall_mem_cons.mpr ⟨⟨phase, phase', hstep⟩, ih hk.symm⟩

/-- Only the client of its packet is added by a save. -/
theorem Saving.Step.new_client {data : ClientPacket.Data F} {phase phase' : Saving.Phase}
    {s s' : Store F} (h : Saving.Step faulty data phase s phase' s') {c : Client}
    (hc : c ∈ s'.clients) : c ∈ s.clients ∨ cstr data.uuid = c.uuid := by
  cases h with
  | registered h hadds =>
    obtain ⟨id, hcs, -⟩ := hadds
    rw [hcs, List.mem_append, List.mem_singleton] at hc
    exact hc.imp_right fun h => (congrArg Client.uuid h).symm
  | stored hx hy hadds =>
    obtain ⟨id, hcs, -⟩ := hadds
    exact Or.inl (hcs ▸ hc)
  | _ => exact Or.inl hc

/-- **A connection whose saves have all returned** has added one row for each of
its packets, in order, among whatever others that take nothing away.

By induction on the packets, with one save at a time. What is added is read
off the events of this connection alone; the others may add rows in between. -/
theorem steps_saves {l : List (ClientPacket.Data F)} {s t u : Store F}
    {es : List (Event (Store F) (Cmd F) Cmd.Resp)}
    (h : Steps (storeHandler E faulty clock) Store.Grows (saves l) s es (.ret ()) t)
    (hu : ∀ e ∈ es, e.post.Grows u) :
    List.Forall₂ u.Says (es.flatMap Event.added) l
      ∧ ∀ e ∈ es, ∀ c ∈ e.post.clients, c ∈ e.pre.clients
        ∨ ∃ data ∈ l, cstr data.uuid = c.uuid := by
  induction l generalizing s es with
  | nil =>
    obtain ⟨rfl, -, -⟩ := h.ret_inv
    exact ⟨.nil, List.forall_mem_nil _⟩
  | cons data l ih =>
    rw [saves_cons] at h
    obtain ⟨_, es₁, es₂, m, rfl, hsave, hrest⟩ := h.bind_ret_inv
    obtain ⟨hu₁, hu₂⟩ := List.forall_mem_append.mp hu
    obtain ⟨hsaid, hclients⟩ := ih hrest hu₂
    obtain ⟨p, hadded, e, he, -, hp⟩ := Saving.steps_added hsave trivial nofun
    rw [List.flatMap_append, hadded]
    refine ⟨.cons (hp.grows (hu₁ e he)) hsaid, List.forall_mem_append.mpr ⟨?_, ?_⟩⟩
    · intro e he c hc
      obtain ⟨phase₁, phase₂, hstep⟩ := Saving.steps_step hsave e he
      exact (hstep.new_client hc).imp_right fun h => ⟨data, List.mem_cons_self, h⟩
    · intro e he c hc
      exact (hclients e he c hc).imp_right fun ⟨data', hdata', huuid⟩ =>
        ⟨data', List.mem_cons_of_mem _ hdata', huuid⟩

/-- What has been added to a store is what the turns have added.

This ties the rows of a store to turns, and the turns belong to connections. -/
theorem packets_added {α : Type} {n : ℕ} {ps left : Fin n → ServerProg F α} {s t : Store F}
    {turns : List (Turn (Fin n) (Store F) (Cmd F) Cmd.Resp)}
    (h : Interleaved (storeHandler E faulty clock) ps s turns left t)
    (hturns : ∀ e ∈ turns, e.2.pre.Grows e.2.post) :
    t.packets = s.packets ++ (turns.map Prod.snd).flatMap Event.added := by
  induction h with
  | nil => exact (List.append_nil _).symm
  | @cons _ _ i c k r s s₁ t tr hp hc rest ih =>
    obtain ⟨hgrows, hturns⟩ := List.forall_mem_cons.mp hturns
    rw [ih hturns, List.map_cons, List.flatMap_cons, ← List.append_assoc]
    refine congrArg (· ++ _) ?_
    obtain ⟨ps, hps⟩ := hgrows.packets
    unfold Event.added
    show s₁.packets = s.packets ++ s₁.packets.drop s.packets.length
    rw [← hps, List.drop_left]

section Connections

variable {n : ℕ} {packets : Fin n → List (ClientPacket.Data F)} {s t : Store F}
  {ps : Fin n → ServerProg F Unit}
  {turns : List (Turn (Fin n) (Store F) (Cmd F) Cmd.Resp)} {left : Fin n → ServerProg F Unit}

/-- **Connections whose saves have all returned** have saved their packets, in
whatever order their calls were carried out and whichever of them failed.

No assumption about failures is needed here: if all saves have returned, the
calls that have failed were not among those that matter. -/
theorem connections_saved
    (h : Interleaved (storeHandler E faulty clock) (fun i => saves (packets i)) s turns left t)
    (hleft : ∀ i, left i = .ret ()) :
    s.Saved ((List.finRange n).flatMap packets) t := by
  have hturns := interleaved_stores (fun i => saves_conforms (packets i)) h
  have hown : ∀ i, List.Forall₂ t.Says ((ownTurns i turns).flatMap Event.added) (packets i)
      ∧ ∀ e ∈ ownTurns i turns, ∀ c ∈ e.post.clients, c ∈ e.pre.clients
        ∨ ∃ data ∈ packets i, cstr data.uuid = c.uuid := by
    intro i
    have hrun := h.project (i := i) (fun e he _ => (hturns e he).1)
    rw [hleft i] at hrun
    exact steps_saves hrun fun e he => (hturns _ ((mem_ownTurns i).mp he)).2.2
  have hgrows : s.Grows t := (h.between fun e he => (hturns e he).1).1
  refine ⟨hgrows, ⟨(List.finRange n).flatMap fun i => (ownTurns i turns).flatMap Event.added,
    ?_, ?_⟩, fun c hc => ?_⟩
  · rw [packets_added h fun e he => (hturns e he).1, ← List.flatMap_assoc]
    exact ((ownTurns_perm (List.nodup_finRange n) fun e _ => List.mem_finRange e.1).flatMap_right
      _).append_left _
  · exact List.rel_flatMap (R := Eq) (List.forall₂_refl _) fun i j hij => hij ▸ (hown i).1
  · rcases h.origin (P := fun u => c ∈ u.clients) hc with hold | ⟨e, he, hpre, hpost⟩
    · exact Or.inl hold
    · obtain ⟨data, hdata, huuid⟩ :=
        ((hown e.1).2 e.2 ((mem_ownTurns e.1).mpr he) c hpost).resolve_left hpre
      exact Or.inr ⟨data, List.mem_flatMap.mpr ⟨e.1, List.mem_finRange e.1, hdata⟩, huuid⟩

/-! ## Two saves of the same new client

A race is not yet a loss: neither of the two has called the database. It becomes one
because SQLite takes one call at a time, and the second insert finds the uuid there. -/

/-- A program is about to add a client.

The program is looked at and not the phase of a save, so that the condition
can be stated for programs of which nothing is known. -/
def Registers (p : ServerProg F Unit) (uuid : Bytes) : Prop :=
  ∃ u k, cstr u = uuid ∧ p = .call (.insertOne CLIENTS_TABLE_NAME (clientValues u)) k

/-- **Two connections race**: both have looked the same client up and found
none, and both are about to add it. -/
def Racing (ps : Fin n → ServerProg F Unit) : Prop :=
  ∃ i j uuid, i ≠ j ∧ Registers (ps i) uuid ∧ Registers (ps j) uuid

/-- A packet that a table can hold: neither coordinate is a NaN. -/
def Storable (data : ClientPacket.Data F) : Prop :=
  (Double.isNaN data.x || Double.isNaN data.y) = false

/-- **What is left of a connection**, with an assertion about the save under
way.

Two assertions are used below: none, to find out what a connection does next,
and the one of the next section, for connections that have not thrown. -/
inductive Underway (I : Saving.Phase → ClientPacket.Data F → Prop) :
    ServerProg F Unit → Prop
  /-- No save is under way. -/
  | waiting {l : List (ClientPacket.Data F)} (hl : ∀ data ∈ l, Storable data) :
      Underway I (saves l)
  /-- A save is under way. -/
  | saving {phase : Saving.Phase} {data : ClientPacket.Data F}
      {l : List (ClientPacket.Data F)} (hphase : I phase data) (hdata : Storable data)
      (hl : ∀ data ∈ l, Storable data) :
      Underway I ((phase.prog data).bind fun _ => saves l)

/-- The next call of a connection is that of a save. -/
theorem Underway.call_inv {I : Saving.Phase → ClientPacket.Data F → Prop}
    (hlooking : ∀ data, I .looking data) {q : ServerProg F Unit} (h : Underway I q) {c : Cmd F}
    {k : c.Resp → ServerProg F Unit} (hq : q = .call c k) :
    ∃ phase data k' l, I phase data ∧ Storable data ∧ (∀ data ∈ l, Storable data)
      ∧ q = ((phase.prog data).bind fun _ => saves l) ∧ phase.prog data = .call c k'
      ∧ k = fun r => (k' r).bind fun _ => saves l := by
  have hwaiting : ∀ l : List (ClientPacket.Data F), (∀ data ∈ l, Storable data) →
      saves l = .call c k → ∃ phase data k' l', I phase data ∧ Storable data
        ∧ (∀ data ∈ l', Storable data) ∧ saves l = ((phase.prog data).bind fun _ => saves l')
        ∧ phase.prog data = .call c k' ∧ k = fun r => (k' r).bind fun _ => saves l' := by
    intro l hl hq
    cases l with
    | nil => cases hq
    | cons data l =>
      obtain ⟨hdata, hl⟩ := List.forall_mem_cons.mp hl
      obtain ⟨k', hk', rfl⟩ := (Prog.bind_eq_call (saves_cons data l ▸ hq)).resolve_right
        fun ⟨a, ha, _⟩ => nomatch ha
      exact ⟨.looking, data, k', l, hlooking data, hdata, hl, saves_cons data l, hk', rfl⟩
  cases h with
  | waiting hl => exact hwaiting _ hl hq
  | @saving phase data l hphase hdata hl =>
    rcases Prog.bind_eq_call hq with ⟨k', hk', rfl⟩ | ⟨a, ha, hq'⟩
    · exact ⟨phase, data, k', l, hphase, hdata, hl, rfl, hk', rfl⟩
    · -- the save has returned, and the next one begins
      rw [ha]
      exact hwaiting l hl hq'

/-- A turn of a connection is a step of a save. -/
theorem Underway.step {I : Saving.Phase → ClientPacket.Data F → Prop}
    (hlooking : ∀ data, I .looking data) {q : ServerProg F Unit} (h : Underway I q) {c : Cmd F}
    {k : c.Resp → ServerProg F Unit} (hq : q = .call c k) {s s' : Store F} {r : c.Resp}
    (hc : storeHandler E faulty clock s c r s') :
    ∃ phase data phase' l, I phase data ∧ Storable data ∧ (∀ data ∈ l, Storable data)
      ∧ q = ((phase.prog data).bind fun _ => saves l)
      ∧ Saving.Step faulty data phase s phase' s'
      ∧ k r = ((phase'.prog data).bind fun _ => saves l) := by
  obtain ⟨phase, data, k', l, hphase, hdata, hl, hq', hp, rfl⟩ := h.call_inv hlooking hq
  obtain ⟨phase', hk, hstep⟩ := Saving.step hp hc
  exact ⟨phase, data, phase', l, hphase, hdata, hl, hq', hstep, congrArg (Prog.bind · _) hk⟩

/-- An event has added a client.

Reading the store before and after, which is all an event shows. -/
def Event.Adds (e : Event (Store F) (Cmd F) Cmd.Resp) (uuid : Bytes) : Prop :=
  e.pre.find uuid = none ∧ e.post.find uuid ≠ none

/-- A connection that is about to add a client adds it, if its saves all
return. -/
theorem Underway.registers {q : ServerProg F Unit} (hq : Underway (fun _ _ => True) q)
    {uuid : Bytes} (hreg : Registers q uuid) {s t : Store F}
    {es : List (Event (Store F) (Cmd F) Cmd.Resp)}
    (h : Steps (storeHandler E faulty clock) Store.Grows q s es (.ret ()) t) :
    ∃ e ∈ es, e.Adds uuid := by
  obtain ⟨u, k, rfl, rfl⟩ := hreg
  obtain ⟨-, hend, -⟩ | ⟨s₁, r, s₂, es', rfl, -, hc, rest⟩ := Steps.call_inv h
  · cases hend
  · obtain ⟨phase, data, k', l, -, -, -, -, hp, rfl⟩ := hq.call_inv (fun _ => trivial) rfl
    obtain ⟨phase', hk, hstep⟩ := Saving.step hp hc
    refine ⟨_, List.mem_cons_self, ?_⟩
    cases hstep with
    | registered hnone hadds =>
      cases hp
      obtain ⟨id, hid⟩ := Saving.AddsClient.find hadds
      exact ⟨hnone, hid ▸ Option.some_ne_none _⟩
    | rejected what h =>
      have rest : Steps _ Store.Grows ((k' r).bind fun _ => saves l) _ _ _ _ := rest
      rw [hk] at rest
      obtain ⟨-, hend, -⟩ := Steps.throw_inv rest
      cases hend
    | stored hx hy hadds =>
      injection hp with hcmd
      injection hcmd with hname
      exact absurd hname (by decide)
    | refused what h =>
      injection hp with hcmd
      injection hcmd with hname
      exact absurd hname (by decide)
    | _ => cases hp

/-- A client is added once.

Clients are not removed, so after the first of the two the client is there. -/
theorem added_once (h : Interleaved (storeHandler E faulty clock) ps s turns left t)
    (hturns : ∀ e ∈ turns, e.2.pre.Grows e.2.post) {uuid : Bytes}
    {e e' : Turn (Fin n) (Store F) (Cmd F) Cmd.Resp} (he : e ∈ turns) (he' : e' ∈ turns)
    (hne : e ≠ e') : ¬ (e.2.Adds uuid ∧ e'.2.Adds uuid) := by
  have hsymm : Std.Symm fun e e' : Turn (Fin n) (Store F) (Cmd F) Cmd.Resp =>
      ¬ (e.2.Adds uuid ∧ e'.2.Adds uuid) := ⟨fun _ _ h h' => h h'.symm⟩
  have hpairs := (h.ordered (G := Store.Grows) hturns).imp
    (S := fun e e' => ¬ (e.2.Adds uuid ∧ e'.2.Adds uuid)) ?_
  · exact hpairs.forall he he' hne
  · -- a client that has been added is there at every later turn
    rintro e e' hg ⟨⟨-, hpost⟩, hpre, -⟩
    obtain ⟨c, hc⟩ := Option.ne_none_iff_exists'.mp hpost
    cases hpre.symm.trans (hg.find hc)

/-- **If two connections race, some save throws.**

If both returned, both would have added the client, in different turns. -/
theorem racing_throws (hpackets : ∀ i, ∀ data ∈ packets i, Storable data)
    {qs : Fin n → ServerProg F Unit} {m : Store F}
    (h : Interleaved.Visits (storeHandler E faulty clock) (fun i => saves (packets i)) s turns
      left t qs m) (hrace : Racing qs) : ¬ ∀ i, left i = .ret () := by
  intro hleft
  obtain ⟨before, after, rfl, hbefore, hafter⟩ := h
  obtain ⟨i, j, uuid, hij, hi, hj⟩ := hrace
  obtain ⟨hqs, -⟩ := hbefore.rely_guarantee (J := fun _ q _ => Underway (fun _ _ => True) q)
    (G := fun _ _ => True)
    (fun i c k s r s' hq hc => by
      obtain ⟨phase, data, phase', l, -, hdata, hl, -, -, hk⟩ := hq.step (fun _ => trivial) rfl hc
      exact ⟨hk ▸ .saving trivial hdata hl, trivial⟩)
    (fun _ _ _ _ hq _ => hq) (fun i => .waiting (hpackets i))
  have hturns : ∀ e ∈ after, e.2.pre.Grows e.2.post := fun e he =>
    (interleaved_stores (fun i => saves_conforms (packets i)) (hbefore.append hafter) e
      (List.mem_append_right _ he)).1
  -- both of them add the client
  have hadds : ∀ i, Registers (qs i) uuid → ∃ e, (i, e) ∈ after
      ∧ e.Adds uuid := by
    intro i hi
    have hown := hafter.project (i := i) fun e he _ => hturns e he
    rw [hleft i] at hown
    obtain ⟨e, he, hadd⟩ := (hqs i).registers hi hown
    exact ⟨e, (mem_ownTurns i).mp he, hadd⟩
  obtain ⟨e, he, hadd⟩ := hadds i hi
  obtain ⟨e', he', hadd'⟩ := hadds j hj
  exact added_once hafter hturns he he' (fun heq => hij (congrArg Prod.fst heq)) ⟨hadd, hadd'⟩

/-! ## Without a race

The other direction is an invariant. What a save has seen of the store may be out of
date when it acts on it, but only if another save has added its client in between; and
just before that the two were racing. -/

/-- **What a save that will not throw knows** of the store.

Nothing is known while the client is looked up or the packet is stored: at
these points no other save can do harm. -/
def Saving.Phase.Clear (s : Store F) (phase : Saving.Phase) (data : ClientPacket.Data F) :
    Prop :=
  match phase with
  | .registering => s.find (cstr data.uuid) = none
  | .lookingAgain => ∃ c, s.find (cstr data.uuid) = some c
  | .failed _ => False
  | _ => True

/-- Its own steps keep that. -/
theorem Saving.Step.clear {data : ClientPacket.Data F} {phase phase' : Saving.Phase}
    {s s' : Store F} (h : Saving.Step False data phase s phase' s')
    (hphase : phase.Clear s data) (hdata : Storable data) : phase'.Clear s' data := by
  cases h with
  | unknown h => exact h.resolve_left id
  | lookupFailed what h => exact h.elim
  | registered h hadds =>
    obtain ⟨id, hid⟩ := Saving.AddsClient.find hadds
    exact ⟨_, hid⟩
  | rejected what h => exact absurd hphase (h.resolve_left id)
  | vanished what h =>
    obtain ⟨c, hc⟩ := hphase
    cases hc.symm.trans (h.resolve_left fun h => h)
  | refused what h => exact absurd (h.resolve_left id) (Bool.eq_false_iff.mp hdata)
  | _ => trivial

/-- And so do the steps of others, unless they add the same client.

The only step of another save that could break it is the one that adds a
client. -/
theorem Saving.Step.clear_others {data data' : ClientPacket.Data F}
    {phase phase' other : Saving.Phase} {s s' : Store F}
    (h : Saving.Step False data phase s phase' s') (hother : other.Clear s data')
    (hrace : phase = .registering → other = .registering →
      cstr data.uuid ≠ cstr data'.uuid) : other.Clear s' data' := by
  cases other with
  | registering =>
    cases h with
    | registered hnone hadds =>
      obtain ⟨id, hcs, -⟩ := hadds
      rw [Saving.Phase.Clear, Store.find_eq_none_iff] at hother ⊢
      rw [hcs, List.map_append, List.mem_append, not_or]
      exact ⟨hother, fun hmem => hrace rfl rfl (List.mem_singleton.mp hmem).symm⟩
    | stored hx hy hadds =>
      obtain ⟨id, hcs, -⟩ := hadds
      rw [Saving.Phase.Clear, Store.find, hcs]
      exact hother
    | _ => exact hother
  | lookingAgain =>
    obtain ⟨c, hc⟩ := hother
    exact ⟨c, h.grows.find hc⟩
  | _ => exact hother

/-- A connection that has not thrown keeps what it knows while others save other
clients. -/
theorem Underway.others {q : ServerProg F Unit} {s s' : Store F}
    (hq : Underway (Saving.Phase.Clear s) q) {data : ClientPacket.Data F}
    {phase phase' : Saving.Phase} (hstep : Saving.Step False data phase s phase' s')
    (hrace : phase = .registering → ¬ Registers q (cstr data.uuid)) :
    Underway (Saving.Phase.Clear s') q := by
  cases hq with
  | waiting hl => exact .waiting hl
  | @saving other data' l hother hdata' hl =>
    refine .saving (hstep.clear_others hother ?_) hdata' hl
    rintro hphase rfl huuid
    exact hrace hphase ⟨data'.uuid, _, huuid.symm, rfl⟩

/-- A connection that knows this has not thrown. -/
theorem Underway.not_throw {q : ServerProg F Unit} {s : Store F}
    (hq : Underway (Saving.Phase.Clear s) q) (ex : Exc) : q ≠ .throw ex := by
  have hwaiting : ∀ l : List (ClientPacket.Data F), saves l ≠ .throw ex := by
    intro l
    cases l with
    | nil => nofun
    | cons data l =>
      rw [saves_cons]
      nofun
  cases hq with
  | waiting hl => exact hwaiting _
  | @saving phase data l hphase hdata hl =>
    cases phase with
    | stored => exact hwaiting l
    | failed what => exact hphase.elim
    | _ => nofun

/-- **As long as no two connections race, no save throws.**

By induction on the turns. The hypothesis is about all points of the run, and
the run that is left has the points of the run but for the first. -/
theorem clear_run (h : Interleaved (storeHandler E False clock) ps s turns left t)
    (hps : ∀ i, Underway (Saving.Phase.Clear s) (ps i))
    (hrace : ∀ qs m, Interleaved.Visits (storeHandler E False clock) ps s turns left t qs m →
      ¬ Racing qs) : ∀ i, Underway (Saving.Phase.Clear t) (left i) := by
  induction h with
  | nil => exact hps
  | @cons ps _ i c k r s s₁ t tr hp hc rest ih =>
    have hnow := hrace _ _ (Interleaved.visits_start (.cons hp hc rest))
    obtain ⟨phase, data, phase', l, hphase, hdata, hl, hq, hstep, hk⟩ :=
      (hps i).step (fun _ => trivial) hp hc
    refine ih (fun j => ?_) fun qs m hv => hrace qs m (Interleaved.visits_cons hp hc hv)
    by_cases hj : j = i
    · subst hj
      rw [Function.update_self, hk]
      exact .saving (hstep.clear hphase hdata) hdata hl
    · rw [Function.update_of_ne hj]
      refine (hps j).others hstep ?_
      rintro rfl hreg
      exact hnow ⟨i, j, cstr data.uuid, Ne.symm hj, ⟨data.uuid, _, rfl, hq⟩, hreg⟩

/-- **One connection by itself** saves its packets.

This is the serial run with which the others are compared. -/
theorem exists_saves (E : Engine F) (hclock : ∃ n, clock n) (s : Store F)
    {l : List (ClientPacket.Data F)} (hl : ∀ data ∈ l, Storable data) :
    ∃ es u, Steps (storeHandler E False clock) Eq (saves l) s es (.ret ()) u ∧ s.Saved l u := by
  obtain ⟨es, q, u, hrun, hend⟩ := exists_run E False hclock (saves_conforms l) s
  have h : Interleaved _ (fun _ : Fin 1 => saves l) _ _ _ _ :=
    Interleaved.alone (i := 0) hrun rfl
  -- there is no other to race with
  have hclear := clear_run h (fun _ => .waiting hl) fun qs m _ ⟨i, j, _, hij, _⟩ =>
    hij (Subsingleton.elim i j)
  obtain ⟨a, rfl⟩ : ∃ a, q = .ret a := hend.resolve_right fun ⟨ex, hq⟩ =>
    (hclear 0).not_throw ex ((Function.update_self _ _ _).trans hq)
  have hsaved : s.Saved ((List.finRange 1).flatMap fun _ => l) u :=
    connections_saved h fun i => by rw [Subsingleton.elim i 0, Function.update_self]
  rw [List.finRange_succ, List.finRange_zero, List.map_nil, List.flatMap_singleton] at hsaved
  exact ⟨es, u, hrun, hsaved⟩

end Connections

/-! ## When the saves are what they should be

Both directions together, for a server that has found any file and set its tables up. -/

/-- In every store that a server leaves behind, every row has its client. -/
theorem History.owned {hist : List (Epoch F)} {d : Database F} (h : History E hist d) :
    ∃ s : Store F, d.Holds s ∧ s.Owned := by
  obtain ⟨s, hs⟩ := h.sound
  refine ⟨s, hs.holds, fun p hp => ?_⟩
  obtain ⟨epoch, hmem, i, hwrote⟩ := hs.written p hp
  obtain ⟨_, _, -, hc, -⟩ := hs.attributed epoch hmem i p hwrote
  exact List.mem_map_of_mem (f := Client.id) hc

section Serial

variable {hist : List (Epoch F)} {d m : Database F} {boot : List (Event (Database F) (Cmd F)
  Cmd.Resp)} {n : ℕ} {packets : Fin n → List (ClientPacket.Data F)}
  {turns : List (Turn (Fin n) (Database F) (Cmd F) Cmd.Resp)} {left : Fin n → ServerProg F Unit}
  {d' : Database F}

/-- **Saves on several connections are what they should be exactly if no two of
them race**: then no save throws, and the rows are, up to a renaming of the
new ids, those of saving the packets of one connection after those of
another.

The second part is about runs in which every connection has come to its end,
since a run that is broken off may have lost nothing yet. The first part needs
no such condition: no race, no exception. Packets with a NaN are left out, as
their saves throw by themselves. -/
theorem saves_serial_iff (hclock : ∃ n, clock n) (hd : History E hist d)
    (hboot : Steps (handler E False clock) Eq construct d boot (.ret ()) m)
    (hpackets : ∀ i, ∀ data ∈ packets i, Storable data)
    (h : Interleaved (handler E False clock) (fun i => saves (packets i)) m turns left d') :
    ((∀ qs m', Interleaved.Visits (handler E False clock) (fun i => saves (packets i)) m turns
        left d' qs m' → ¬ Racing qs) → ∀ i ex, left i ≠ .throw ex)
      ∧ ((∀ i, left i = .ret () ∨ ∃ ex, left i = .throw ex) →
        ((∀ qs m', Interleaved.Visits (handler E False clock) (fun i => saves (packets i)) m
            turns left d' qs m' → ¬ Racing qs)
          ↔ (∀ i, left i = .ret ()) ∧ ∃ es, ∃ s t u : Store F, m = s.toDatabase
            ∧ d' = t.toDatabase ∧ Steps (handler E False clock) Eq
              (saves ((List.finRange n).flatMap packets)) m es (.ret ()) u.toDatabase
            ∧ s.Renames t u)) := by
  obtain ⟨s, hholds, howned⟩ := hd.owned
  obtain ⟨-, hm, -, -⟩ := construct_steps hholds hboot
  obtain rfl := hm rfl
  have hconforms := fun i => saves_conforms (packets i)
  have hnothrow : (∀ qs m', Interleaved.Visits (handler E False clock)
      (fun i => saves (packets i)) s.toDatabase turns left d' qs m' → ¬ Racing qs) →
      ∀ i ex, left i ≠ .throw ex := by
    intro hrace
    obtain ⟨t, turns', rfl, rfl, hrun, -⟩ := interleaved_grows hconforms h
    refine fun i => (clear_run hrun (fun i => .waiting (hpackets i)) ?_ i).not_throw
    rintro qs m ⟨before, after, rfl, hbefore, hafter⟩
    exact hrace qs _ ⟨_, _, List.map_append, hbefore.unlift, hafter.unlift⟩
  refine ⟨hnothrow, fun hend => ⟨fun hrace => ?_, ?_⟩⟩
  · have hleft := fun i => (hend i).resolve_right fun ⟨ex, hi⟩ => hnothrow hrace i ex hi
    obtain ⟨t, turns', rfl, rfl, hrun, -⟩ := interleaved_grows hconforms h
    obtain ⟨es, u, hserial, hu⟩ := exists_saves E hclock s
      (l := (List.finRange n).flatMap packets) fun data hdata => by
        obtain ⟨i, -, hi⟩ := List.mem_flatMap.mp hdata
        exact hpackets i data hi
    exact ⟨hleft, _, s, t, u, rfl, rfl, hserial.unlift,
      (connections_saved hrun hleft).renames howned hu⟩
  · rintro ⟨hleft, -⟩ qs m' ⟨before, after, rfl, hbefore, hafter⟩ hrace
    obtain ⟨m, before', rfl, rfl, hbefore, hqs, -⟩ := hbefore.lift simulates_store hconforms
    obtain ⟨t, after', rfl, rfl, hafter, -, -⟩ := hafter.lift simulates_store hqs
    exact racing_throws hpackets ⟨before', after', rfl, hbefore, hafter⟩ hrace hleft

end Serial

/-! ## A packet that is lost

The shortest such run: two connections, one packet each, of the same client that is
not known yet. -/

/-- A save that adds its client by itself from then on stores its packet. -/
theorem exists_registering (E : Engine F) (hclock : ∃ n, clock n) {s : Store F}
    {data : ClientPacket.Data F} (hdata : Storable data) (hnone : s.find (cstr data.uuid) = none) :
    ∃ es t, Steps (storeHandler E False clock) Eq (Saving.Phase.registering.prog data) s es
        (.ret ()) t
      ∧ t.find (cstr data.uuid) ≠ none ∧ t.packets.length = s.packets.length + 1 := by
  obtain ⟨es, q, t, hrun, hend⟩ := exists_run E False hclock
    (Saving.Phase.conforms data .registering) s
  obtain ⟨⟨phase, rfl, halone⟩, -⟩ := Saving.steps_alone hrun
    (show Saving.Phase.registering.Alone False data s s from ⟨rfl, Or.inr hnone⟩)
  cases phase with
  | stored =>
    obtain ⟨m, clientId, hfind, hreg, hadds⟩ := halone
    have hm : m.packets = s.packets := by
      rcases hreg with rfl | ⟨-, _, -, hps⟩
      · rfl
      · exact hps
    refine ⟨es, t, hrun, hadds.grows.find hfind ▸ Option.some_ne_none _, ?_⟩
    obtain ⟨id, -, hps⟩ := hadds
    rw [hps, hm, List.length_append, List.length_singleton]
  | failed what => exact absurd (halone.2.resolve_left id) (Bool.eq_false_iff.mp hdata)
  | _ => rcases hend with ⟨_, hq⟩ | ⟨_, hq⟩ <;> cases hq

/-- A packet of a client there is none of yet. -/
def newcomer : ClientPacket.Data Binary64 := ⟨[97], 0, ⟨0⟩, ⟨0⟩⟩

theorem newcomer_storable : Storable newcomer := by
  unfold Storable
  decide

/-- **A run in which a packet is lost**: two connections look the same client up
and find none; the first adds it and stores its packet; then the second tries
to add it. -/
theorem exists_lost_packet :
    ∃ (turns : List (Turn (Fin 2) (Store Binary64) (Cmd Binary64) Cmd.Resp)) (left :
      Fin 2 → ServerProg Binary64 Unit) (t : Store Binary64) (what : String),
      Interleaved (storeHandler (Engine.reference : Engine Binary64) False (fun _ => True))
          (fun _ => saves [newcomer]) Store.empty turns left t
        ∧ left 0 = .ret () ∧ left 1 = .throw (.exception what) ∧ t.packets.length = 1 := by
  have hclock : ∃ n, (fun _ : Int => True) n := ⟨0, trivial⟩
  -- neither finds the client
  obtain ⟨c, k, r, s', phase', hp, hk, hc, hstep⟩ := Saving.exists_step
    (Engine.reference : Engine Binary64) False hclock newcomer Store.empty .looking
    ⟨nofun, nofun⟩
  have hunknown : phase' = .registering ∧ s' = Store.empty := by
    cases hstep with
    | found h => cases h
    | unknown h => exact ⟨rfl, rfl⟩
    | lookupFailed what h => exact h.elim
  obtain ⟨rfl, rfl⟩ := hunknown
  have hlook : Steps (storeHandler (Engine.reference : Engine Binary64) False (fun _ => True))
      Eq (saves [newcomer]) Store.empty _ _ Store.empty :=
    saves_cons newcomer [] ▸ (hp ▸ Steps.one hc hk).bind_left
  -- the first goes on to its end
  obtain ⟨es, t, hfirst, hfind, hlen⟩ := exists_registering
    (Engine.reference : Engine Binary64) hclock newcomer_storable
    (show (Store.empty : Store Binary64).find (cstr newcomer.uuid) = none from rfl)
  -- the second cannot
  obtain ⟨c₂, k₂, r₂, t', phase₂, hp₂, hk₂, hc₂, hstep₂⟩ := Saving.exists_step
    (Engine.reference : Engine Binary64) False hclock newcomer t .registering ⟨nofun, nofun⟩
  obtain ⟨what, rfl, rfl⟩ : ∃ what, phase₂ = .failed what ∧ t' = t := by
    cases hstep₂ with
    | registered h => exact absurd h hfind
    | rejected what h => exact ⟨what, rfl, rfl⟩
  have hsecond := (hp₂ ▸ Steps.one hc₂ hk₂ : Steps (storeHandler
    (Engine.reference : Engine Binary64) False (fun _ => True)) Eq
    (Saving.Phase.registering.prog newcomer) t' _ _ t')
  have hstart : Interleaved (storeHandler (Engine.reference : Engine Binary64) False
    (fun _ => True)) (fun _ : Fin 2 => saves [newcomer]) Store.empty []
    (fun _ => saves [newcomer]) Store.empty := .nil
  have h := (((hstart.then_alone (i := 0) hlook rfl).then_alone (i := 1) hlook
    (by simp)).then_alone (i := 0) (hfirst.bind_left (f := fun _ => saves []))
    (by simp)).then_alone (i := 1) (hsecond.bind_left (f := fun _ => saves [])) (by simp)
  exact ⟨_, _, _, what, h, rfl, rfl, hlen⟩

/-- **A save may throw because of another**, and its packet is lost, on a server
that has just set its tables up. -/
theorem saves_lose_packet :
    ∃ boot d turns left d' what,
      Steps (handler (Engine.reference : Engine Binary64) False (fun _ => True)) Eq construct []
          boot (.ret ()) d
        ∧ Interleaved (handler (Engine.reference : Engine Binary64) False (fun _ => True))
          (fun _ : Fin 2 => saves [newcomer]) d turns left d'
        ∧ left 0 = .ret () ∧ left 1 = .throw (.exception what)
        ∧ (d'.rowsOf PACKETS_TABLE_NAME).length = 1 := by
  obtain ⟨boot, hboot⟩ := exists_construct (Engine.reference : Engine Binary64) False
    (fun _ => True) (d := []) (s := Store.empty) (Or.inr ⟨rfl, Or.inl rfl⟩)
  obtain ⟨turns, left, t, what, h, hfst, hsnd, hlen⟩ := exists_lost_packet
  refine ⟨boot, _, _, left, _, what, hboot, h.unlift, hfst, hsnd, ?_⟩
  rw [Store.rowsOf_packets, List.length_map, hlen]

/-- In particular there is a race in that run. -/
theorem saves_race :
    ∃ boot d turns left d' qs m,
      Steps (handler (Engine.reference : Engine Binary64) False (fun _ => True)) Eq construct []
          boot (.ret ()) d
        ∧ Interleaved.Visits (handler (Engine.reference : Engine Binary64) False (fun _ => True))
          (fun _ : Fin 2 => saves [newcomer]) d turns left d' qs m
        ∧ Racing qs := by
  obtain ⟨boot, hboot⟩ := exists_construct (Engine.reference : Engine Binary64) False
    (fun _ => True) (d := []) (s := Store.empty) (Or.inr ⟨rfl, Or.inl rfl⟩)
  obtain ⟨turns, left, t, what, h, -, hsnd, -⟩ := exists_lost_packet
  by_contra hnone
  refine (saves_serial_iff ⟨0, trivial⟩ .fresh hboot (fun i data hdata => ?_) h.unlift).1
    (fun qs m hv hrace => hnone ⟨boot, _, _, left, _, qs, m, hboot, hv, hrace⟩) 1 _ hsnd
  rw [List.mem_singleton.mp hdata]
  exact newcomer_storable
