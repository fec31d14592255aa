import TZ.Replies

/-!
# Exceptions

The program throws freely: every failing call, every `std::get` of another
alternative, every `at` out of range ends in an exception, and a null text in
undefined behaviour. When no call to SQLite fails, next to none of them can
happen (`no_unexpected_exception`). Collecting does not throw, no SELECT
does, and a save throws only what an INSERT that violates a constraint has
thrown.

The one place where that depends on other connections is the second lookup of
a save: the client it has added is still there, because no client ever goes.

The statement is about absence, and so it has to go through every place that could
throw, for every execution and every schedule. It is organised by calls: a call that is
answered as a healthy database answers leads to no exception, with the one exception of
an INSERT that violates a constraint. What is left are the expressions between calls,
which read rows, and the rows have the types the columns have.
-/

open Server

variable {F : Type} [Double F] {E : Engine F} {clock : Int → Prop}

/-! ## Calls that succeed and calls that violate a constraint

The two properties are of events, with the state before them: whether a row is turned
down because of a constraint can be seen from the table and the row. -/

/-- If the call is a SELECT, it has returned. -/
def Event.Selected {σ : Type} : Event σ (Cmd F) Cmd.Resp → Prop
  | ⟨_, .selectOne .., r, _⟩ => ∃ row, r = .ok row
  | ⟨_, .selectMany .., r, _⟩ => ∃ rows, r = .ok rows
  | _ => True

/-- The call is an INSERT that has thrown `ex`, for a row that its table
turns down because of a constraint. -/
def Event.Violates (E : Engine F) (ex : Exc) : Event (Database F) (Cmd F) Cmd.Resp → Prop
  | ⟨d, .insertOne tableName tableValues, r, _⟩ => r = .error ex
    ∧ ∃ t, d.find tableName = some t
      ∧ E.insert t (tableValues.map TableValue.columnName)
        (tableValues.map fun v => v.value.toCell) = .error SQLITE_CONSTRAINT
  | _ => False

omit [Double F] in
@[simp] theorem Event.selected_map {σ τ : Type} (f : σ → τ)
    (e : Event σ (Cmd F) Cmd.Resp) : (e.map f).Selected ↔ e.Selected := by
  obtain ⟨pre, cmd, resp, post⟩ := e
  cases cmd <;> exact Iff.rfl

/-- **No SELECT of the server throws**, if nothing fails. -/
theorem ServerCall.selected {c : Cmd F} (hc : ServerCall c) {s s' : Store F} {r : c.Resp}
    (h : storeHandler E False clock s c r s') :
    (⟨s, c, r, s'⟩ : Event (Store F) (Cmd F) Cmd.Resp).Selected := by
  have h : handler E False clock s.toDatabase c r s'.toDatabase := h
  cases hc with
  | lookup uuid =>
    obtain ⟨-, hr | ⟨hf, -⟩⟩ := Store.handler_lookup h
    · exact ⟨_, hr⟩
    · exact hf.elim
  | listClients =>
    obtain ⟨-, ⟨part, -, hr⟩ | ⟨hf, -⟩⟩ := Store.handler_listClients h
    · exact ⟨_, hr⟩
    · exact hf.elim
  | listPackets clientId =>
    obtain ⟨-, ⟨part, -, hr⟩ | ⟨hf, -⟩⟩ := Store.handler_listPackets h
    · exact ⟨_, hr⟩
    · exact hf.elim
  | _ => trivial

/-! ## A save that throws

If a save throws, the last thing it did is the call that made it throw. It is found by
looking at the run from its end. -/

namespace Saving

/-- What a save relies on for its second lookup: the client it has added is
there.

Among other saves the store may have changed in between, but it has only
grown. -/
def Phase.Added (data : ClientPacket.Data F) : Phase → Store F → Prop
  | .lookingAgain, s => s.find (cstr data.uuid) ≠ none
  | _, _ => True

variable {data : ClientPacket.Data F} {phase phase' : Phase} {s s' t : Store F}

/-- It is still there when the store has grown. -/
theorem Phase.Added.grows (h : phase.Added data s) (hg : s.Grows t) : phase.Added data t := by
  cases phase with
  | lookingAgain =>
    obtain ⟨c, hc⟩ := Option.ne_none_iff_exists'.mp h
    exact Option.ne_none_iff_exists'.mpr ⟨c, hg.find hc⟩
  | _ => trivial

theorem Step.added_client {faulty : Prop} (h : Step faulty data phase s phase' s') :
    phase'.Added data s' := by
  cases h with
  | registered _ hadds =>
    obtain ⟨id, hid⟩ := AddsClient.find hadds
    exact Option.ne_none_iff_exists'.mpr ⟨_, hid⟩
  | _ => trivial

/-- **A call after which a save throws** is an INSERT that violates a
constraint. -/
theorem violates_of_throw {c : Cmd F} {k : c.Resp → ServerProg F Unit} {r : c.Resp} {ex : Exc}
    (hp : phase.prog data = .call c k) (hs : phase.Added data s)
    (h : storeHandler E False clock s c r s') (hk : k r = .throw ex) :
    ∃ ex', ((⟨s, c, r, s'⟩ : Event (Store F) (Cmd F) Cmd.Resp).map
      Store.toDatabase).Violates E ex' ∧ ex = saveError ex' := by
  cases phase with
  | looking =>
    cases hp
    obtain ⟨-, ⟨c, -, rfl⟩ | ⟨-, rfl⟩ | ⟨hf, -⟩⟩ := storeHandler_lookup h
    · cases hk
    · cases hk
    · exact hf.elim
  | registering =>
    cases hp
    have h : handler E False clock s.toDatabase _ r s'.toDatabase := h
    obtain ⟨s'', -, ⟨rfl, -, -⟩ | ⟨-, ⟨what, rfl⟩, hcause⟩⟩ := Store.handler_addClient h
    · cases hk
    · cases hk
      refine ⟨_, ⟨rfl, _, s.find_clients, ?_⟩, rfl⟩
      -- the uuid is registered
      have hmem := (Store.find_eq_none_iff s).not_left.mp (hcause.resolve_left id)
      exact (Store.insert_client s E (cstr data.uuid)).trans (if_pos hmem)
  | lookingAgain =>
    cases hp
    obtain ⟨-, ⟨c, -, rfl⟩ | ⟨hnone, -⟩ | ⟨hf, -⟩⟩ := storeHandler_lookup h
    · cases hk
    · exact absurd (hnone.resolve_left id) hs
    · exact hf.elim
  | storing clientId =>
    cases hp
    have h : handler E False clock s.toDatabase _ r s'.toDatabase := h
    obtain ⟨s'', -, ⟨rfl, -, -, -⟩ | ⟨-, ⟨what, rfl⟩, hcause⟩⟩ := Store.handler_addPacket h
    · cases hk
    · cases hk
      refine ⟨_, ⟨rfl, _, s.find_packets, ?_⟩, rfl⟩
      -- a coordinate is a NaN
      exact (Store.insert_packet s E clientId data.timestamp data.x data.y).trans
        (if_pos (hcause.resolve_left id))
  | stored => cases hp
  | failed what => cases hp

/-- **A save that throws has violated a constraint**, among whatever others.

The steps of the others are the `Rely`, so this holds in any interleaving. -/
theorem steps_throw {es : List (Event (Store F) (Cmd F) Cmd.Resp)} {ex : Exc}
    (h : Steps (storeHandler E False clock) Store.Grows (phase.prog data) s es (.throw ex) t)
    (hs : phase.Added data s) (hphase : ∀ what, phase ≠ .failed what) :
    ∃ e ∈ es, ∃ ex', (e.map Store.toDatabase).Violates E ex' ∧ ex = saveError ex' := by
  generalize hp : phase.prog data = p at h
  generalize hq : (Prog.throw ex : ServerProg F Unit) = q at h
  induction h generalizing phase with
  | done hr =>
    subst hq
    cases phase with
    | failed what => exact absurd rfl (hphase what)
    | _ => cases hp
  | own hr hc rest ih =>
    have hs := hs.grows hr
    obtain ⟨phase', hk, hstep⟩ := step hp hc
    cases phase' with
    | failed what =>
      obtain ⟨-, hthrow, -⟩ := Steps.throw_inv (hk ▸ rest)
      rw [← hq] at hthrow
      obtain ⟨ex', hviolates, hex⟩ := violates_of_throw hp hs hc (hk.trans hthrow.symm)
      exact ⟨_, List.mem_cons_self, ex', hviolates, hex⟩
    | _ =>
      obtain ⟨e, he, hviolates⟩ := ih hstep.added_client nofun hk.symm hq
      exact ⟨e, List.mem_cons_of_mem _ he, hviolates⟩

end Saving

/-! ## Saves and collections side by side

From one execution to any number of them, and from an empty file to any that a server
may find. -/

variable {job : ℕ → Job F} {s : Store F} {turns : List (Turn ℕ (Database F) (Cmd F) Cmd.Resp)}
  {left : ℕ → ServerProg F Unit} {d : Database F}

/-- A collection does not throw, whatever others do. -/
theorem Job.collect_ne_throw {t : Store F} {es : List (Event (Store F) (Cmd F) Cmd.Resp)}
    {q : ServerProg F Unit}
    (h : Steps (storeHandler E False clock) Store.Grows (Job.collect : Job F).prog s es q t)
    (ex : Exc) : q ≠ .throw ex := by
  rintro rfl
  rcases Steps.bind_throw_inv h with h | ⟨_, _, _, _, -, -, h⟩
  · exact Collecting.steps_ne_throw h ex rfl
  · cases h.ret_inv.2.1

/-- **No exception is unexpected.** In every state a server can reach, over any
history of starts, deaths and failing calls, let executions of
`saveClientPacket` and `collectStatistics` go on side by side so that no call
fails except an INSERT that violates a constraint. Then no collection throws;
a save throws only what the violation of a constraint by one of its own
INSERTs has thrown; and every SELECT returns rows, so that no null pointer is
made a string.

Failures of SQLite are excluded by the hypothesis on the handler and
constraint violations are not, because the code can bring those about by
itself. -/
theorem no_unexpected_exception {hist : List (Epoch F)} {m : Database F}
    {boot : List (Event (Database F) (Cmd F) Cmd.Resp)} {d' : Database F}
    (hd : History E hist d)
    (hboot : Steps (handler E True (fun _ => True)) Eq construct d boot (.ret ()) m)
    (hrun : Interleaved (handler E False clock) (fun i => (job i).prog) m turns left d') :
    (∀ i, job i = .collect → ∀ ex, left i ≠ .throw ex)
      ∧ (∀ i packet ex, job i = .save packet → left i = .throw ex →
        ∃ e ∈ ownTurns i turns, ∃ ex', e.Violates E ex' ∧ ex = saveError ex')
      ∧ ∀ e ∈ turns, e.2.Selected := by
  obtain ⟨s, hs⟩ := hd.sound
  obtain rfl := (construct_steps hs.holds hboot).2.1 rfl
  obtain ⟨t, turns', rfl, rfl, hrun, -, hturns⟩ := served_turns hrun
  have hown : ∀ i, Steps (storeHandler E False clock) Store.Grows (job i).prog s
      (ownTurns i turns') (left i) t :=
    fun i => hrun.project fun e he _ => (hturns e he).1
  refine ⟨fun i hi => ?_, fun i packet ex hi hex => ?_, List.forall_mem_map.mpr fun e he => ?_⟩
  · have hcollect := hown i
    rw [hi] at hcollect
    exact Job.collect_ne_throw hcollect
  · have hsave := hown i
    rw [hi, hex] at hsave
    obtain ⟨type, data⟩ := packet
    cases data with
    | none => cases hsave.ret_inv.2.1
    | some data =>
      rw [show (Job.save ⟨type, some data⟩).prog = Saving.Phase.looking.prog data from
        Saving.saveClientPacket_eq data type] at hsave
      obtain ⟨e, he, hviolates⟩ := Saving.steps_throw hsave trivial nofun
      rw [Interleaved.ownTurns_mapTurn]
      exact ⟨_, List.mem_map_of_mem he, hviolates⟩
  · have hmem : e.2 ∈ ownTurns e.1 turns' := (mem_ownTurns e.1).mpr he
    have hcall := (steps_calls (fun _ h => h) (job e.1).prog_conforms (hown e.1) _ hmem).1
    exact (Event.selected_map Store.toDatabase e.2).mpr
      (hcall.selected ((hown e.1).handled _ hmem))

/-- In particular when a packet is turned down because of a NaN. -/
theorem no_unexpected_exception_nan :
    ∃ (es : List (Event (Database Binary64) (Cmd Binary64) Cmd.Resp)) (what : String)
      (d : Database Binary64),
      Steps (handler (Engine.reference : Engine Binary64) False (fun _ => True)) Eq
        (saveClientPacket Saving.nanPacket) Store.empty.toDatabase es (.throw (.exception what)) d
      ∧ ∃ e ∈ es, ∃ ex', e.Violates Engine.reference ex' ∧ Exc.exception what = saveError ex' := by
  obtain ⟨es, what, id, t, hrun, -⟩ := Saving.exists_nanPacket_run
  obtain ⟨boot, hboot⟩ := exists_construct (Engine.reference : Engine Binary64) True
    (fun _ => True) (show Database.Holds [] Store.empty from Or.inr ⟨rfl, Or.inl rfl⟩)
  have halone : Interleaved _ (fun i => (Job.save Saving.nanPacket).prog) _ _ _ _ :=
    Interleaved.alone (i := 0) hrun rfl
  obtain ⟨-, hthrows, -⟩ := no_unexpected_exception .fresh hboot halone
  obtain ⟨e, he, hviolates⟩ := hthrows 0 Saving.nanPacket _ rfl (Function.update_self _ _ _)
  obtain ⟨e', he', heq⟩ := List.mem_map.mp ((mem_ownTurns 0).mp he)
  cases heq
  exact ⟨es, what, _, hrun, e, he', hviolates⟩
