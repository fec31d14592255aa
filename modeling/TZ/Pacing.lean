import TZ.Automata
import TZ.Shown

/-!
# How often a client sends

A client draws the time of its next packet after it has sent one, and then looks
at the clock every now and then. So two packets of a client are at least
`INTERVAL_MIN` apart by its own clock, if the clock is not set back, however long
the client is held up anywhere (`Client.start_follows`). The rows the server
keeps are then spaced out in the same way, and few of them are in any window
(`packets_paced`).

What the client remembers of the past is an automaton of two values: what the
clock has shown last, and before when nothing may be sent.

The bound is about rows, and is shown for the program that sends. In between lies the
network, but all that is needed of it is delivery: the rows that are added are a part of
what was sent, in the same order (`packets_delivered`), and a part of a spaced list is
spaced. So nothing about threads or the database is used here, and delays and failures
do not matter, which can only remove points or move them later in real time, but not
change the timestamps.

The clock is the client's own, an answer of its surroundings, and could go backwards.
The times it has shown are therefore kept with the connection, and that they do not go
backwards is a hypothesis about the run that is asked of this one client only.
-/

open Server Protobuf

/-! ## Points that are spaced out

Counting points by the room they take: with a step between any two of them, n points
take n - 1 steps. -/

/-- **Points in time, in order, that are at least a step apart.** -/
def Spaced (step : Int) (l : List Int) : Prop := l.Pairwise fun a b => a + step ≤ b

namespace Spaced

variable {step : Int} {l : List Int}

theorem sublist {l' : List Int} (h : Spaced step l) (hsub : l'.Sublist l) : Spaced step l' :=
  List.Pairwise.sublist hsub h

/-- One more point. -/
theorem concat {t : Int} (h : Spaced step l) (ht : ∀ a ∈ l, a + step ≤ t) :
    Spaced step (l ++ [t]) :=
  List.pairwise_append.mpr ⟨h, List.pairwise_singleton _ _,
    fun a ha _ hb => List.mem_singleton.mp hb ▸ ht a ha⟩

/-- **Few points fit between two of them.**

Stated as a product to avoid division; the bound on the count comes from
integers at the end. -/
theorem length_mul_le {first last : Int} (h : Spaced step l) (hfirst : ∀ a ∈ l, first ≤ a)
    (hlast : ∀ a ∈ l, a ≤ last) (hle : first ≤ last + step) :
    (l.length : Int) * step ≤ last - first + step := by
  induction l generalizing first with
  | nil =>
    rw [List.length_nil, Int.natCast_zero, Int.zero_mul]
    omega
  | cons a l ih =>
    obtain ⟨ha, hl⟩ := List.pairwise_cons.mp h
    have hrest := ih hl ha (fun b hb => hlast b (List.mem_cons_of_mem _ hb))
      (Int.add_le_add_right (hlast a List.mem_cons_self) step)
    have hcons : ((a :: l).length : Int) * step = l.length * step + step := by
      rw [List.length_cons, Nat.cast_succ, Int.add_mul, Int.one_mul]
    have := hfirst a List.mem_cons_self
    omega

/-- **Few samples are in a window.**

A window is bounded from above by the point it ends at, so samples that are
later are taken out first. A client with a clock that is ahead may have such
samples. -/
theorem length_since_le {K : Type} {l : List (Sample K)} (h : Spaced step (l.map Sample.timestamp))
    (now : Int) {width : Int} (hwidth : 0 ≤ width + step) :
    ((Sample.since (now - width) (l.filter fun p => p.timestamp ≤ now)).length : Int) * step
      ≤ width + step := by
  have hsub := ((List.filter_sublist (p := fun p : Sample K => now - width ≤ p.timestamp)).trans
    (List.filter_sublist (p := fun p : Sample K => p.timestamp ≤ now) (l := l))).map
      Sample.timestamp
  have hfirst : ∀ p ∈ Sample.since (now - width) (l.filter fun p => p.timestamp ≤ now),
      now - width ≤ p.timestamp := fun p hp => of_decide_eq_true (List.mem_filter.mp hp).2
  have hlast : ∀ p ∈ Sample.since (now - width) (l.filter fun p => p.timestamp ≤ now),
      p.timestamp ≤ now :=
    fun p hp => of_decide_eq_true (List.mem_filter.mp (List.mem_of_mem_filter hp)).2
  have hlength := (h.sublist hsub).length_mul_le (List.forall_mem_map.mpr hfirst)
    (List.forall_mem_map.mpr hlast) (by omega)
  rw [List.length_map] at hlength
  exact hlength.trans (by omega)

end Spaced

variable {F : Type} [Double F]

/-! ## The pace of a client

The loop of the client sleeps and looks at the clock until a time that it has drawn
has come. How long it sleeps, and how late it is then, is left open; what matters is
that the next time is drawn from the time of the packet on. -/

namespace Client

/-- `INTERVAL_MIN` in ticks. -/
def gap : Int := INTERVAL_MIN * ticksPerSecond

/-- **What a client knows of the time**: what the clock has shown last, and, if it
has sent a packet, before when it does not send another.

The second is not what the client has drawn but the least that it can have
drawn. It is what the invariant needs, and the loop may wait longer. -/
structure Pace where
  /-- What the clock has shown last. -/
  now : Int
  /-- When the next packet is due at the earliest. -/
  due : Option Int

namespace Pace

/-- Nothing has been sent, and the clock has not been looked at. -/
def initial : Pace := ⟨-2 ^ 63, none⟩

/-- It is time to send. -/
def Due (pace : Pace) (now : Int) : Prop := ∀ t ∈ pace.due, t ≤ now

/-- What may be written: a packet of the client with the time the clock has shown
last, if it is due.

A packet carries the time that was read for it, so that the spacing in time is
one of timestamps. -/
def Allows (W : Writer F) (drawn : F → Prop) (uuid : Uuid) (pace : Pace) : ClientCmd F → Prop
  | .write buffer => ∃ data, Sends drawn uuid data ∧ data.timestamp = pace.now
      ∧ buffer = bytes W data ∧ pace.Due pace.now
  | _ => True

/-- How an answer moves the time.

The clock and the drawn interval are where assumptions about the surroundings
come in. A write may fail; the packet counts as sent all the same, as the
client does not send it again. -/
def Next (drawn : F → Prop) (pace : Pace) : (c : ClientCmd F) → c.Resp → Pace → Prop
  | .now, r, pace' => (-2 ^ 63 ≤ r ∧ r < 2 ^ 63) ∧ pace.now ≤ r ∧ pace' = { pace with now := r }
  | .interval, r, pace' => INTERVAL_MIN ≤ r ∧ pace' = pace
  | .coordinate, r, pace' => drawn r ∧ pace' = pace
  | .write _, _, pace' => pace' = { pace with due := some (pace.now + gap) }
  | _, _, pace' => pace' = pace

/-- **The automaton of a sender.** -/
def automaton (W : Writer F) (drawn : F → Prop) (uuid : Uuid) :
    Automaton Pace (ClientCmd F) ClientCmd.Resp := ⟨Allows W drawn uuid, Next drawn⟩

/-- What is true if a program does not throw. -/
def Done {α : Type} (Q : Pace → α → Prop) : Pace → Except Exc α → Prop
  | pace, .ok a => Q pace a
  | _, .error _ => True

theorem Due.mono {pace : Pace} {t t' : Int} (h : pace.Due t) (ht : t ≤ t') : pace.Due t' :=
  fun a ha => (h a ha).trans ht

end Pace

section Programs

open Pace

variable {W : Writer F} {drawn : F → Prop} {uuid : Uuid} {pace : Pace}

omit [Double F] in
theorem catchSystem_follows {α : Type} {A : Automaton Pace (ClientCmd F) ClientCmd.Resp}
    {Q : Pace → α → Prop} {p : ClientProg F α} (hp : p.Follows A (Done Q) pace)
    (what : String) : (catchSystem p what).Follows A (Done Q) pace := by
  refine hp.tryCatch (fun _ _ h => h) fun pace ex _ => ?_
  cases ex <;> trivial

/-- **A packet is sent when it is due**, and then none is for a while. -/
theorem sendPacket_follows (h : pace.Due pace.now) :
    (sendPacket W uuid).Follows (automaton W drawn uuid)
      (Done fun pace' _ => pace'.due = some (pace'.now + gap)) pace := by
  refine ⟨trivial, ?_⟩
  rintro timestamp _ ⟨htime, hnow, rfl⟩
  refine ⟨trivial, ?_⟩
  rintro x _ ⟨hx, rfl⟩
  refine ⟨trivial, ?_⟩
  rintro y _ ⟨hy, rfl⟩
  refine catchSystem_follows ?_ _
  refine Prog.Follows.bind (P := Done fun pace' _ => pace'.due = some (pace'.now + gap))
    (.ofExcept ?_ ?_) (fun _ _ h => h) (fun _ _ _ => trivial)
  · exact ⟨⟨uuid.to_string, timestamp, x, y⟩, ⟨rfl, htime, hx, hy⟩, rfl, rfl, h.mono hnow⟩
  · rintro r _ rfl
    cases r with
    | ok n => exact rfl
    | error ex => trivial

/-- **The next time is far enough away.**

The interval is drawn between `INTERVAL_MIN` and `INTERVAL_MAX` seconds, and
only the lower bound is used. -/
theorem nextSending_follows (h : pace.Due (pace.now + gap)) :
    (nextSending : ClientProg F Int).Follows (automaton W drawn uuid)
      (Done fun pace' nextTime => pace'.Due nextTime) pace := by
  refine ⟨trivial, ?_⟩
  rintro now _ ⟨-, hnow, rfl⟩
  refine ⟨trivial, ?_⟩
  rintro seconds _ ⟨hseconds, rfl⟩
  refine h.mono ?_
  have hgap : gap ≤ seconds * ticksPerSecond := Int.mul_le_mul_of_nonneg_right hseconds (by decide)
  exact Int.add_le_add hnow hgap

/-- A round of the loop. -/
theorem sendIfDue_follows {nextTime : Int} (h : pace.Due nextTime) :
    (sendIfDue W uuid nextTime).Follows (automaton W drawn uuid)
      (Done fun pace' nextTime' => pace'.Due nextTime') pace := by
  refine ⟨trivial, ?_⟩
  rintro now _ ⟨-, -, rfl⟩
  show Prog.Follows _ _ (if now ≥ nextTime then _ else _) _
  split_ifs with hdue
  · refine Prog.Follows.bind (sendPacket_follows (h.mono hdue)) ?_ fun _ _ _ => trivial
    intro pace' _ hpace'
    exact nextSending_follows fun t ht => by
      rw [hpace'] at ht
      exact (Option.mem_some.mp ht).ge
  · exact h

/-- **A sender keeps the pace**, for any number of rounds.

The loop has no end of its own, so the number of rounds is a parameter and
arbitrary. -/
theorem start_follows (n : ℕ) :
    (start W uuid n).Follows (automaton W drawn uuid) (Done fun _ _ => True) Pace.initial := by
  have hloop : ∀ n pace nextTime, pace.Due nextTime →
      (sendLoop W uuid n nextTime).Follows (automaton W drawn uuid) (Done fun _ _ => True)
        pace := by
    intro n
    induction n with
    | zero => exact fun _ _ _ => trivial
    | succ n ih =>
      intro pace nextTime hdue
      refine Prog.Follows.bind (sendIfDue_follows hdue) ?_ fun _ _ _ => trivial
      intro pace nextTime hdue
      refine ⟨trivial, ?_⟩
      rintro _ _ rfl
      refine ⟨trivial, ?_⟩
      rintro needExit _ rfl
      cases needExit with
      | true => trivial
      | false => exact ih _ _ hdue
  refine Prog.Follows.bind (nextSending_follows ?_) (fun pace nextTime => hloop n pace nextTime)
    fun _ _ _ => trivial
  exact fun t ht => nomatch ht

end Programs

end Client

/-! ## The pace on a connection

The automaton is about the program; what has been sent is in the connection. The
invariant ties the two together. -/

open Client

/-- **What is true of the connection of a sender**: it keeps the pace, and what it
has sent is spaced out. -/
structure Paced (W : Writer F) (drawn : F → Prop) (uuid : Uuid) (x : Connection)
    (q : ClientProg F (Option Bytes)) : Prop where
  /-- What is left of the client follows the automaton, and the packets that have
  been sent are not too close to each other, nor to the next. -/
  flow : ∃ (pace : Pace) (sent : List (ClientPacket.Data F)),
    q.Follows (Pace.automaton W drawn uuid) (Pace.Done fun _ _ => True) pace
    ∧ (pace.now ∈ x.clock ∨ pace.now = Pace.initial.now)
    ∧ x.up.written = sent.map (bytes W) ∧ (∀ data ∈ sent, Sends drawn uuid data)
    ∧ Spaced gap (sent.map ClientPacket.Data.timestamp)
    ∧ ∀ data ∈ sent, ∃ t ∈ pace.due, data.timestamp + gap ≤ t

namespace Paced

variable {W : Writer F} {drawn : F → Prop} {uuid : Uuid} {x x' : Connection}

/-- It is true when the client has just connected. -/
theorem initial (rounds : ℕ) (to_string : F → Bytes) :
    Paced W drawn uuid .empty ((Role.sender uuid rounds).prog W to_string) := by
  refine ⟨Pace.initial, [], ?_, Or.inr rfl, rfl, List.forall_mem_nil _, .nil, List.forall_mem_nil _⟩
  exact Prog.Follows.bind (start_follows rounds) (fun _ _ _ => trivial) fun _ _ _ => trivial

/-- The calls of the thread keep it. -/
theorem serve {q : ClientProg F (Option Bytes)} {c : Cmd F} {r : c.Resp}
    (h : Paced W drawn uuid x q) (hx : x.Serves W c r x') : Paced W drawn uuid x' q := by
  cases c with
  | read =>
    obtain ⟨up, hread, rfl⟩ := hx
    obtain ⟨pace, sent, hq, hnow, hwritten, hrest⟩ := h.flow
    exact ⟨pace, sent, hq, hnow, hread.written.trans hwritten, hrest⟩
  | write stats =>
    obtain ⟨down, -, rfl⟩ := hx
    obtain ⟨pace, sent, h⟩ := h.flow
    exact ⟨pace, sent, h⟩
  | _ => exact (show x' = x from hx) ▸ h

/-- **The calls of the client keep it**, if the clock is not set back.

The hypothesis is about the clock of the connection after the call, whose last
entry is what the call has just read. -/
theorem answer {c : ClientCmd F} {k : c.Resp → ClientProg F (Option Bytes)} {r : c.Resp}
    (h : Paced W drawn uuid x (.call c k)) (hx : x.Answers drawn c r x')
    (hclock : x'.clock.Pairwise (· ≤ ·)) : Paced W drawn uuid x' (k r) := by
  obtain ⟨pace, sent, ⟨hallows, hk⟩, hnow, hwritten, hsent, hspaced, hdue⟩ := h.flow
  cases c with
  | now =>
    obtain ⟨hr, rfl⟩ := hx
    have hle : pace.now ≤ r := by
      rcases hnow with hnow | hnow
      · exact (List.pairwise_append.mp hclock).2.2 _ hnow r (List.mem_singleton_self r)
      · exact hnow ▸ hr.1
    exact ⟨{ pace with now := r }, sent, hk r _ ⟨hr, hle, rfl⟩,
      Or.inl (List.mem_append_right _ (List.mem_singleton_self r)), hwritten, hsent, hspaced, hdue⟩
  | write buffer =>
    obtain ⟨up, hwrite, rfl⟩ := hx
    obtain ⟨data, hdata, htime, rfl, hpace⟩ := hallows
    have hlater : ∀ d ∈ sent, d.timestamp + gap ≤ data.timestamp := by
      intro d hd
      obtain ⟨t, ht, hle⟩ := hdue d hd
      exact htime ▸ hle.trans (hpace t ht)
    have hgap : pace.now ≤ pace.now + gap := Int.le_add_of_nonneg_right (by decide)
    have hafter : ∀ d ∈ sent, d.timestamp + gap ≤ pace.now + gap :=
      fun d hd => (hlater d hd).trans (htime ▸ hgap)
    refine ⟨{ pace with due := some (pace.now + gap) }, ?_⟩
    rcases hwrite.written.2 with hw | hw
    · exact ⟨sent, hk r _ rfl, hnow, hw.trans hwritten, hsent, hspaced,
        fun d hd => ⟨_, rfl, hafter d hd⟩⟩
    · refine ⟨sent ++ [data], hk r _ rfl, hnow, ?_, ?_, ?_, ?_⟩
      · rw [List.map_append]
        exact hw.trans (congrArg (· ++ [bytes W data]) hwritten)
      · exact List.forall_mem_append.mpr
          ⟨hsent, fun d hd => List.mem_singleton.mp hd ▸ hdata⟩
      · rw [List.map_append]
        exact hspaced.concat (List.forall_mem_map.mpr hlater)
      · refine List.forall_mem_append.mpr ⟨fun d hd => ⟨_, rfl, hafter d hd⟩, fun d hd => ?_⟩
        exact ⟨_, rfl, List.mem_singleton.mp hd ▸ htime ▸ le_rfl⟩
  | read =>
    obtain ⟨down, -, rfl⟩ := hx
    exact ⟨pace, sent, hk r _ rfl, hnow, hwritten, hsent, hspaced, hdue⟩
  | interval =>
    obtain ⟨hr, rfl⟩ := hx
    exact ⟨pace, sent, hk r _ ⟨hr.1, rfl⟩, hnow, hwritten, hsent, hspaced, hdue⟩
  | coordinate =>
    obtain ⟨hr, rfl⟩ := hx
    exact ⟨pace, sent, hk r _ ⟨hr, rfl⟩, hnow, hwritten, hsent, hspaced, hdue⟩
  | sleep =>
    obtain rfl : x' = x := hx
    exact ⟨pace, sent, hk r _ rfl, hnow, hwritten, hsent, hspaced, hdue⟩
  | needExit =>
    obtain rfl : x' = x := hx
    exact ⟨pace, sent, hk r _ rfl, hnow, hwritten, hsent, hspaced, hdue⟩

end Paced

namespace Network.Run

variable {ι : Type} [DecidableEq ι] {H : Handler (Database F) (Cmd F) Cmd.Resp} {W : Writer F}
  {drawn : F → Prop} {N M : Network ι F} {turns : List (Turn ι (Database F) (Cmd F) Cmd.Resp)}

/-- **A sender whose clock is not set back keeps the pace.** -/
theorem paced {i : ι} {uuid : Uuid} (h : Run H W drawn N turns M)
    (hclock : (M.connections i).clock.Pairwise (· ≤ ·))
    (hN : Paced W drawn uuid (N.connections i) (N.clients i)) :
    Paced W drawn uuid (M.connections i) (M.clients i) := by
  induction h with
  | done => exact hN
  | @served N M j c k r d x turns hp hc hx _ ih =>
    refine ih hclock ?_
    show Paced W drawn uuid (Function.update N.connections j x i) (N.clients i)
    by_cases hj : i = j
    · subst hj
      rw [Function.update_self]
      exact hN.serve hx
    · rw [Function.update_of_ne hj]
      exact hN
  | @answered N M j c k r x turns hp hx hrest ih =>
    refine ih hclock ?_
    show Paced W drawn uuid (Function.update N.connections j x i)
      (Function.update N.clients j (k r) i)
    by_cases hj : i = j
    · subst hj
      have hgrows := (hrest.grows i).clock
      rw [answer_connections] at hgrows
      rw [Function.update_self, Function.update_self]
      rw [hp] at hN
      exact hN.answer hx (hclock.sublist hgrows.sublist)
    · rw [Function.update_of_ne hj, Function.update_of_ne hj]
      exact hN

end Network.Run

/-! ## The pace of the rows

What is left is arithmetic: in a minute there is room for 12 steps of five seconds,
and in five minutes for 60. -/

/-- **The rows of a client are spaced out.** Let the network run as in
`packets_delivered`, and let the clock of a sender not be set back. Then the rows
that are added for it are in the order of time and at least `INTERVAL_MIN` apart;
so of those that are not later than some point, at most 13 are of the minute
before it, and at most 61 of the five minutes before it.

The counts are those of the windows of a reply, if the point is its time. So
the figures of one client are of few packets, whatever it does, unless its
clock is set back. -/
theorem packets_paced {ι : Type} [DecidableEq ι] {E : Engine F} {clock : Int → Prop}
    {W : Writer F} {drawn : F → Prop} {At : W.Stream → List (List UInt8) → Prop}
    {double : F → List UInt8} {maxSize : ℕ} {roles : ι → Role} {faulty : Prop}
    {hist : List (Epoch F)} {d₀ d : Database F}
    {boot : List (Event (Database F) (Cmd F) Cmd.Resp)} {to_string : F → Bytes}
    {messages : ι → ℕ} {turns : List (Turn ι (Database F) (Cmd F) Cmd.Resp)} {M : Network ι F}
    (hW : W.Lawful At double maxSize) (hzero : Double.isNaN (Double.zero : F) = false)
    (hdrawn : ∀ x, drawn x → Double.isNaN x = false)
    (hroles : ∀ i j uuid, (roles i).uuid = some uuid → (roles j).uuid = some uuid → i = j)
    (hd : History E hist d₀)
    (hboot : Steps (handler E True (fun _ => True)) Eq construct d₀ boot (.ret ()) d)
    (hrun : Network.Run (handler E faulty clock) W drawn
      (Network.start W to_string d roles messages) turns M)
    {i : ι} {uuid : Uuid} (hi : (roles i).uuid = some uuid)
    (hclock : (M.connections i).clock.Pairwise (· ≤ ·)) :
    ∃ s t : Store F, d = s.toDatabase ∧ M.database = t.toDatabase
      ∧ ∃ added, t.said uuid.to_string = s.said uuid.to_string ++ added
        ∧ Spaced gap (added.map Sample.timestamp)
        ∧ ∀ now, (Sample.since (now - STATS_INTERVAL_MINUTES_1)
            (added.filter fun p => p.timestamp ≤ now)).length ≤ 13
          ∧ (Sample.since (now - STATS_INTERVAL_MINUTES_2)
            (added.filter fun p => p.timestamp ≤ now)).length ≤ 61 := by
  obtain ⟨s, hs, howned⟩ := hd.owned
  obtain rfl := (construct_steps hs hboot).2.1 rfl
  obtain ⟨t, ht, -, hasserts⟩ := hrun.delivers hW hzero hdrawn hroles
    (Network.satisfies_start hW to_string howned messages)
  obtain ⟨-, sent, stored, hwritten, hsent, -, -, hsaid⟩ := (hasserts i).delivering hi
  have hstart : Paced W drawn uuid .empty ((roles i).prog W to_string) := by
    cases hrole : roles i with
    | asker =>
      rw [hrole] at hi
      cases hi
    | sender uuid' rounds =>
      rw [hrole] at hi
      cases hi
      exact .initial rounds to_string
  obtain ⟨-, sent', -, -, hwritten', hsent', hspaced, -⟩ := (hrun.paced hclock hstart).flow
  have hrows : Spaced gap (((sent.take stored).map fun data => data.received.sample).map
      Sample.timestamp) := by
    have hsamples := received_prefix hW hsent hsent'
      (show sent.map (bytes W) <+: sent'.map (bytes W) from hwritten ▸ hwritten' ▸ List.prefix_rfl)
    have hsub := (((List.take_sublist stored sent).map _).trans hsamples.sublist).map
      Sample.timestamp
    refine Spaced.sublist ?_ hsub
    rw [List.map_map]
    exact hspaced
  refine ⟨s, t, rfl, ht, _, hsaid, hrows, fun now => ⟨?_, ?_⟩⟩
  · have hcount := hrows.length_since_le now (show 0 ≤ STATS_INTERVAL_MINUTES_1 + gap by decide)
    have hgap : gap = 50000000 := rfl
    have hwidth : STATS_INTERVAL_MINUTES_1 = 600000000 := rfl
    rw [hgap] at hcount
    omega
  · have hcount := hrows.length_since_le now (show 0 ≤ STATS_INTERVAL_MINUTES_2 + gap by decide)
    have hgap : gap = 50000000 := rfl
    have hwidth : STATS_INTERVAL_MINUTES_2 = 3000000000 := rfl
    rw [hgap] at hcount
    omega

/-- In particular with two packets, the second sent as soon as it may. -/
theorem packets_paced_one :
    ∃ (turns : List (Turn Unit (Database Binary64) (Cmd Binary64) Cmd.Resp))
      (M : Network Unit Binary64) (t : Store Binary64) (added : List (Sample Binary64)),
      Network.PlainRun (fun _ => True) (Network.start binary64Writer (fun _ => [])
          Store.empty.toDatabase (fun _ : Unit => .sender firstUuid 2) fun _ => 2) turns M
        ∧ M.database = t.toDatabase
        ∧ (M.connections ()).clock = [-50000000, 0, 0, 0, 50000000, 50000000]
        ∧ t.said firstUuid.to_string = added
        ∧ added = [firstData.received.sample, secondData.received.sample]
        ∧ Spaced gap (added.map Sample.timestamp)
        ∧ ∀ now, (Sample.since (now - STATS_INTERVAL_MINUTES_1)
            (added.filter fun p => p.timestamp ≤ now)).length ≤ 13
          ∧ (Sample.since (now - STATS_INTERVAL_MINUTES_2)
            (added.filter fun p => p.timestamp ≤ now)).length ≤ 61 := by
  obtain ⟨turns, M, -, hrun, -, hthread, hconnection⟩ := exists_delivered_run
  obtain ⟨boot, hboot⟩ := exists_construct (Engine.reference : Engine Binary64) True
    (fun _ => True) (show Database.Holds [] Store.empty from Or.inr ⟨rfl, Or.inl rfl⟩)
  have hclock : (M.connections ()).clock = [-50000000, 0, 0, 0, 50000000, 50000000] :=
    congrArg Connection.clock hconnection
  obtain ⟨s, t, hs, ht, added, hadded, hspaced, hcounts⟩ := packets_paced binary64Writer_lawful
    (by decide) (by rintro _ rfl; decide) (fun _ _ _ _ _ => rfl) .fresh hboot hrun (i := ()) rfl
    (hclock ▸ by decide)
  obtain rfl := Store.toDatabase_injective hs
  -- both packets are among the rows
  obtain ⟨u, hu, -, hasserts⟩ := hrun.delivers binary64Writer_lawful (by decide)
    (by rintro _ rfl; decide) (fun _ _ _ _ _ => rfl) (Network.satisfies_start
      binary64Writer_lawful _ (show Store.empty.Owned from fun _ hp => nomatch hp) _)
  obtain rfl := Store.toDatabase_injective (hu.symm.trans ht)
  obtain ⟨-, sent, stored, hwritten, hsends, -, hserving, hsaid⟩ := (hasserts ()).delivering rfl
  have hstored := hserving.idle (Or.inr (Or.inr hthread)) id
  rw [hconnection] at hwritten hstored
  have hboth := said_of_sent hwritten hsends hstored rfl hsaid
  exact ⟨_, _, u, added, hrun, ht, hclock, hadded, hadded.symm.trans hboth, hspaced, hcounts⟩
