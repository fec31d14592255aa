import Mathlib.Algebra.BigOperators.Group.List.Basic
import Mathlib.Algebra.Field.Rat
import Mathlib.Algebra.Order.Group.Abs
import Mathlib.Data.List.Induction
import Mathlib.Tactic.NormNum
import TZ.System

/-!
# What the statistics mean

The client is told two means and two sums for every uuid. They are computed
from two tables that are joined by hand on an id SQLite makes up. This
module says what they are in terms of the packets alone: the exact mean of
`x` and the exact sum of `|y|` over the packets of a uuid in each of two
overlapping windows (`Statistics.session_statistics`).

Two things carry the proof. The loop over the rows of a client is the
function `report` of what those rows say, which does not depend on their
order (`Statistics.entryOf_eq_report`, `Statistics.report_perm`). And after
any packets have been saved the rows that belong to a client say exactly what
the packets of its uuid say (`Statistics.Reflects`).

The figures are rational numbers here, so that a mean is a mean. The number type of the
program is a parameter, and the loops, the calls and the runs are the ones that are also
run with doubles; what rounding does to the figures is the subject of `TZ.Accuracy`. The
counters are not taken for natural numbers: they are of type `int` and wrap, so the
number of packets is bounded where they are read.

What is hard about the statement is its second half. That a loop computes a sum is an
induction on a list; that the list the loop is given has anything to do with the packets
is a property of a run through two tables and an id that neither side of the statement
mentions. `Reflects` is the invariant that takes the id away.
-/

open Server

/-! ## Samples and windows

What packets and rows have in common, and what the windows are about. These
definitions say what the figures should be, with sums and means of lists, and name no
loop. -/

/-- **A sample**: a point in time, and two coordinates. -/
structure Sample (K : Type) where
  /-- When it was taken. -/
  timestamp : Int
  /-- The first coordinate. -/
  x : K
  /-- The second coordinate. -/
  y : K

namespace Sample

variable {K : Type}

/-- The samples that are not older than a point in time.

The comparison is the one of the source, with equality: a packet that is
exactly one minute old is in the window. The query in the comment above the
source puts a bound with `HAVING` and `>`, on whole groups; it is the code
that is modelled. -/
def since (start : Int) (l : List (Sample K)) : List (Sample K) :=
  l.filter (fun p => start ≤ p.timestamp)

theorem since_concat (start : Int) (l : List (Sample K)) (p : Sample K) :
    since start (l ++ [p]) = since start l ++ if start ≤ p.timestamp then [p] else [] := by
  unfold since
  rw [List.filter_append, List.filter_singleton, Bool.cond_eq_ite]
  simp only [decide_eq_true_eq]

theorem length_since_le (start : Int) (l : List (Sample K)) :
    (since start l).length ≤ l.length := List.length_filter_le _ _

/-- A later window is inside an earlier one.

So there is no entry for the shorter window alone, although the source
computes the two conditions separately. -/
theorem since_eq_nil_of_le {start start' : Int} (h : start ≤ start') {l : List (Sample K)}
    (hl : since start l = []) : since start' l = [] := by
  unfold since at *
  rw [List.filter_eq_nil_iff] at *
  refine fun p hp hp' => hl p hp ?_
  rw [decide_eq_true_eq] at *
  exact h.trans hp'

theorem since_perm (start : Int) {l l' : List (Sample K)} (h : l.Perm l') :
    (since start l).Perm (since start l') := h.filter _

variable [Field K] [LinearOrder K]

/-- **The mean of the first coordinate**, or 0 if there is no sample. -/
def meanX : List (Sample K) → K
  | [] => 0
  | p :: l => ((p :: l).map Sample.x).sum / ((p :: l).length : K)

/-- **The sum of the magnitudes of the second coordinate.** -/
def totalY (l : List (Sample K)) : K := (l.map fun p => |p.y|).sum

omit [LinearOrder K] in
theorem meanX_eq (l : List (Sample K)) : meanX l = (l.map Sample.x).sum / (l.length : K) := by
  cases l with
  | nil => exact (div_zero _).symm.trans (by rw [List.length_nil, Nat.cast_zero])
  | cons p l => rfl

omit [LinearOrder K] in
theorem meanX_perm {l l' : List (Sample K)} (h : l.Perm l') : meanX l = meanX l' := by
  rw [meanX_eq, meanX_eq, (h.map Sample.x).sum_eq, h.length_eq]

theorem totalY_perm {l l' : List (Sample K)} (h : l.Perm l') : totalY l = totalY l' :=
  (h.map _).sum_eq

end Sample

/-- What a row says. -/
def Packet.sample {F : Type} (p : Packet F) : Sample F := ⟨p.timestamp, p.x, p.y⟩

/-- What a packet says. -/
def ClientPacket.Data.sample {F : Type} (data : ClientPacket.Data F) : Sample F :=
  ⟨data.timestamp, data.x, data.y⟩

/-- What the rows of a client say. -/
def Store.samplesOf {F : Type} [Double F] (s : Store F) (clientId : Int) : List (Sample F) :=
  (s.packets.filter (fun p => p.clientId = clientId)).map Packet.sample

namespace Statistics

open Sample

/-! ## The loop over the packets of a client

The accumulator has two sums, a count and a flag for each window. What the loop has
gone over determines it, which is an equation between the state and a function of the
list. -/

/-- The samples of the last minute. -/
def short (now : Int) (l : List (Sample ℚ)) : List (Sample ℚ) :=
  since (now - STATS_INTERVAL_MINUTES_1) l

/-- The samples of the last five minutes. -/
def long (now : Int) (l : List (Sample ℚ)) : List (Sample ℚ) :=
  since (now - STATS_INTERVAL_MINUTES_2) l

/-- **The entry of a client**, from its samples: there is one if any of them
is at most five minutes old.

It is a function of the uuid and the samples, and mentions neither ids nor
rows nor their order. -/
def report (now : Int) (uuid : Bytes) (l : List (Sample ℚ)) :
    Option (ServerStatistic.Statistic ℚ) :=
  if long now l = [] then none
  else some
    { uuid := uuid
      x1 := meanX (short now l)
      y1 := totalY (short now l)
      x5 := meanX (long now l)
      y5 := totalY (long now l) }

/-- An entry does not depend on the order of the samples. -/
theorem report_perm (now : Int) (uuid : Bytes) {l l' : List (Sample ℚ)} (h : l.Perm l') :
    report now uuid l = report now uuid l' := by
  have hshort : (short now l).Perm (short now l') := since_perm _ h
  have hlong : (long now l).Perm (long now l') := since_perm _ h
  unfold report
  rw [meanX_perm hshort, totalY_perm hshort, meanX_perm hlong, totalY_perm hlong]
  refine if_congr ?_ rfl rfl
  rw [← List.length_eq_zero_iff, ← List.length_eq_zero_iff, hlong.length_eq]

theorem report_eq_some_iff {now : Int} {uuid : Bytes} {l : List (Sample ℚ)}
    {e : ServerStatistic.Statistic ℚ} :
    report now uuid l = some e ↔ long now l ≠ [] ∧ e.uuid = uuid
      ∧ e.x1 = meanX (short now l) ∧ e.y1 = totalY (short now l)
      ∧ e.x5 = meanX (long now l) ∧ e.y5 = totalY (long now l) := by
  unfold report
  split_ifs with h
  · exact ⟨nofun, fun h' => absurd h h'.1⟩
  · obtain ⟨u, x1, y1, x5, y5⟩ := e
    rw [Option.some_inj, ServerStatistic.Statistic.mk.injEq]
    exact ⟨fun ⟨hu, h₁, h₂, h₃, h₄⟩ => ⟨h, hu.symm, h₁.symm, h₂.symm, h₃.symm, h₄.symm⟩,
      fun ⟨_, hu, h₁, h₂, h₃, h₄⟩ => ⟨hu.symm, h₁.symm, h₂.symm, h₃.symm, h₄.symm⟩⟩

/-- The counters count exactly below the largest `int`.

At the largest `int` the increment wraps in the model; in C++ it would be
undefined. -/
theorem increment_natCast {n : ℕ} (h : n + 1 < 2 ^ 31) :
    increment (n : Int) = ((n + 1 : ℕ) : Int) := by
  unfold increment
  rw [Int.bmod_eq_of_le] <;> omega

/-- **The local variables of the loop**, in terms of what the rows it has
gone over say. -/
def sumsOf (start1 start2 : Int) (l : List (Sample ℚ)) : Sums ℚ where
  sumX1 := ((since start1 l).map Sample.x).sum
  sumX5 := ((since start2 l).map Sample.x).sum
  countX1 := (since start1 l).length
  countX5 := (since start2 l).length
  y1 := totalY (since start1 l)
  y5 := totalY (since start2 l)
  needToAdd1 := !(since start1 l).isEmpty
  needToAdd5 := !(since start2 l).isEmpty

/-- One iteration. -/
theorem addPacket_sumsOf (start1 start2 : Int) {l : List (Sample ℚ)} (p : Packet ℚ)
    (hl : l.length + 1 < 2 ^ 31) :
    Collecting.addPacket start1 start2 (sumsOf start1 start2 l) p
      = sumsOf start1 start2 (l ++ [p.sample]) := by
  have hcount : ∀ start, increment ((since start l).length : Int)
      = (((since start l).length + 1 : ℕ) : Int) := fun start =>
    increment_natCast ((Nat.succ_le_succ (length_since_le start l)).trans_lt hl)
  unfold Collecting.addPacket Sums.add1 Sums.add5 sumsOf totalY
  rw [since_concat, since_concat]
  by_cases h₁ : start1 ≤ p.timestamp <;> by_cases h₂ : start2 ≤ p.timestamp <;>
    simp [h₁, h₂, hcount, Packet.sample]

/-- **The whole loop.**

By induction from the end of the list, since the loop adds at the end. -/
theorem foldl_addPacket (start1 start2 : Int) (packets : List (Packet ℚ))
    (h : packets.length < 2 ^ 31) :
    packets.foldl (Collecting.addPacket start1 start2) Sums.zero
      = sumsOf start1 start2 (packets.map Packet.sample) := by
  induction packets using List.reverseRecOn with
  | nil => rfl
  | append_singleton packets p ih =>
    rw [List.length_append, List.length_singleton] at h
    rw [List.foldl_concat, ih (Nat.lt_of_succ_lt h), List.map_append]
    exact addPacket_sumsOf start1 start2 p (by rwa [List.length_map])

/-- **No division by zero**: what is divided by counts at least one row.

The source divides only if the flag is set, and the flag and the counter are
set by the same packet. -/
theorem count_ne_zero (start1 start2 : Int) (l : List (Sample ℚ)) :
    ((sumsOf start1 start2 l).needToAdd1 = true → (sumsOf start1 start2 l).countX1 ≠ 0)
      ∧ ((sumsOf start1 start2 l).needToAdd5 = true
        → (sumsOf start1 start2 l).countX5 ≠ 0) := by
  simp [sumsOf]

/-- **The entry the loop makes is the report of what the rows say.**

The two are different in form. The loop decides by flags and divides
afterwards; the report asks whether a window is empty. -/
theorem entryOf_eq_report (now : Int) (uuid : Bytes) {packets : List (Packet ℚ)}
    (h : packets.length < 2 ^ 31) :
    Collecting.entryOf now uuid packets = report now uuid (packets.map Packet.sample) := by
  unfold Collecting.entryOf
  rw [foldl_addPacket _ _ _ h]
  generalize packets.map Packet.sample = l
  have hwindows : now - STATS_INTERVAL_MINUTES_2 ≤ now - STATS_INTERVAL_MINUTES_1 :=
    sub_le_sub_left (by decide) now
  unfold report Sums.entry sumsOf
  by_cases hlong : long now l = []
  · -- a row in the shorter window would be in the longer one
    have hshort : short now l = [] := since_eq_nil_of_le hwindows hlong
    unfold long short at *
    simp [hlong, hshort]
  · by_cases hshort : short now l = [] <;>
      · unfold long short at *
        simp [hlong, hshort, meanX_eq]

/-! ## The entries of a store -/

/-- **The entry of a client in a store is the report of what its rows say.** -/
theorem entry_eq_report (E : Engine ℚ) (now : Int) {s : Store ℚ}
    (h : s.packets.length < 2 ^ 31) (c : Client) :
    Collecting.entry E now s c = report now c.uuid (s.samplesOf c.id) := by
  have hperm := s.packetsOf_perm E c.id
  have hlen : (s.packetsOf E c.id).length < 2 ^ 31 :=
    (hperm.length_eq.trans_le (List.length_filter_le _ _)).trans_lt h
  have hread : Collecting.packetsRead E s c.id = s.packetsOf E c.id :=
    List.take_of_length_le (hlen.le.trans (by decide))
  unfold Collecting.entry
  rw [hread, entryOf_eq_report now c.uuid hlen]
  exact report_perm now c.uuid (hperm.map Packet.sample)

/-! ## Saving packets one after another

A run of saves, one after another, on one connection. Others are not needed for the
statement, and what they would do is the subject of the modules on concurrency. -/

section Saves

variable {F : Type} [Double F]

/-- **The rows of a store say what packets say**: every packet has its
client, no row is without one, and the rows of a client say what the packets
of its uuid say, in the same order.

The equation is between lists, with their order, since every save appends one
row. In what order SQLite lists the rows is a question for later. -/
structure Reflects (saved : List (ClientPacket.Data F)) (s : Store F) : Prop where
  /-- Every packet has its client. -/
  clients : ∀ data ∈ saved, cstr data.uuid ∈ s.clients.map Client.uuid
  /-- Every row has its client. -/
  owned : ∀ p ∈ s.packets, p.clientId ∈ s.clients.map Client.id
  /-- The rows of a client say what the packets of its uuid say. -/
  samples : ∀ c ∈ s.clients, s.samplesOf c.id
    = (saved.filter (fun data => cstr data.uuid = c.uuid)).map ClientPacket.Data.sample

namespace Reflects

variable {saved : List (ClientPacket.Data F)} {s t : Store F}

theorem empty : Reflects [] (Store.empty : Store F) :=
  ⟨nofun, nofun, nofun⟩

/-- A new client has no packet, and no row. -/
theorem addsClient (h : Reflects saved s) {uuid : Bytes} (hnone : s.find uuid = none)
    (hadds : s.AddsClient t uuid) : Reflects saved t := by
  obtain ⟨id, hc, hp⟩ := hadds
  have hid : id ∉ s.clients.map Client.id := by
    have hnodup := t.ids_nodup
    rw [hc, List.map_append, List.nodup_append] at hnodup
    exact fun hmem => hnodup.2.2 _ hmem _ List.mem_cons_self rfl
  refine ⟨fun data hdata => ?_, fun p hp' => ?_, fun c hc' => ?_⟩
  · rw [hc, List.map_append]
    exact List.mem_append_left _ (h.clients data hdata)
  · rw [hc, List.map_append]
    exact List.mem_append_left _ (h.owned p (hp ▸ hp'))
  · rw [show t.samplesOf c.id = s.samplesOf c.id by unfold Store.samplesOf; rw [hp]]
    rw [hc, List.mem_append, List.mem_singleton] at hc'
    rcases hc' with hc' | rfl
    · exact h.samples c hc'
    · have hrows : s.samplesOf id = [] := by
        unfold Store.samplesOf
        rw [List.map_eq_nil_iff, List.filter_eq_nil_iff]
        intro p hp' hpid
        exact hid (of_decide_eq_true hpid ▸ h.owned p hp')
      rw [hrows, List.filter_eq_nil_iff.mpr]
      · rfl
      · intro data hdata huuid
        have huuid : cstr data.uuid = uuid := of_decide_eq_true huuid
        exact (s.find_eq_none_iff.mp hnone) (huuid ▸ h.clients data hdata)

/-- A new row says what its packet says. -/
theorem addsPacket (h : Reflects saved s) {data : ClientPacket.Data F} {clientId : Int}
    (hc : s.find (cstr data.uuid) = some ⟨clientId, cstr data.uuid⟩)
    (hadds : s.AddsPacket t clientId data) : Reflects (saved ++ [data]) t := by
  obtain ⟨id, hcs, hps⟩ := hadds
  have hmem := (s.find_eq_some_iff.mp hc).1
  refine ⟨fun data' hdata => ?_, fun p hp => ?_, fun c hc' => ?_⟩
  · rw [hcs]
    rcases List.mem_append.mp hdata with hdata | hdata
    · exact h.clients data' hdata
    · rw [List.mem_singleton.mp hdata]
      exact List.mem_map.mpr ⟨_, hmem, rfl⟩
  · rw [hcs]
    rw [hps] at hp
    rcases List.mem_append.mp hp with hp | hp
    · exact h.owned p hp
    · rw [List.mem_singleton.mp hp]
      exact List.mem_map.mpr ⟨_, hmem, rfl⟩
  · rw [hcs] at hc'
    have hsame : clientId = c.id ↔ cstr data.uuid = c.uuid := by
      constructor
      · intro hid
        exact congrArg Client.uuid (List.inj_on_of_nodup_map s.ids_nodup hmem hc' hid)
      · intro huuid
        exact congrArg Client.id (List.inj_on_of_nodup_map s.uuids_nodup hmem hc' huuid)
    have hsamples := h.samples c hc'
    unfold Store.samplesOf at *
    rw [hps, List.filter_append, List.map_append, hsamples, List.filter_append,
      List.map_append, List.filter_singleton, List.filter_singleton]
    simp only [hsame]
    cases decide (cstr data.uuid = c.uuid) <;> rfl

/-- While a packet is saved, and nothing else is done, the rows say what they
said before or what they say afterwards.

This is the invariant in the middle of a save: the client may have been added
and the packet not yet. -/
theorem alone (h : Reflects saved s) {data : ClientPacket.Data F} {phase : Saving.Phase}
    (halone : phase.Alone False data s t) :
    Reflects saved t ∨ Reflects (saved ++ [data]) t := by
  have hregistered : ∀ {t : Store F}, Saving.Registered s t (cstr data.uuid) →
      Reflects saved t := by
    rintro t (rfl | ⟨hnone, hadds⟩)
    · exact h
    · exact h.addsClient hnone hadds
  cases phase with
  | looking => exact Or.inl (halone ▸ h)
  | registering => exact Or.inl (halone.1 ▸ h)
  | lookingAgain => exact Or.inl (h.addsClient halone.1 halone.2)
  | storing clientId => exact Or.inl (hregistered halone.2)
  | stored =>
    obtain ⟨m, clientId, hfind, hreg, hadds⟩ := halone
    exact Or.inr ((hregistered hreg).addsPacket hfind hadds)
  | failed what => exact Or.inl (hregistered halone.1)

end Reflects

/-- `saveClientPacket`, one call after another. -/
def saveEach : List (ClientPacket F) → ServerProg F Unit
  | [] => .ret ()
  | packet :: packets => do
    saveClientPacket packet
    saveEach packets

/-- The data of the packets that have any. -/
def dataOf (packets : List (ClientPacket F)) : List (ClientPacket.Data F) :=
  packets.filterMap ClientPacket.data

variable {E : Engine F} {clock : Int → Prop}

/-- **Saving packets one after another** never throws, and leaves rows that
say what the packets say.

By induction on the packets. No call fails, but a save could still throw
because of a constraint; that it does not is part of what is proved. -/
theorem steps_saveEach {packets : List (ClientPacket F)}
    (hfinite : ∀ data ∈ dataOf packets, (Double.isNaN data.x || Double.isNaN data.y) = false)
    {saved : List (ClientPacket.Data F)} {s t : Store F} (hs : Reflects saved s)
    {es : List (Event (Store F) (Cmd F) Cmd.Resp)} {q : ServerProg F Unit}
    (h : Steps (storeHandler E False clock) Eq (saveEach packets) s es q t) :
    (∀ ex, q ≠ .throw ex) ∧ (q = .ret () → Reflects (saved ++ dataOf packets) t
      ∧ t.packets.length = s.packets.length + (dataOf packets).length
      ∧ t.clients.length ≤ s.clients.length + (dataOf packets).length) := by
  induction packets generalizing s saved es with
  | nil =>
    obtain ⟨-, rfl, rfl⟩ := h.ret_inv
    refine ⟨nofun, fun _ => ⟨?_, rfl, le_rfl⟩⟩
    rwa [show saved ++ dataOf ([] : List (ClientPacket F)) = saved from List.append_nil _]
  | cons packet packets ih =>
    obtain ⟨type, data⟩ := packet
    cases data with
    | none => exact ih hfinite hs h
    | some data =>
      have hdata : dataOf (⟨type, some data⟩ :: packets) = data :: dataOf packets := rfl
      rw [hdata] at hfinite ⊢
      obtain ⟨hfin, hfinite⟩ := List.forall_mem_cons.mp hfinite
      have h : Steps _ Eq ((saveClientPacket ⟨type, some data⟩).bind fun _ =>
        saveEach packets) s es q t := h
      rw [Saving.saveClientPacket_eq] at h
      -- a save that has returned leaves the rest of the packets to be saved
      have hnext : ∀ {m es'}, Saving.Phase.stored.Alone False data s m →
          Steps (storeHandler E False clock) Eq (saveEach packets) m es' q t →
          (∀ ex, q ≠ .throw ex) ∧ (q = .ret () →
            Reflects (saved ++ data :: dataOf packets) t
              ∧ t.packets.length = s.packets.length + (data :: dataOf packets).length
              ∧ t.clients.length ≤ s.clients.length + (data :: dataOf packets).length) := by
        rintro m es' ⟨s', clientId, hfind, hreg, hadds⟩ hrest
        have hreflects : Reflects saved s' := by
          rcases hreg with rfl | ⟨hnone, hadds'⟩
          · exact hs
          · exact hs.addsClient hnone hadds'
        have hlen : m.packets.length = s.packets.length + 1
            ∧ m.clients.length ≤ s.clients.length + 1 := by
          obtain ⟨id, hc, hp⟩ := hadds
          rw [hp, hc, List.length_append, List.length_singleton]
          rcases hreg with rfl | ⟨-, id', hc', hp'⟩
          · exact ⟨rfl, Nat.le_succ _⟩
          · rw [hp', hc', List.length_append, List.length_singleton]
            exact ⟨rfl, le_rfl⟩
        obtain ⟨hthrow, hret⟩ := ih hfinite (hreflects.addsPacket hfind hadds) hrest
        refine ⟨hthrow, fun hq => ?_⟩
        obtain ⟨hr, hps, hcs⟩ := hret hq
        rw [List.append_assoc, List.singleton_append] at hr
        rw [List.length_cons]
        exact ⟨hr, by omega, by omega⟩
      rcases h.bind_inv with ⟨p', hq, hret, hrun⟩ | ⟨_, es₁, es₂, m, -, hrun, hrest⟩
      · obtain ⟨⟨phase', rfl, halone⟩, -⟩ := Saving.steps_alone hrun
          (show Saving.Phase.looking.Alone False data s s from rfl)
        cases phase' with
        | stored => exact absurd rfl (hret ())
        | failed what => exact (halone.2.elim id (Bool.eq_false_iff.mp hfin)).elim
        | _ =>
          subst hq
          exact ⟨nofun, nofun⟩
      · obtain ⟨⟨phase', hphase, halone⟩, -⟩ := Saving.steps_alone hrun
          (show Saving.Phase.looking.Alone False data s s from rfl)
        cases phase' with
        | stored => exact hnext halone hrest
        | _ => cases hphase

/-- **A packet can be saved.** -/
theorem exists_save (E : Engine F) (hclock : ∃ n, clock n) {saved : List (ClientPacket.Data F)}
    {s : Store F} (hs : Reflects saved s) (type : Int) {data : ClientPacket.Data F}
    (hfinite : (Double.isNaN data.x || Double.isNaN data.y) = false) :
    ∃ es t, Steps (storeHandler E False clock) Eq (saveClientPacket ⟨type, some data⟩) s es
        (.ret ()) t
      ∧ Reflects (saved ++ [data]) t ∧ s.Grows t
      ∧ t.packets.length = s.packets.length + 1 ∧ t.clients.length ≤ s.clients.length + 1
      ∧ ∀ e ∈ es, (Reflects saved e.pre ∨ Reflects (saved ++ [data]) e.pre)
        ∧ (Reflects saved e.post ∨ Reflects (saved ++ [data]) e.post) := by
  obtain ⟨es, q, t, m, clientId, hrun, hfind, hreg, hend⟩ := Saving.exists_alone E hclock s data
  rw [hfinite, if_neg Bool.false_ne_true] at hend
  obtain ⟨rfl, hadds⟩ := hend
  obtain ⟨-, hes⟩ := Saving.steps_alone hrun
    (show Saving.Phase.looking.Alone False data s s from rfl)
  have hm : Reflects saved m ∧ s.Grows m ∧ m.packets.length = s.packets.length
      ∧ m.clients.length ≤ s.clients.length + 1 := by
    rcases hreg with rfl | ⟨hnone, hadds'⟩
    · exact ⟨hs, .refl _, rfl, Nat.le_succ _⟩
    · refine ⟨hs.addsClient hnone hadds', hadds'.grows, ?_⟩
      obtain ⟨id, hc, hp⟩ := hadds'
      rw [hp, hc, List.length_append, List.length_singleton]
      exact ⟨rfl, le_rfl⟩
  obtain ⟨hreflects, hgrows, hps, hcs⟩ := hm
  refine ⟨es, t, by rwa [Saving.saveClientPacket_eq], hreflects.addsPacket hfind hadds,
    hgrows.trans hadds.grows, ?_, ?_, fun e he => ?_⟩
  · obtain ⟨id, -, hp⟩ := hadds
    rw [hp, List.length_append, List.length_singleton, hps]
  · obtain ⟨id, hc, -⟩ := hadds
    rw [hc]
    exact hcs
  · obtain ⟨⟨_, hpre⟩, _, hpost⟩ := hes e he
    exact ⟨hs.alone hpre, hs.alone hpost⟩

omit [Double F] in
theorem saveEach_conforms (packets : List (ClientPacket F)) :
    (saveEach packets).Conforms ServerCall Answered (fun _ => True) := by
  induction packets with
  | nil => trivial
  | cons packet packets ih =>
    exact (Saving.saveClientPacket_conforms packet).bind fun _ _ => ih

/-! ## From the start to the statistics

The whole session is one program, which begins with the constructor of the server on
an empty file. -/

/-- The server starts, packets are saved, and the statistics collected. -/
def session (packets : List (ClientPacket F)) : ServerProg F (ServerStatistic F) := do
  construct
  saveEach packets
  collectStatistics

/-- **What a session comes to**: it does not throw, and returns the entries
of a store whose rows say what the packets say. -/
theorem steps_session {packets : List (ClientPacket F)}
    (hfinite : ∀ data ∈ dataOf packets, (Double.isNaN data.x || Double.isNaN data.y) = false)
    {es : List (Event (Database F) (Cmd F) Cmd.Resp)} {q : ServerProg F (ServerStatistic F)}
    {d : Database F} (h : Steps (handler E False clock) Eq (session packets) [] es q d) :
    (∀ ex, q ≠ .throw ex) ∧ ∀ stats, q = .ret stats →
      ∃ (s : Store F) (now : Int), d = s.toDatabase ∧ clock now ∧ Reflects (dataOf packets) s
        ∧ s.packets.length ≤ packets.length ∧ s.clients.length ≤ packets.length
        ∧ stats.client
          = (Collecting.clientsRead E s).filterMap (Collecting.entry E now s) := by
  have h : Steps _ Eq (construct.bind fun _ => (saveEach packets).bind fun _ =>
    collectStatistics) [] es q d := h
  have hfresh : (Database.Holds ([] : Database F) Store.empty) := Or.inr ⟨rfl, Or.inl rfl⟩
  rcases h.bind_inv with ⟨p', rfl, hp', hrun⟩ | ⟨_, es₁, es₂, m, -, hrun, hrest⟩
  · -- it is still setting its tables up
    obtain ⟨-, -, hthrow, -⟩ := construct_steps hfresh hrun
    refine ⟨fun ex hex => ?_, fun stats hstats => ?_⟩
    · rcases Prog.bind_eq_throw_iff.mp hex with rfl | ⟨a, rfl, -⟩
      · exact hthrow ex rfl
      · exact hp' a rfl
    · obtain ⟨a, rfl, -⟩ := Prog.bind_eq_ret_iff.mp hstats
      exact absurd rfl (hp' a)
  · obtain ⟨-, hm, -, -⟩ := construct_steps hfresh hrun
    obtain rfl := hm rfl
    obtain ⟨s, es', rfl, -, hrest, -⟩ := hrest.lift simulates_store
      ((saveEach_conforms packets).bind fun _ _ => Job.reads_conforms
        Collecting.collectStatistics_reads)
    refine ⟨fun ex hex => ?_, fun stats hstats => ?_⟩
    · subst hex
      rcases hrest.bind_throw_inv with hsave | ⟨_, _, _, _, -, -, hcollect⟩
      · exact (steps_saveEach hfinite .empty hsave).1 ex rfl
      · exact Collecting.steps_ne_throw hcollect ex rfl
    · subst hstats
      obtain ⟨_, _, _, t, -, hsave, hcollect⟩ := hrest.bind_ret_inv
      obtain ⟨hreflects, hps, hcs⟩ := (steps_saveEach hfinite .empty hsave).2 rfl
      obtain ⟨rfl, now, hnow, rfl⟩ := Collecting.steps_alone hcollect
      have hle : (dataOf packets).length ≤ packets.length := List.length_filterMap_le _ _
      have hnone : (Store.empty : Store F).packets.length = 0
        ∧ (Store.empty : Store F).clients.length = 0 := ⟨rfl, rfl⟩
      exact ⟨s, now, rfl, hnow, hreflects, by omega, by omega, rfl⟩

/-- **A session runs to its end.** -/
theorem exists_session (E : Engine F) (now : Int) {packets : List (ClientPacket F)}
    (hfinite : ∀ data ∈ dataOf packets, (Double.isNaN data.x || Double.isNaN data.y) = false) :
    ∃ es stats d, Steps (handler E False (fun t => t = now)) Eq (session packets) [] es
      (.ret stats) d := by
  obtain ⟨es₁, hconstruct⟩ := exists_construct E False (fun t => t = now)
    (show Database.Holds ([] : Database F) Store.empty from Or.inr ⟨rfl, Or.inl rfl⟩)
  obtain ⟨es₂, q, t, hrun, hend⟩ := exists_run E False
    (show ∃ n, (fun t : Int => t = now) n from ⟨now, rfl⟩)
    ((saveEach_conforms packets).bind fun _ _ => Job.reads_conforms
      Collecting.collectStatistics_reads) Store.empty
  have hsession : Steps (handler E False (fun t => t = now)) Eq (session packets) [] _ q _ :=
    hconstruct.bind hrun.unlift
  rcases hend with ⟨stats, rfl⟩ | ⟨ex, rfl⟩
  · exact ⟨_, stats, _, hsession⟩
  · exact absurd rfl ((steps_session hfinite hsession).1 ex)

end Saves

/-- What the packets of a uuid say. -/
def samplesOf (saved : List (ClientPacket.Data ℚ)) (uuid : Bytes) : List (Sample ℚ) :=
  (saved.filter (fun data => data.uuid = uuid)).map ClientPacket.Data.sample

theorem samplesOf_perm {saved saved' : List (ClientPacket.Data ℚ)} (h : saved.Perm saved')
    (uuid : Bytes) : (samplesOf saved uuid).Perm (samplesOf saved' uuid) :=
  (h.filter _).map _

/-- Every client is listed once, and all of them if they can be counted. -/
theorem clientsRead_eq {E : Engine ℚ} {s : Store ℚ} (h : s.clients.length ≤ SQLite.sizeMax) :
    Collecting.clientsRead E s = s.listed E :=
  List.take_of_length_le ((s.listed_perm E).length_eq.trans_le h)

/-- **The entry of a client in a store whose rows say what packets say** is the
report of the packets of its uuid.

The order in which SQLite lists the rows is left open, and does not matter
here, as rational sums are the same in any order. -/
theorem Reflects.entry_eq {saved : List (ClientPacket.Data ℚ)} {s : Store ℚ}
    (h : Reflects saved s) (hplain : ∀ data ∈ saved, (0 : UInt8) ∉ data.uuid)
    (hlen : s.packets.length < 2 ^ 31) (E : Engine ℚ) (now : Int) {c : Client}
    (hc : c ∈ s.clients) :
    Collecting.entry E now s c = report now c.uuid (samplesOf saved c.uuid) := by
  rw [entry_eq_report E now hlen, h.samples c hc]
  refine congrArg (report now c.uuid) (congrArg _ (List.filter_congr fun data hdata => ?_))
  rw [cstr_eq_self (hplain data hdata)]

/-- **The entries of such a store** are the reports of the packets. -/
theorem Reflects.mem_entries {saved : List (ClientPacket.Data ℚ)} {s : Store ℚ}
    (h : Reflects saved s) (hplain : ∀ data ∈ saved, (0 : UInt8) ∉ data.uuid)
    (hlen : s.packets.length < 2 ^ 31) (hclients : s.clients.length ≤ SQLite.sizeMax)
    {E : Engine ℚ} {now : Int} {e : ServerStatistic.Statistic ℚ} :
    e ∈ (Collecting.clientsRead E s).filterMap (Collecting.entry E now s)
      ↔ report now e.uuid (samplesOf saved e.uuid) = some e := by
  have hlisted : ∀ c, c ∈ s.listed E ↔ c ∈ s.clients := fun c => (s.listed_perm E).mem_iff
  rw [List.mem_filterMap, clientsRead_eq hclients]
  constructor
  · rintro ⟨c, hc, he⟩
    rw [h.entry_eq hplain hlen E now ((hlisted c).mp hc)] at he
    rw [(report_eq_some_iff.mp he).2.1]
    exact he
  · intro he
    obtain ⟨sample, hsample⟩ := List.exists_mem_of_ne_nil _ (report_eq_some_iff.mp he).1
    obtain ⟨data, hdata, -⟩ := List.mem_map.mp (List.mem_of_mem_filter hsample)
    obtain ⟨hdata, huuid⟩ := List.mem_filter.mp hdata
    obtain ⟨c, hc, hcuuid⟩ := List.mem_map.mp (h.clients data hdata)
    rw [cstr_eq_self (hplain data hdata), of_decide_eq_true huuid] at hcuuid
    refine ⟨c, (hlisted c).mpr hc, ?_⟩
    rw [h.entry_eq hplain hlen E now hc, hcuuid]
    exact he

/-- The loop over the rows of a client never divides by zero. -/
theorem sumRows_counts (E : Engine ℚ) (now : Int) {s : Store ℚ}
    (hlen : s.packets.length < 2 ^ 31) (clientId : Int) :
    ∃ sums, sumRows (now - STATS_INTERVAL_MINUTES_1) (now - STATS_INTERVAL_MINUTES_2)
        ((Collecting.packetsRead E s clientId).map Store.packetRow) Sums.zero = .ok sums
      ∧ (sums.needToAdd1 = true → sums.countX1 ≠ 0)
      ∧ (sums.needToAdd5 = true → sums.countX5 ≠ 0) := by
  have hread : (Collecting.packetsRead E s clientId).length < 2 ^ 31 := by
    refine lt_of_le_of_lt ?_ hlen
    refine (List.length_take_le' _ _).trans ?_
    exact (s.packetsOf_perm E clientId).length_eq.trans_le (List.length_filter_le _ _)
  refine ⟨_, Collecting.sumRows_packetRow _ _ _ _, ?_⟩
  rw [foldl_addPacket _ _ _ hread]
  exact count_ne_zero _ _ _

/-- **What the statistics mean.** Start the server on an empty file, save any
packets one after another, and collect the statistics. The session runs to
its end and never throws, and what it returns has at most one entry for each
uuid. There is one exactly for the uuids with a packet in the longer window;
its figures are the exact means of `x` and sums of `|y|` over the packets of
the uuid in the two windows; nothing was divided by zero; and the same packets
in another order give the same entries.

Uuids with a NUL byte are left out, because the row has what comes before it,
and two of them may be the same; what happens then is said in `TZ.Identity`.
That a run exists is stated with the rest, so that the statement about all
runs is not about none. -/
theorem session_statistics (E : Engine ℚ) (now : Int) (packets : List (ClientPacket ℚ))
    (hplain : ∀ data ∈ dataOf packets, (0 : UInt8) ∉ data.uuid)
    (hcount : packets.length < 2 ^ 31) :
    (∃ es stats d, Steps (handler E False (fun t => t = now)) Eq (session packets) [] es
      (.ret stats) d)
    ∧ (∀ es ex d, ¬ Steps (handler E False (fun t => t = now)) Eq (session packets) [] es
      (.throw ex) d)
    ∧ ∀ es stats d, Steps (handler E False (fun t => t = now)) Eq (session packets) [] es
        (.ret stats) d →
      (stats.client.map ServerStatistic.Statistic.uuid).Nodup
      ∧ (∀ uuid, uuid ∈ stats.client.map ServerStatistic.Statistic.uuid
        ↔ long now (samplesOf (dataOf packets) uuid) ≠ [])
      ∧ (∀ e ∈ stats.client,
        e.x5 = meanX (long now (samplesOf (dataOf packets) e.uuid))
          ∧ e.y5 = totalY (long now (samplesOf (dataOf packets) e.uuid))
          ∧ e.x1 = meanX (short now (samplesOf (dataOf packets) e.uuid))
          ∧ e.y1 = totalY (short now (samplesOf (dataOf packets) e.uuid)))
      ∧ (∃ s : Store ℚ, d = s.toDatabase ∧ ∀ c ∈ s.clients, ∃ sums,
        sumRows (now - STATS_INTERVAL_MINUTES_1) (now - STATS_INTERVAL_MINUTES_2)
            ((Collecting.packetsRead E s c.id).map Store.packetRow) Sums.zero = .ok sums
          ∧ (sums.needToAdd1 = true → sums.countX1 ≠ 0)
          ∧ (sums.needToAdd5 = true → sums.countX5 ≠ 0))
      ∧ ∀ packets' es' stats' d', packets.Perm packets' →
        Steps (handler E False (fun t => t = now)) Eq (session packets') [] es'
          (.ret stats') d' → stats.client.Perm stats'.client := by
  have hfinite : ∀ l : List (ClientPacket ℚ), ∀ data ∈ dataOf l,
      (Double.isNaN data.x || Double.isNaN data.y) = false := fun _ _ _ => rfl
  -- what is common to the packets in any order
  have hsession : ∀ (l : List (ClientPacket ℚ)) es stats d, packets.Perm l →
      Steps (handler E False (fun t => t = now)) Eq (session l) [] es (.ret stats) d →
      (∃ s : Store ℚ, d = s.toDatabase ∧ s.packets.length < 2 ^ 31)
        ∧ (stats.client.map ServerStatistic.Statistic.uuid).Nodup
        ∧ ∀ e, e ∈ stats.client ↔
          report now e.uuid (samplesOf (dataOf packets) e.uuid) = some e := by
    intro l es stats d hperm h
    obtain ⟨s, now', rfl, rfl, hreflects, hps, hcs, hstats⟩ := (steps_session (hfinite l) h).2
      stats rfl
    rw [← hperm.length_eq] at hps hcs
    have hlen := hps.trans_lt hcount
    rw [hstats]
    refine ⟨⟨s, rfl, hlen⟩, ?_, fun e => ?_⟩
    · rw [← Collecting.entriesOf_replicate]
      exact Collecting.entriesOf_nodup E now' s _
    have hdata : (dataOf packets).Perm (dataOf l) := hperm.filterMap _
    rw [hreflects.mem_entries (fun data hmem => hplain data (hdata.mem_iff.mpr hmem)) hlen
        (hcs.trans (hcount.le.trans (by decide))),
      report_perm now' e.uuid (samplesOf_perm hdata e.uuid)]
  refine ⟨exists_session E now (hfinite packets),
    fun es ex d h => (steps_session (hfinite packets) h).1 ex rfl, fun es stats d h => ?_⟩
  obtain ⟨⟨s, hd, hlen⟩, hnodup, hmem⟩ := hsession packets es stats d (.refl _) h
  refine ⟨hnodup, fun uuid => ?_, fun e he => ?_, ⟨s, hd, fun c _ =>
    sumRows_counts E now hlen c.id⟩, fun packets' es' stats' d' hperm h' => ?_⟩
  · constructor
    · rintro huuid
      obtain ⟨e, he, rfl⟩ := List.mem_map.mp huuid
      exact (report_eq_some_iff.mp ((hmem e).mp he)).1
    · intro hlong
      obtain ⟨e, he⟩ : ∃ e, report now uuid (samplesOf (dataOf packets) uuid) = some e :=
        ⟨_, if_neg hlong⟩
      obtain rfl := (report_eq_some_iff.mp he).2.1
      exact List.mem_map_of_mem ((hmem e).mpr he)
  · obtain ⟨-, -, hx1, hy1, hx5, hy5⟩ := report_eq_some_iff.mp ((hmem e).mp he)
    exact ⟨hx5, hy5, hx1, hy1⟩
  · obtain ⟨-, hnodup', hmem'⟩ := hsession packets' es' stats' d' hperm h'
    refine (List.perm_ext_iff_of_nodup hnodup.of_map hnodup'.of_map).mpr fun e => ?_
    rw [hmem, hmem']

/-- Five packets of three clients, on a clock of one hour: `a` was in both windows,
in the longer one only and in neither, `b` now, and `c` in neither. -/
def hourOfPackets : List (ClientPacket ℚ) :=
  [⟨ClientPacket.DATA, some ⟨[97], 36000000000, 2, -3⟩⟩,
    ⟨ClientPacket.DATA, some ⟨[98], 36000000000, 1, 1⟩⟩,
    ⟨ClientPacket.DATA, some ⟨[97], 34800000000, 4, 5⟩⟩,
    ⟨ClientPacket.DATA, some ⟨[97], 0, 100, 100⟩⟩,
    ⟨ClientPacket.DATA, some ⟨[99], 0, 7, 7⟩⟩]

/-- The packet of `a` that is two minutes old counts in the longer window only, the
one that is an hour old in neither, and `c` is not in the reply. -/
theorem session_statistics_one :
    ∃ es d, ∃ stats : ServerStatistic ℚ, Steps (handler (Engine.reference : Engine ℚ) False
        (fun t => t = 36000000000)) Eq (session hourOfPackets) [] es (.ret stats) d
      ∧ (⟨[97], 2, 3, 3, 8⟩ : ServerStatistic.Statistic ℚ) ∈ stats.client
      ∧ (⟨[98], 1, 1, 1, 1⟩ : ServerStatistic.Statistic ℚ) ∈ stats.client
      ∧ [99] ∉ stats.client.map ServerStatistic.Statistic.uuid := by
  obtain ⟨⟨es, stats, d, h⟩, -, hall⟩ := session_statistics Engine.reference 36000000000
    hourOfPackets (by decide) (by decide)
  obtain ⟨-, huuids, hfigures, -⟩ := hall es stats d h
  -- the entry of a uuid, from its figures
  have hentry : ∀ e : ServerStatistic.Statistic ℚ,
      report 36000000000 e.uuid (samplesOf (dataOf hourOfPackets) e.uuid) = some e →
      e ∈ stats.client := by
    intro e he
    obtain ⟨hlong, -, hx1, hy1, hx5, hy5⟩ := report_eq_some_iff.mp he
    obtain ⟨e', he', huuid⟩ := List.mem_map.mp ((huuids e.uuid).mpr hlong)
    obtain ⟨hx5', hy5', hx1', hy1'⟩ := hfigures e' he'
    rw [huuid] at hx5' hy5' hx1' hy1'
    have heq : e' = e := by
      obtain ⟨uuid, x1, y1, x5, y5⟩ := e
      obtain ⟨uuid', x1', y1', x5', y5'⟩ := e'
      simp_all only
    exact heq ▸ he'
  have hshort : short 36000000000 (samplesOf (dataOf hourOfPackets) [97])
      = [⟨36000000000, 2, -3⟩] := rfl
  have hlong : long 36000000000 (samplesOf (dataOf hourOfPackets) [97])
      = [⟨36000000000, 2, -3⟩, ⟨34800000000, 4, 5⟩] := rfl
  have hshort' : short 36000000000 (samplesOf (dataOf hourOfPackets) [98])
      = [⟨36000000000, 1, 1⟩] := rfl
  have hlong' : long 36000000000 (samplesOf (dataOf hourOfPackets) [98])
      = [⟨36000000000, 1, 1⟩] := rfl
  refine ⟨es, d, stats, h, hentry _ (report_eq_some_iff.mpr ?_),
    hentry _ (report_eq_some_iff.mpr ?_), fun hmem => (huuids [99]).mp hmem rfl⟩
  · rw [hshort, hlong]
    exact ⟨List.cons_ne_nil _ _, rfl, by norm_num [meanX], by norm_num [totalY],
      by norm_num [meanX], by norm_num [totalY]⟩
  · rw [hshort', hlong']
    exact ⟨List.cons_ne_nil _ _, rfl, by norm_num [meanX], by norm_num [totalY],
      by norm_num [meanX], by norm_num [totalY]⟩

end Statistics
