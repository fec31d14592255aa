import Mathlib.Algebra.Order.BigOperators.Group.Finset
import TZ.Process

/-!
# What a program may still do

Ctrl-C only sets a flag. That the process ends takes more: the acceptor has to
leave its loop, every thread has to come back to the top of its own, and the
main thread has to get through its joins. What a thread is at work on may be
long – a reply takes one query for every client, and while it is collected the
other threads may add clients.

So every program is given an *allowance*, which its calls use up and only a look
at the flag that shows it unset renews. A thread keeps within its allowance as
long as no more than so many clients are listed (`Server.clientThread_ending`),
and the main thread as long as there are no more than so many threads
(`Lifecycle.main_ending`). That the allowances of a process that is stopped only
shrink is left to the next module.

An allowance counts two things, because one number would not do. The length of a
collection depends on how many clients are listed, and every other thread may still add
one; so a bound on the calls of one thread alone would have to grow with what the others
do. How many clients can still be added, however, is bounded for all of them together:
each thread adds at most one before it looks at the flag. So the calls of a thread are
bounded in terms of a number of clients that is fixed beforehand, and the number of
creations that are left bounds how far the table can get.

The allowance is the state of an automaton that watches a program (`TZ.Automata`), and
not a number in the program: `clientThread` and `main` stay as they are in the source,
and the constants are found by going through them once, call by call. Each rule below is
one way in which a program goes on.
-/

open Server

variable {F : Type}

/-! ## Allowances

Both kinds of thread are measured with the same pair, so that the allowances of a
process can be added up over the threads it has. The two lemmas after it are about
such sums: when one thread takes a call, the sum falls by what that call uses. -/

/-- **What a program may still do.** -/
structure Allowance where
  /-- So many calls. -/
  calls : ℕ
  /-- A thread may add so many clients, the main thread create so many threads. -/
  creations : ℕ

/-- The share of one member of a family is reduced.

This is what makes one step of one thread a step down for the process,
whatever the other threads have left. -/
theorem sum_update_add_le {ι α : Type} [DecidableEq ι] {s : Finset ι} (g : α → ℕ) (a : ι → α)
    {i : ι} {x : α} {n : ℕ} (hi : i ∈ s) (h : g x + n ≤ g (a i)) :
    ∑ j ∈ s, g (Function.update a i x j) + n ≤ ∑ j ∈ s, g (a j) := by
  rw [← Finset.add_sum_erase s _ hi, ← Finset.add_sum_erase s (fun j => g (a j)) hi,
    Function.update_self]
  have hothers : ∑ j ∈ s.erase i, g (Function.update a i x j) = ∑ j ∈ s.erase i, g (a j) :=
    Finset.sum_congr rfl fun j hj => by rw [Function.update_of_ne (Finset.ne_of_mem_erase hj)]
  omega

/-- So many members of a family have so much each. -/
theorem sum_range_succ_le {α : Type} (g : α → ℕ) (a : ℕ → α) {k n : ℕ}
    (h : ∀ i < k, g (a i) ≤ n) : ∑ i ∈ Finset.range (k + 1), g (a i) ≤ k * n + g (a k) := by
  have hsum := Finset.sum_le_card_nsmul (Finset.range k) (fun i => g (a i)) n
    fun i hi => h i (Finset.mem_range.mp hi)
  rw [Finset.card_range, Nat.nsmul_eq_mul] at hsum
  rw [Finset.sum_range_succ]
  exact Nat.add_le_add_right hsum _

/-! ## The threads

From one look at the flag to the next there is one message at most. A request is read,
the clients are listed, the clock is read, the packets of every client are listed, and
the reply is written; with the next look that is `n + 5` calls, where `n` clients are
listed. A packet is read and saved in no more than five, with the next look in six, and
saving is the only way to a new client. So `n + 6` calls and one creation provide for
either. -/

namespace Server

/-- How many clients a call may add. -/
def clientsBy : Cmd F → ℕ
  | .insertOne tableName _ => if tableName = CLIENTS_TABLE_NAME then 1 else 0
  | _ => 0

@[simp] theorem clientsBy_clients (values : List (TableValue F)) :
    clientsBy (.insertOne CLIENTS_TABLE_NAME values) = 1 := by rw [clientsBy, if_pos rfl]

@[simp] theorem clientsBy_packets (values : List (TableValue F)) :
    clientsBy (.insertOne PACKETS_TABLE_NAME values) = 0 := by rw [clientsBy, if_neg (by decide)]

/-- **What a thread relies on in an answer**: it is a result or an exception that
a `catch` clause sees, and no more than so many clients are listed.

The bound on the list is asked for only where there is no WHERE clause,
because that is how the clients are listed; the packets of a client are listed
with one, and how many there are does not matter, since the loop over them
makes no call. -/
def Listed (n : ℕ) : (c : Cmd F) → c.Resp → Prop
  | .insertOne .., r => r ≠ .error .nullString
  | .selectOne .., r => r ≠ .error .nullString
  | .selectMany _ _ pWhereClause _ _, r => r ≠ .error .nullString
    ∧ (pWhereClause = none → ∀ rows, r = .ok rows → rows.length ≤ n)
  | .read, r => r ≠ .error .nullString
  | .write _, r => r ≠ .error .nullString
  | _, _ => True

/-- What is left of an allowance when a call has been answered. -/
def left (n : ℕ) (a : Allowance) : (c : Cmd F) → c.Resp → Allowance
  | .needExit, needExit => if needExit then ⟨0, 0⟩ else ⟨n + 6, 1⟩
  | c, _ => ⟨a.calls - 1, a.creations - clientsBy c⟩

/-- **What a thread may do before it looks at the flag again**, where no more
than so many clients are listed. -/
def ending (n : ℕ) : Automaton Allowance (Cmd F) Cmd.Resp where
  allows a c := 0 < a.calls ∧ clientsBy c ≤ a.creations
  next a c r a' := Listed n c r ∧ a' = left n a c r

/-- **What is left** when a program has returned. If it throws, then an exception
that a `catch` clause sees.

What is excluded is a `std::string` made of a null pointer, which is undefined
behaviour and which no `catch` clause sees; after it nothing could be said
about the thread. -/
def Leaves {α : Type} (left a : Allowance) : Except Exc α → Prop
  | .ok _ => a = left
  | .error ex => ex ≠ .nullString

/-- More calls than so many are left.

An inequality is enough for the last call of a message, where several ways
meet that have made different numbers of calls. -/
def LeavesMore {α : Type} (m : α → ℕ) (a : Allowance) : Except Exc α → Prop
  | .ok x => m x < a.calls
  | .error ex => ex ≠ .nullString

section Rules

variable {n : ℕ} {a a' : Allowance} {α β : Type}

/-- The rule for a method call. -/
theorem call_leaves {c : Cmd F} {f : c.Resp → Except Exc α} (hc : (ending n).allows a c)
    (hne : c ≠ .needExit)
    (hf : ∀ r, Listed n c r → f r ≠ .error .nullString) :
    (Prog.call c fun r => .ofExcept (f r) : ServerProg F α).Follows (ending n)
      (Leaves ⟨a.calls - 1, a.creations - clientsBy c⟩) a := by
  refine Prog.Follows.ofExcept hc ?_
  rintro r a' ⟨hr, ha'⟩
  have hspent : a' = ⟨a.calls - 1, a.creations - clientsBy c⟩ := by
    cases c with
    | needExit => exact (hne rfl).elim
    | _ => exact ha'
  have hthrow := hf r hr
  generalize f r = x at hthrow
  cases x with
  | ok b => exact hspent
  | error ex => exact fun h => hthrow (congrArg Except.error h)

/-- The rule for the last of several method calls. -/
theorem call_leavesMore {c : Cmd F} {f : c.Resp → Except Exc α} {m : ℕ}
    (hc : clientsBy c ≤ a.creations) (hm : m + 1 < a.calls) (hne : c ≠ .needExit)
    (hf : ∀ r, Listed n c r → f r ≠ .error .nullString) :
    (Prog.call c fun r => .ofExcept (f r) : ServerProg F α).Follows (ending n)
      (LeavesMore fun _ => m) a := by
  refine Prog.Follows.mono (fun a' x h => ?_)
    (call_leaves ⟨Nat.lt_of_le_of_lt (Nat.zero_le _) hm, hc⟩ hne hf)
  cases x with
  | ok y => exact (show a' = _ from h) ▸ Nat.lt_sub_of_add_lt hm
  | error ex => exact h

/-- The rule for a result that is already there. -/
theorem ofExcept_leaves {x : Except Exc α} (hx : x ≠ .error .nullString) :
    (Prog.ofExcept x : ServerProg F α).Follows (ending n) (Leaves a) a := by
  cases x with
  | ok b => exact rfl
  | error ex => exact fun h => hx (congrArg Except.error h)

/-- The rule for sequencing.

The two programs need not use up the same for every result: what the first has
left is an allowance that the second begins with, whatever value it is given. -/
theorem bind_leaves {p : ServerProg F α} {f : α → ServerProg F β}
    {Q : Allowance → Except Exc β → Prop} (hp : p.Follows (ending n) (Leaves a') a)
    (hf : ∀ x, (f x).Follows (ending n) Q a')
    (hthrow : ∀ a ex, ex ≠ .nullString → Q a (.error ex)) :
    (p.bind f).Follows (ending n) Q a := by
  refine hp.bind (fun _ x h => ?_) hthrow
  obtain rfl : _ = a' := h
  exact hf x

end Rules

/-! ## What the loops do not throw

`std::get` and `std::vector::at` throw exceptions that the `catch` clauses see. These
lemmas say so for the few expressions of the source between two calls, so that an
exception in them uses up nothing and leads to the next look at the flag. -/

theorem vectorAt_ne {α : Type} (v : List α) (i : ℕ) : vectorAt v i ≠ .error .nullString := by
  unfold vectorAt
  cases v[i]? with
  | some x => nofun
  | none => exact fun h => nomatch Except.error.inj h

theorem bind_ne {α β : Type} {x : Except Exc α} {f : α → Except Exc β}
    (hx : x ≠ .error .nullString) (hf : ∀ a, f a ≠ .error .nullString) :
    (x >>= f) ≠ .error .nullString := by
  cases x with
  | ok a => exact hf a
  | error ex => exact fun h => hx (congrArg Except.error (Except.error.inj h))

theorem getInt64_ne (v : DBVariants F) : v.getInt64 ≠ .error .nullString := by
  cases v with
  | int64 m => nofun
  | _ => exact fun h => nomatch Except.error.inj h

theorem getDouble_ne (v : DBVariants F) : v.getDouble ≠ .error .nullString := by
  cases v with
  | double x => nofun
  | _ => exact fun h => nomatch Except.error.inj h

theorem getString_ne (v : DBVariants F) : v.getString ≠ .error .nullString := by
  cases v with
  | string s => nofun
  | _ => exact fun h => nomatch Except.error.inj h

theorem sumRows_ne [Double F] (interval1 interval2 : Int)
    (packets : List (List (TableValue F))) (sums : Sums F) :
    sumRows interval1 interval2 packets sums ≠ .error .nullString := by
  induction packets generalizing sums with
  | nil => nofun
  | cons packet packets ih =>
    refine bind_ne ?_ ih
    refine bind_ne (vectorAt_ne packet 0) fun first => bind_ne (getInt64_ne _) fun timestamp => ?_
    refine bind_ne (vectorAt_ne packet 1) fun second => bind_ne (getDouble_ne _) fun x => ?_
    exact bind_ne (vectorAt_ne packet 2) fun third => bind_ne (getDouble_ne _) fun y => nofun

/-! ## A thread keeps within its allowance

From the inside out, in the order of the source: the loop over the clients, the two
handlers, the message, and the loop over messages. At every level the hypothesis is
how much there is, and the conclusion how much there is left. -/

section Threads

variable [Double F] {ParseFromString : Bytes → Bool × ClientPacket F} {n : ℕ} {a : Allowance}

/-- The loop over the clients makes one call for each. -/
theorem collectClients_leaves (interval1 interval2 : Int)
    (clients : List (List (TableValue F))) (stats : List (ServerStatistic.Statistic F))
    (ha : clients.length ≤ a.calls) :
    (collectClients interval1 interval2 clients stats).Follows (ending n)
      (Leaves ⟨a.calls - clients.length, a.creations⟩) a := by
  induction clients generalizing stats a with
  | nil => exact rfl
  | cons client clients ih =>
    refine bind_leaves (ofExcept_leaves (bind_ne (vectorAt_ne client 0) fun _ => getInt64_ne _))
      (fun clientId => ?_) fun _ _ h => h
    refine bind_leaves (ofExcept_leaves (bind_ne (vectorAt_ne client 1) fun _ => getString_ne _))
      (fun clientUuid => ?_) fun _ _ h => h
    refine bind_leaves (call_leaves ⟨Nat.lt_of_lt_of_le (Nat.succ_pos _) ha, Nat.zero_le _⟩ nofun
      fun _ hr => hr.1) (fun packets => ?_) fun _ _ h => h
    refine bind_leaves (ofExcept_leaves (sumRows_ne _ _ _ _)) (fun sums => ?_) fun _ _ h => h
    have hlen : (client :: clients).length = clients.length + 1 := List.length_cons
    have hrest := ih (stats ++ (sums.entry clientUuid).toList)
      (a := ⟨a.calls - 1, a.creations⟩) (Nat.le_sub_one_of_lt ha)
    rwa [Nat.sub_sub, Nat.add_comm, ← hlen] at hrest

omit [Double F] in
/-- A save takes four calls and may add a client. -/
theorem saveClientPacket_leaves (packet : ClientPacket F) (ha : 4 < a.calls)
    (hnew : 0 < a.creations) :
    (saveClientPacket packet).Follows (ending n) (LeavesMore fun _ => 0) a := by
  obtain ⟨type, data⟩ := packet
  cases data with
  | none => exact Nat.lt_of_le_of_lt (Nat.zero_le 4) ha
  | some data =>
    have hselect : ∀ {a : Allowance}, 0 < a.calls →
        (selectOne CLIENTS_TABLE_NAME idColumns (some (whereUuid data.uuid)) :
          ServerProg F (List (TableValue F))).Follows (ending n)
            (Leaves ⟨a.calls - 1, a.creations⟩) a :=
      fun ha => call_leaves ⟨ha, Nat.zero_le _⟩ nofun fun _ hr => hr
    have hinsert : ∀ (client : List (TableValue F)) {a : Allowance}, 1 < a.calls → (do
        let first ← .ofExcept (vectorAt client 0)
        insertOne PACKETS_TABLE_NAME (packetValues first.value data) :
          ServerProg F Unit).Follows (ending n) (LeavesMore fun _ => 0) a := by
      intro client a ha
      refine bind_leaves (ofExcept_leaves (vectorAt_ne client 0)) (fun first => ?_) fun _ _ h => h
      exact call_leavesMore ((clientsBy_packets _).trans_le (Nat.zero_le _)) ha nofun
        fun _ hr => hr
    refine Prog.Follows.tryCatch (P := LeavesMore fun _ => 0) ?_ (fun _ _ h => h) fun a ex h => ?_
    · refine bind_leaves (hselect (by omega)) (fun client => ?_) fun _ _ h => h
      dsimp only
      split_ifs
      · -- the client is new
        refine bind_leaves (call_leaves ⟨Nat.sub_pos_of_lt (by omega),
          (clientsBy_clients _).trans_le hnew⟩ nofun fun _ hr => hr) (fun _ => ?_) fun _ _ h => h
        refine bind_leaves (hselect ?_) (fun client => hinsert client ?_) fun _ _ h => h
        · show 0 < a.calls - 1 - 1
          omega
        · show 1 < a.calls - 1 - 1 - 1
          omega
      · exact hinsert client (Nat.lt_sub_of_add_lt (by omega))
    · cases ex with
      | nullString => exact absurd rfl h
      | _ => nofun

/-- Collecting takes two calls and one for every client that is listed. -/
theorem collectStatistics_leaves (ha : n + 4 < a.calls) :
    (collectStatistics : ServerProg F (ServerStatistic F)).Follows (ending n)
      (LeavesMore fun _ => 1) a := by
  refine Prog.Follows.bind (P := LeavesMore fun clients => clients.length + 2) ?_
    (fun a clients ha => ?_) fun _ _ h => h
  · refine Prog.Follows.ofExcept (A := ending n) ⟨by omega, Nat.zero_le _⟩ ?_
    rintro r a' ⟨⟨hthrow, hlisted⟩, rfl⟩
    cases r with
    | ok clients =>
      have hlen : clients.length ≤ n := hlisted rfl clients rfl
      show clients.length + 2 < a.calls - 1
      omega
    | error ex => exact fun h => hthrow (congrArg Except.error h)
  -- what is left suffices for the clock, one call for each client, and the
  -- reply
  · have ha : clients.length + 2 < a.calls := ha
    refine ⟨⟨Nat.lt_of_le_of_lt (Nat.zero_le _) ha, Nat.zero_le _⟩, ?_⟩
    rintro currentTime a' ⟨-, rfl⟩
    show ((collectClients (currentTime - STATS_INTERVAL_MINUTES_1)
      (currentTime - STATS_INTERVAL_MINUTES_2) clients []).bind fun stats => .ret ⟨stats⟩ :
        ServerProg F (ServerStatistic F)).Follows _ _ _
    refine bind_leaves (collectClients_leaves _ _ clients []
      (show clients.length ≤ a.calls - 1 by omega)) (fun stats => ?_) fun _ _ h => h
    show 1 < a.calls - 1 - clients.length
    omega

/-- Handling a message takes no more calls than four, or three and one for every
client that is listed. -/
theorem handleMessage_leaves (buffer : Bytes) (ha : n + 4 < a.calls) (hnew : 0 < a.creations) :
    (handleMessage ParseFromString buffer).Follows (ending n) (LeavesMore fun _ => 0) a := by
  unfold handleMessage handlePacket
  dsimp only
  split_ifs
  · exact saveClientPacket_leaves _ (by omega) hnew
  · exact (collectStatistics_leaves ha).bind (fun a stats ha =>
      call_leavesMore (Nat.zero_le _) ha nofun fun _ hr => hr) fun _ _ h => h
  · exact Nat.lt_of_le_of_lt (Nat.zero_le _) ha

/-- **A thread keeps within its allowance**, and does not throw.

The number of messages the client sends does not occur in the allowance: a
look at the flag comes before each of them. -/
theorem clientThread_ending (m : ℕ) (ha : 0 < a.calls) :
    (clientThread ParseFromString m).Follows (ending n) (fun _ x => x = .ok ()) a := by
  have hloop : ∀ {a : Allowance}, 0 < a.calls →
      (messageLoop ParseFromString m).Follows (ending n)
        (fun _ x => x ≠ .error .nullString) a := by
    induction m with
    | zero => exact fun _ => nofun
    | succ m ih =>
      intro a ha
      -- the look at the flag: unset it renews the allowance, set it ends the
      -- loop
      refine ⟨⟨ha, Nat.zero_le _⟩, ?_⟩
      rintro (_ | _) a' ⟨-, rfl⟩
      · show ((Prog.call .read .ofExcept).bind fun buffer =>
          (handleMessage ParseFromString buffer).bind fun _ => messageLoop ParseFromString m :
            ServerProg F Unit).Follows _ _ _
        refine bind_leaves (call_leaves ⟨Nat.succ_pos _, Nat.zero_le _⟩ nofun fun _ hr => hr)
          (fun buffer => ?_) fun _ _ h h' => h (Except.error.inj h')
        refine (handleMessage_leaves buffer ?_ ?_).bind (fun _ _ h => ih h)
          fun _ _ h h' => h (Except.error.inj h')
        · exact Nat.lt_succ_self (n + 4)
        · exact Nat.one_pos
      · exact nofun
  refine (hloop ha).tryCatch (fun _ _ _ => rfl) fun a ex h => ?_
  cases ex with
  | nullString => exact absurd rfl h
  | _ => exact rfl

end Threads

/-! ## What is listed and what is added

Until now the bound on the list was assumed of every answer. Here it is proved of the
answers the store gives, as long as it holds no more than that many clients; and a
call is charged for the client it adds exactly when it may add one. -/

section Answers

variable [Double F] {E : Engine F} {faulty : Prop} {clock : Int → Prop} {n : ℕ} {a : Allowance}
  {s s' : Store F} {c : Cmd F} {r : c.Resp}

/-- **What a call can do to a store that holds no more than so many clients.**

The two halves are proved together because they are one case analysis over the
calls of the server. -/
theorem listed_and_added (hc : ServerCall c) (h : storeHandler E faulty clock s c r s')
    (hn : s.clients.length ≤ n) :
    Listed n c r ∧ s'.clients.length ≤ s.clients.length + clientsBy c := by
  have h : handler E faulty clock s.toDatabase c r s'.toDatabase := h
  have hsystem : ∀ {α : Type} {x : Except Exc α},
      (∀ ex, x = .error ex → ∃ what, ex = .systemError what) → x ≠ .error .nullString := by
    intro α x hx h
    obtain ⟨_, h⟩ := hx _ h
    cases h
  have hsame : ∀ {d : Database F}, d = s'.toDatabase → d = s.toDatabase →
      s'.clients.length ≤ s.clients.length + clientsBy c := by
    rintro d rfl hd
    rw [Store.toDatabase_injective hd]
    exact Nat.le_add_right _ _
  cases hc with
  | lookup uuid =>
    obtain ⟨hd, hr⟩ := Store.handler_lookup h
    refine ⟨?_, hsame rfl hd⟩
    obtain rfl | ⟨-, rfl | ⟨_, rfl⟩⟩ := hr <;> exact nofun
  | addClient uuid =>
    obtain ⟨s'', hd, ⟨rfl, -, id, hclients, -⟩ | ⟨rfl, ⟨_, rfl⟩, -⟩⟩ := Store.handler_addClient h
    · rw [Store.toDatabase_injective hd, hclients, List.length_append, clientsBy_clients]
      exact ⟨nofun, le_rfl⟩
    · exact ⟨nofun, hsame rfl hd⟩
  | addPacket clientId data =>
    obtain ⟨s'', hd, ⟨rfl, -, -, id, hclients, -⟩ | ⟨rfl, ⟨_, rfl⟩, -⟩⟩ := Store.handler_addPacket h
    · rw [Store.toDatabase_injective hd, hclients]
      exact ⟨nofun, Nat.le_add_right _ _⟩
    · exact ⟨nofun, hsame rfl hd⟩
  | listClients =>
    obtain ⟨hd, ⟨part, ⟨k, -, rfl, -⟩, rfl⟩ | ⟨-, _, rfl⟩⟩ := Store.handler_listClients h
    · refine ⟨⟨nofun, fun _ rows hrows => ?_⟩, hsame rfl hd⟩
      rw [← Except.ok.inj hrows, List.length_map]
      exact (List.length_take_le' _ _).trans ((s.listed_perm E).length_eq.trans_le hn)
    · exact ⟨⟨nofun, fun _ _ => nofun⟩, hsame rfl hd⟩
  | listPackets clientId =>
    obtain ⟨hd, ⟨part, -, rfl⟩ | ⟨-, _, rfl⟩⟩ := Store.handler_listPackets h
    · exact ⟨⟨nofun, nofun⟩, hsame rfl hd⟩
    · exact ⟨⟨nofun, nofun⟩, hsame rfl hd⟩
  | now => exact ⟨trivial, hsame rfl h.2⟩
  | needExit => exact ⟨trivial, hsame rfl h⟩
  | read => exact ⟨hsystem h.1, hsame rfl h.2⟩
  | write stats => exact ⟨hsystem h.1, hsame rfl h.2⟩

omit [Double F] in
/-- No look at the flag gives more than an allowance to begin with. -/
theorem left_le (ha : a.calls ≤ n + 6 ∧ a.creations ≤ 1) :
    (left n a c r).calls ≤ n + 6 ∧ (left n a c r).creations ≤ 1 := by
  cases c with
  | needExit => cases r <;> exact ⟨by simp [left], by simp [left]⟩
  | _ => exact ⟨(Nat.sub_le _ _).trans ha.1, (Nat.sub_le _ _).trans ha.2⟩

omit [Double F] in
/-- A look at the flag that shows it set gives none at all. -/
theorem left_lt {pr : Process F} (ha : (ending n).allows a c) (hflag : pr.flag = true)
    (hsees : pr.Sees c r) : (left n a c r).calls + 1 ≤ a.calls
      ∧ (left n a c r).creations + clientsBy c ≤ a.creations := by
  cases c with
  | needExit =>
    obtain rfl : r = true := (show r = pr.flag from hsees).trans hflag
    exact ⟨ha.1, Nat.zero_le _⟩
  | _ => exact ⟨(Nat.sub_add_cancel ha.1).le, (Nat.sub_add_cancel ha.2).le⟩

end Answers

end Server

/-! ## The main thread

The main thread has three parts, and the allowance is different in each. Before the
handler of Ctrl-C is installed nothing can stop it, and it makes a fixed number of
calls; there the automaton has no allowance. In the accept loop a look at the flag
renews it, as in a thread. After the loop there are the size of the vector, one join
for each thread, the check of the destructor and the closing of the database, which is
what the `n + 4` calls are that a look at a set flag needs to begin with. -/

namespace Lifecycle

/-- **What the main thread relies on in an answer**: it is a result or an
exception that a `catch` clause sees, and there are no more than so many
threads. -/
def Told (n : ℕ) : (c : MainCmd F) → c.Resp → Prop
  | .listen, r => r ≠ .error .nullString
  | .accept, r => r ≠ .error .nullString
  | .spawn, r => r ≠ .error .nullString
  | .size, r => r ≤ n
  | _, _ => True

/-- The calls the main thread makes only before `Server::start`. -/
def Starting : MainCmd F → Prop
  | .sqlite3_open => True
  | .server _ => True
  | .signal => True
  | _ => False

/-- How many threads a call may create. -/
def threadsBy : MainCmd F → ℕ
  | .spawn => 1
  | _ => 0

/-- How many calls there have to be for a call: what follows a look at the flag
that shows it set is counted in.

A look at the flag must leave enough for all the joins, because it may be the
last one. So this is the call that has to be paid for in advance; every other
call is paid for when it is made. -/
def callsFor (n : ℕ) : MainCmd F → ℕ
  | .needExit => n + 4
  | .terminate => 0
  | .unfollowed => 0
  | _ => 1

/-- What is left of an allowance when a call has been answered. There is none
before the handler of Ctrl-C is installed. -/
def left (n : ℕ) : Option Allowance → (c : MainCmd F) → c.Resp → Option Allowance
  | none, .signal, _ => some ⟨n + 7, 1⟩
  | none, _, _ => none
  | some _, .needExit, needExit => some (if needExit then ⟨n + 3, 0⟩ else ⟨n + 7, 1⟩)
  | some a, c, _ => some ⟨a.calls - 1, a.creations - threadsBy c⟩

/-- **What the main thread may do before it looks at the flag again**, where
there are no more than so many threads. -/
def ending (n : ℕ) : Automaton (Option Allowance) (MainCmd F) MainCmd.Resp where
  allows a c := match a with
    | none => Starting c ∨ c = .sqlite3_close
    | some a => ¬ Starting c ∧ callsFor n c ≤ a.calls ∧ threadsBy c ≤ a.creations
  next a c r a' := Told n c r ∧ a' = left n a c r

/-- **The acceptor is followed until it looks at the flag again**, whatever comes
after a look that shows it unset.

The model follows the accept loop for a number of rounds
(`Lifecycle.acceptLoop`), as the loop has no bound of its own. A run that gets
to the end of what is followed says nothing about what comes after, so the
statements below are about runs that do not. -/
def watched : Automaton Bool (MainCmd F) MainCmd.Resp where
  allows looked c := c = .unfollowed → looked = true
  next looked c r looked' := match c, r with
    | .needExit, needExit => looked' = (looked || !needExit)
    | _, _ => looked' = looked

/-- The round of the acceptor that is gone through is not the last that is
followed.

It is asked of the program only once the flag is set: then the next look ends
the loop, and one more round is enough. -/
def Watched (p : MainProg F Bool) : Prop := p.Follows watched (fun _ _ => True) false

/-- What comes after a look that shows the flag unset. -/
theorem follows_looked {α : Type} (p : MainProg F α) :
    p.Follows watched (fun _ _ => True) true := by
  induction p with
  | ret a => trivial
  | throw ex => trivial
  | call c k ih =>
    refine ⟨fun _ => rfl, fun r looked' h => ?_⟩
    obtain rfl : looked' = true := by
      cases c with
      | needExit => exact h.trans (Bool.true_or _)
      | _ => exact h
    exact ih r

/-- A program that is followed to its end. -/
theorem follows_watched {α : Type} {p : MainProg F α}
    (h : p.Conforms (fun c => c ≠ .unfollowed) (fun _ _ => True) fun _ => True) (looked : Bool) :
    p.Follows watched (fun _ _ => True) looked := by
  induction p generalizing looked with
  | ret a => trivial
  | throw ex => trivial
  | call c k ih =>
    exact ⟨fun hc => absurd hc h.1, fun r looked' _ => ih r (h.2 r trivial) looked'⟩

/-- How the programs of the main thread end: so many calls are left.

There is no `nullString` either: once the tables are set up the main thread
makes no `std::string` of what a call has returned. -/
def Armed (m : ℕ) {α : Type} (a : Option Allowance) (x : Except Exc α) : Prop :=
  x ≠ .error .nullString ∧ ∃ b, a = some b ∧ m ≤ b.calls

section MainThread

variable {n m : ℕ} {a : Allowance}

/-- Every join is one call, and `m` of them are left for what comes after. -/
theorem joinLoop_ending (k i : ℕ) (ha : m + k ≤ a.calls) :
    (joinLoop k i : MainProg F Unit).Follows (ending n) (Armed m) (some a) := by
  induction k generalizing i a with
  | zero => exact ⟨nofun, a, rfl, ha⟩
  | succ k ih =>
    refine ⟨⟨nofun, Nat.le_trans (by omega : 1 ≤ m + (k + 1)) ha, Nat.zero_le _⟩, ?_⟩
    rintro - a' ⟨-, rfl⟩
    exact ih (i + 1) (Nat.le_sub_one_of_lt ha)

/-- A round makes at most three calls after the look at the flag: it sleeps,
accepts and creates a thread. A system error is caught in the round, and any
other exception leaves the loop with no fewer calls. -/
theorem acceptOne_ending (ha : n + 7 ≤ a.calls) (hnew : 0 < a.creations) :
    (acceptOne : MainProg F Unit).Follows (ending n) (Armed (n + 4)) (some a) := by
  refine ⟨⟨nofun, (show 1 ≤ a.calls by omega), Nat.zero_le _⟩, ?_⟩
  rintro - a' ⟨-, rfl⟩
  refine Prog.Follows.tryCatch (P := Armed (n + 4)) ?_ (fun _ _ h => h) fun a' ex h => ?_
  · refine Prog.Follows.bind (P := fun a' x => x ≠ .error .nullString
      ∧ a' = some ⟨a.calls - 1 - 1, a.creations⟩) ?_ ?_ ?_
    -- accepting: if it fails nothing is created in this round
    · refine Prog.Follows.ofExcept (A := ending n) ?_ ?_
      · exact ⟨nofun, (show 1 ≤ a.calls - 1 by omega), Nat.zero_le _⟩
      · rintro r a' ⟨hr, rfl⟩
        exact ⟨hr, rfl⟩
    · rintro a' - ⟨-, rfl⟩
      refine Prog.Follows.ofExcept (A := ending n) ?_ ?_
      · exact ⟨nofun, (show 1 ≤ a.calls - 1 - 1 by omega), hnew⟩
      · rintro r a' ⟨hr, rfl⟩
        exact ⟨hr, _, rfl, (show n + 4 ≤ a.calls - 1 - 1 - 1 by omega)⟩
    · rintro a' ex ⟨hex, rfl⟩
      exact ⟨fun h => hex (congrArg Except.error (Except.error.inj h)), _, rfl,
        (show n + 4 ≤ a.calls - 1 - 1 by omega)⟩
  · cases ex with
    | systemError what => exact ⟨nofun, h.2⟩
    | _ => exact h

/-- The induction is on the rounds that are followed. The invariant is what a
look at the flag needs, `n + 4`: a round starts from the renewed allowance and
gives it back. -/
theorem acceptLoop_ending (k : ℕ) (ha : n + 4 ≤ a.calls) :
    (acceptLoop k : MainProg F Unit).Follows (ending n) (Armed (n + 3)) (some a) := by
  induction k generalizing a with
  | zero => exact ⟨⟨nofun, Nat.zero_le _, Nat.zero_le _⟩, nofun⟩
  | succ k ih =>
    refine ⟨⟨nofun, ha, Nat.zero_le _⟩, ?_⟩
    rintro (_ | _) a' ⟨-, rfl⟩
    · show (acceptOne.bind fun _ => acceptLoop k : MainProg F Unit).Follows _ _ _
      refine Prog.Follows.bind (acceptOne_ending (a := ⟨n + 7, 1⟩) le_rfl one_pos) ?_ ?_
      · rintro a' - ⟨-, b, rfl, hb⟩
        exact ih hb
      · rintro a' ex ⟨hex, b, rfl, hb⟩
        exact ⟨hex, b, rfl, Nat.le_of_succ_le hb⟩
    · exact ⟨nofun, _, rfl, le_rfl⟩

/-- However the loop is left – the flag, an exception of `accept`, an
exception of the creation of a thread – two calls are left for the destructor. -/
theorem start_ending (k : ℕ) (ha : n + 5 ≤ a.calls) :
    (start k : MainProg F Unit).Follows (ending n) (Armed 2) (some a) := by
  refine Prog.Follows.bind (P := fun a' x => x ≠ .error .nullString
    ∧ a' = some ⟨a.calls - 1, a.creations⟩) ?_ ?_ ?_
  · refine Prog.Follows.ofExcept (A := ending n) ?_ ?_
    · exact ⟨nofun, (show 1 ≤ a.calls by omega), Nat.zero_le _⟩
    · rintro r a' ⟨hr, rfl⟩
      exact ⟨hr, rfl⟩
  · rintro a' - ⟨-, rfl⟩
    refine Prog.Follows.bind (acceptLoop_ending k (Nat.le_sub_one_of_lt ha)) ?_ ?_
    · rintro a' - ⟨-, b, rfl, hb⟩
      refine ⟨⟨nofun, Nat.le_trans (Nat.le_add_left 1 (n + 2)) hb, Nat.zero_le _⟩, ?_⟩
      rintro (size : ℕ) a' ⟨(hsize : size ≤ n), rfl⟩
      exact joinLoop_ending size 0 (show 2 + size ≤ b.calls - 1 by omega)
    · rintro a' ex ⟨hex, b, rfl, hb⟩
      exact ⟨hex, b, rfl, Nat.le_trans (Nat.le_add_left 2 (n + 1)) hb⟩
  · rintro a' ex ⟨hex, rfl⟩
    exact ⟨hex, _, rfl, (show 2 ≤ a.calls - 1 by omega)⟩

/-- How `main` ends once the handler of Ctrl-C is installed. -/
def Returns (a : Option Allowance) (x : Except Exc Bool) : Prop :=
  a ≠ none → ∃ success, x = .ok success

/-- The handler is installed first, and from then on there is an allowance.
The `catch` clause of `main` turns whatever `start` has thrown into a result. -/
theorem serve_ending (k : ℕ) :
    (serve k : MainProg F Bool).Follows (ending n) Returns none := by
  refine Prog.Follows.bind (P := fun a x => (∃ success, x = .ok success) ∧ Armed 2 a x) ?_ ?_ ?_
  · refine ⟨Or.inl trivial, ?_⟩
    rintro - a' ⟨-, rfl⟩
    show (Prog.catchStd ((start k).bind fun _ => .ret true) fun _ => .ret false :
      MainProg F Bool).Follows _ _ _
    refine Prog.Follows.tryCatch (P := Armed 2) (Prog.Follows.bind
      (start_ending (a := ⟨n + 7, 1⟩) k (Nat.le_add_right _ 2)) (fun _ _ h => ⟨nofun, h.2⟩)
      fun _ _ h => ⟨fun h' => h.1 (congrArg Except.error (Except.error.inj h')), h.2⟩)
      (fun _ success h => ⟨⟨success, rfl⟩, h⟩) fun a' ex h => ?_
    cases ex with
    | nullString => exact absurd rfl h.1
    | _ => exact ⟨⟨false, rfl⟩, nofun, h.2⟩
  · rintro a' success ⟨-, -, b, rfl, hb⟩
    refine ⟨⟨nofun, Nat.le_of_succ_le hb, Nat.zero_le _⟩, ?_⟩
    rintro (_ | _) a' ⟨-, rfl⟩
    · refine ⟨⟨nofun, Nat.le_sub_one_of_lt hb, Nat.zero_le _⟩, ?_⟩
      rintro - a' -
      exact fun _ => ⟨success, rfl⟩
    · exact ⟨⟨nofun, Nat.zero_le _, Nat.zero_le _⟩, nofun⟩
  · rintro a' ex ⟨⟨success, h⟩, -⟩
    cases h

/-- While the tables are set up the main thread makes the calls of
`Server::Server`, without an allowance; if they fail it closes the database
and throws on. -/
theorem settingUp_ending (p : ServerProg F Unit) :
    (settingUp p).Follows (ending n) (fun a _ => a = none) none := by
  induction p with
  | ret u => exact rfl
  | throw ex =>
    have hclose : (Prog.call .sqlite3_close fun _ => .throw ex : MainProg F Unit).Follows
        (ending n) (fun a _ => a = none) none := by
      refine ⟨Or.inr rfl, ?_⟩
      rintro - a' ⟨-, rfl⟩
      exact rfl
    cases ex with
    | nullString => exact rfl
    | _ => exact hclose
  | call c k ih =>
    refine ⟨Or.inl trivial, ?_⟩
    rintro r a' ⟨-, rfl⟩
    exact ih r

/-- **The main thread keeps within its allowance.** -/
theorem main_ending (k : ℕ) : (main k : MainProg F Bool).Follows (ending n) Returns none := by
  refine ⟨Or.inl trivial, ?_⟩
  rintro (_ | _) a' ⟨-, rfl⟩
  · exact fun h => absurd rfl h
  · show (booting k Server.construct : MainProg F Bool).Follows _ _ _
    refine Prog.Follows.bind (P := fun a _ => a = none) (Prog.Follows.tryCatch
      (P := fun a _ => a = none) ((settingUp_ending Server.construct).bind
      (fun _ _ h => h) fun _ _ h => h) (fun _ _ h => h) fun a' ex h => ?_) ?_ ?_
    · cases ex with
      | nullString => exact h
      | _ => exact h
    · rintro a' (_ | _) rfl
      · exact fun h => absurd rfl h
      · exact serve_ending k
    · rintro a' ex rfl
      exact fun h => absurd rfl h

end MainThread

/-! ## What the main thread is told

The same as for the threads: the bound on the number of threads was assumed of the
answers, and here it is proved of those the process gives. -/

section Told

variable [Double F] {E : Engine F} {faulty : Prop} {clock : Int → Prop} {n : ℕ} {c : MainCmd F}
  {r : c.Resp} {fr fr' : Frame}

omit [Double F] in
/-- The only answer with a number in it is the size of the vector of threads,
and that is how many have been started. -/
theorem told_of_next (h : fr.Next c r fr') (hn : fr.started ≤ n) : Told n c r := by
  cases c with
  | listen =>
    rintro rfl
    obtain ⟨_, hex⟩ := h.1 _ rfl
    cases hex
  | accept =>
    rintro rfl
    obtain ⟨_, hex⟩ := h.1 _ rfl
    cases hex
  | spawn =>
    obtain ⟨rfl, -⟩ | ⟨_, rfl, -⟩ := h <;> exact nofun
  | size => exact h.1.trans_le hn
  | _ => trivial

omit [Double F] in
/-- How many threads there are. -/
theorem started_of_next (h : fr.Next c r fr') : fr'.started ≤ fr.started + threadsBy c := by
  cases c with
  | sqlite3_open => obtain ⟨-, rfl⟩ | ⟨-, rfl | rfl⟩ := h <;> exact Nat.le_add_right _ _
  | spawn =>
    obtain ⟨-, rfl⟩ | ⟨_, -, rfl⟩ := h
    · exact le_rfl
    · exact Nat.le_add_right _ _
  | signal => exact (congrArg Frame.started h).trans_le (Nat.le_add_right _ _)
  | join i => exact (congrArg Frame.started h).trans_le (Nat.le_add_right _ _)
  | sqlite3_close => exact (congrArg Frame.started h).trans_le (Nat.le_add_right _ _)
  | _ => exact (congrArg Frame.started (h.eq trivial)).trans_le (Nat.le_add_right _ _)

omit [Double F] in
/-- No look at the flag gives more than an allowance to begin with. -/
theorem left_le {b : Option Allowance} (hb : ∀ a ∈ b, a.calls ≤ n + 7 ∧ a.creations ≤ 1) :
    ∀ a ∈ left n b c r, a.calls ≤ n + 7 ∧ a.creations ≤ 1 := by
  cases b with
  | none =>
    cases c with
    | signal =>
      rintro a ⟨⟩
      exact ⟨le_rfl, le_rfl⟩
    | _ => exact nofun
  | some a₀ =>
    have ha := hb a₀ rfl
    cases c with
    | needExit =>
      cases r <;> rintro a ⟨⟩
      · exact ⟨le_rfl, le_rfl⟩
      · exact ⟨Nat.add_le_add_left (by decide) n, Nat.zero_le _⟩
    | _ =>
      rintro a ⟨⟩
      exact ⟨(Nat.sub_le _ _).trans ha.1, (Nat.sub_le _ _).trans ha.2⟩

omit [Double F] in
/-- There is an allowance from the time the handler of Ctrl-C is installed. -/
theorem left_ne_none {b : Option Allowance} (h : fr.Next c r fr')
    (hb : fr.installed = true → b ≠ none) (hfr : fr'.installed = true) : left n b c r ≠ none := by
  cases b with
  | none =>
    have hnot : fr.installed ≠ true := fun h => hb h rfl
    cases c with
    | signal => exact nofun
    | sqlite3_open => obtain ⟨-, rfl⟩ | ⟨-, rfl | rfl⟩ := h <;> exact absurd hfr hnot
    | spawn => obtain ⟨-, rfl⟩ | ⟨_, -, rfl⟩ := h <;> exact absurd hfr hnot
    | join i => exact absurd ((congrArg Frame.installed h).symm.trans hfr) hnot
    | sqlite3_close => exact absurd ((congrArg Frame.installed h).symm.trans hfr) hnot
    | _ => exact absurd ((congrArg Frame.installed (h.eq trivial)).symm.trans hfr) hnot
  | some a => cases c <;> exact nofun

/-- When the flag is set, the acceptor is followed to the end of its loop. -/
theorem Watched.step {pr : Process F} {k : c.Resp → MainProg F Bool} {d : Database F}
    (h : Watched (.call c k)) (hflag : pr.flag = true) (hc : pr.Answers E faulty clock c r d) :
    Watched (k r) := by
  refine Prog.Follows.step h ?_
  cases c with
  | needExit =>
    obtain rfl : r = true := hc.1.trans hflag
    exact rfl
  | _ => exact rfl

/-- A look at the flag that shows it set only leaves what there is to do then. -/
theorem left_lt {pr : Process F} {a : Allowance} {d : Database F}
    (ha : (ending n).allows (some a) c) (hflag : pr.flag = true)
    (hc : pr.Answers E faulty clock c r d) :
    ∃ a', left n (some a) c r = some a' ∧ a'.calls + 1 ≤ a.calls
      ∧ a'.creations + threadsBy c ≤ a.creations := by
  obtain ⟨hstart, hcalls, hthreads⟩ := ha
  cases c with
  | sqlite3_open => exact (hstart trivial).elim
  | server c => exact (hstart trivial).elim
  | signal => exact (hstart trivial).elim
  | needExit =>
    obtain rfl : r = true := hc.1.trans hflag
    exact ⟨_, rfl, hcalls, Nat.zero_le _⟩
  | terminate => exact r.elim
  | unfollowed => exact r.elim
  | _ => exact ⟨_, rfl, (Nat.sub_add_cancel hcalls).le, (Nat.sub_add_cancel hthreads).le⟩

end Told

end Lifecycle
