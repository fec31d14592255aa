import TZ.Serializing

/-!
# The client

`Client/Client.hpp` and `Client/Client.cpp`: the loop that sends a packet
every now and then, and the request for the statistics. The commands of its
programs are the clock, the two random generators, the flag that asks the loop
to end, and the two operations of the websocket.

Connecting and disconnecting are left out, and so is what `start` prints. A
client is told apart by the 16 bytes of its `boost::uuids::uuid`, which goes
into every packet as text; no two of these texts are the same
(`Uuid.to_string_injective`), and neither UTF-8 nor the conventions of C
strings take anything away from one.
-/

open Protobuf

/-! ## The name of a client -/

/-- **A `boost::uuids::uuid`**: sixteen bytes. -/
@[ext] structure Uuid where
  /-- The bytes. -/
  data : List UInt8
  /-- There are sixteen. -/
  size : data.length = 16
  deriving DecidableEq

namespace Uuid

/-- A digit of a number to the base 16, in lower case. -/
def digit (n : ℕ) : UInt8 := if n < 10 then (48 + n).toUInt8 else (87 + n).toUInt8

/-- The text of the bytes from the `i`-th on, with a dash after the fourth, the
sixth, the eighth and the tenth. -/
def textFrom : ℕ → List UInt8 → Bytes
  | _, [] => []
  | i, b :: bs =>
    digit (b.toNat / 16) :: digit (b.toNat % 16)
      :: ((if i = 3 ∨ i = 5 ∨ i = 7 ∨ i = 9 then [45] else []) ++ textFrom (i + 1) bs)

/-- `boost::uuids::to_string`. -/
def to_string (uuid : Uuid) : Bytes := textFrom 0 uuid.data

theorem digit_injective {m n : ℕ} (hm : m < 16) (hn : n < 16) (h : digit m = digit n) :
    m = n := by
  have hall : ∀ m < 16, ∀ n < 16, digit m = digit n → m = n := by decide
  exact hall m hm n hn h

/-- A digit is a letter or a figure. -/
theorem digit_range {n : ℕ} (hn : n < 16) : 48 ≤ digit n ∧ digit n < 0x80 := by
  have hall : ∀ n < 16, 48 ≤ digit n ∧ digit n < 0x80 := by decide
  exact hall n hn

theorem nibbles (b : UInt8) : b.toNat / 16 < 16 ∧ b.toNat % 16 < 16 := by
  have := b.toNat_lt
  omega

theorem textFrom_injective {i : ℕ} {bs cs : List UInt8} (h : textFrom i bs = textFrom i cs) :
    bs = cs := by
  induction bs generalizing i cs with
  | nil =>
    cases cs with
    | nil => rfl
    | cons c cs => cases h
  | cons b bs ih =>
    cases cs with
    | nil => cases h
    | cons c cs =>
      rw [textFrom, textFrom, List.cons.injEq, List.cons.injEq] at h
      obtain ⟨hhigh, hlow, hrest⟩ := h
      have hhigh := digit_injective (nibbles b).1 (nibbles c).1 hhigh
      have hlow := digit_injective (nibbles b).2 (nibbles c).2 hlow
      have hbyte : b = c := UInt8.toNat_inj.mp (by omega)
      rw [hbyte, ih (List.append_cancel_left hrest)]

/-- **Different clients have different texts.** -/
theorem to_string_injective : Function.Injective to_string :=
  fun _ _ h => Uuid.ext (textFrom_injective h)

theorem mem_textFrom {i : ℕ} {bs : List UInt8} {b : UInt8} (h : b ∈ textFrom i bs) :
    45 ≤ b ∧ b < 0x80 := by
  induction bs generalizing i with
  | nil => cases h
  | cons c bs ih =>
    rw [textFrom, List.mem_cons, List.mem_cons, List.mem_append] at h
    rcases h with rfl | rfl | h | h
    · exact ⟨UInt8.le_trans (by decide) (digit_range (nibbles c).1).1,
        (digit_range (nibbles c).1).2⟩
    · exact ⟨UInt8.le_trans (by decide) (digit_range (nibbles c).2).1,
        (digit_range (nibbles c).2).2⟩
    · split_ifs at h
      · rw [List.mem_singleton.mp h]
        decide
      · cases h
    · exact ih h

/-- **A text is shown whole** by an interface of C strings. -/
theorem cstr_to_string (uuid : Uuid) : cstr uuid.to_string = uuid.to_string :=
  cstr_eq_self fun h => absurd (mem_textFrom h).1 (by decide)

theorem length_textFrom_le (i : ℕ) (bs : List UInt8) :
    (textFrom i bs).length ≤ 3 * bs.length := by
  induction bs generalizing i with
  | nil => exact le_rfl
  | cons b bs ih =>
    have := ih (i + 1)
    rw [textFrom, List.length_cons, List.length_cons, List.length_append, List.length_cons]
    split_ifs
    · rw [List.length_singleton]
      omega
    · rw [List.length_nil]
      omega

theorem length_to_string_le (uuid : Uuid) : uuid.to_string.length ≤ 48 := by
  have h := length_textFrom_le 0 uuid.data
  rw [uuid.size] at h
  exact h

end Uuid

/-! ## What the client asks of its surroundings -/

/-- **What a program of the client asks of its surroundings.** -/
inductive ClientCmd (F : Type) where
  /-- `std::chrono::system_clock::now()`, in ticks since the epoch. -/
  | now
  /-- `ig(dre)`. -/
  | interval
  /-- `dg(dre)`. -/
  | coordinate
  /-- `std::this_thread::sleep_for`. -/
  | sleep
  /-- `m_needExit`. -/
  | needExit
  /-- `m_pws->write(net::buffer(buffer))`. -/
  | write (buffer : Bytes)
  /-- `m_pws->read(buffer)`. -/
  | read

/-- The answers. -/
abbrev ClientCmd.Resp {F : Type} : ClientCmd F → Type
  | .now => Int
  | .interval => Int
  | .coordinate => F
  | .sleep => Unit
  | .needExit => Bool
  | .write _ => Except Exc ℕ
  | .read => Except Exc Bytes

/-- A program of the client. -/
abbrev ClientProg (F α : Type) := Prog (ClientCmd F) ClientCmd.Resp Exc α

namespace Client

variable {F : Type} [Double F]

/-- `INTERVAL_MIN`, in seconds. -/
def INTERVAL_MIN : Int := 5
/-- `INTERVAL_MAX`, in seconds. -/
def INTERVAL_MAX : Int := 30

/-- A second in ticks of `std::chrono::system_clock`. -/
def ticksPerSecond : Int := 10000000

/-- A `try` block with `catch (const beast::system_error&)`, which throws a
`std::exception` instead. -/
def catchSystem {α : Type} (p : ClientProg F α) (what : String) : ClientProg F α :=
  p.tryCatch fun ex => match ex with
    | .systemError _ => .throw (.exception what)
    | ex => .throw ex

section Programs

variable (W : Writer F) (uuid : Uuid)

/-- The packet that is sent, and that it is sent. -/
def sendPacket : ClientProg F Unit := do
  let timestamp ← Prog.perform .now
  let x ← Prog.perform .coordinate
  let y ← Prog.perform .coordinate
  let packet : ClientPacket F :=
    { type := ClientPacket.DATA, data := some ⟨uuid.to_string, timestamp, x, y⟩ }
  catchSystem (do
    let _ ← .call (.write (packet.SerializeAsString W)) .ofExcept
    .ret ()) "Connection closed."

/-- `std::chrono::system_clock::now() + std::chrono::seconds(ig(dre))`. -/
def nextSending : ClientProg F Int := do
  let now ← Prog.perform .now
  let seconds ← Prog.perform .interval
  .ret (now + seconds * ticksPerSecond)

/-- The `if` of the loop: `nextTime` afterwards. -/
def sendIfDue (nextTime : Int) : ClientProg F Int := do
  let now ← Prog.perform .now
  if now ≥ nextTime then do
    sendPacket W uuid
    nextSending
  else .ret nextTime

/-- The `do … while (!m_needExit)` loop, for at most a given number of rounds. -/
def sendLoop : ℕ → Int → ClientProg F Unit
  | 0, _ => .ret ()
  | n + 1, nextTime => do
    let nextTime ← sendIfDue W uuid nextTime
    let _ ← Prog.perform (ClientCmd.sleep : ClientCmd F)
    let needExit ← Prog.perform .needExit
    if needExit then .ret () else sendLoop n nextTime

/-- `Client::start`, for at most `n` rounds. -/
def start (n : ℕ) : ClientProg F Unit := do
  let nextTime ← nextSending
  sendLoop W uuid n nextTime

end Programs

/-! ## The statistics -/

/-- A string literal. -/
def literal (s : String) : Bytes := s.toList.map fun c => c.toNat.toUInt8

/-- The line of a client, given `std::to_string`. -/
def line (to_string : F → Bytes) (client : ServerStatistic.Statistic F) : Bytes :=
  client.uuid ++ literal " " ++ to_string client.x1 ++ literal " " ++ to_string client.y1
    ++ literal " " ++ to_string client.x5 ++ literal " " ++ to_string client.y5

/-- The loop over the clients, from the `i`-th on: a line break before every
line but the first. -/
def lines (to_string : F → Bytes) : ℕ → List (ServerStatistic.Statistic F) → Bytes
  | _, [] => []
  | i, client :: clients =>
    (if i = 0 then [] else literal "\n") ++ line to_string client
      ++ lines to_string (i + 1) clients

/-- `statsStr`. -/
def statsStr (to_string : F → Bytes) (stats : ServerStatistic F) : Bytes :=
  literal "UUID X_1 Y_1 X_5 Y_5\n"
    ++ if stats.client.length = 0 then literal "There are no statistics."
      else lines to_string 0 stats.client

/-- The request: a packet of type `STATISTICS` whose `data` is null. -/
def request : ClientPacket F := { type := ClientPacket.STATISTICS, data := none }

/-- `Client::getStatistics`. The result of `ParseFromString` is discarded. -/
def getStatistics (W : Writer F) (to_string : F → Bytes) : ClientProg F Bytes := do
  let buffer ← catchSystem (do
    let _ ← .call (.write ((request : ClientPacket F).SerializeAsString W)) .ofExcept
    .call .read .ofExcept) "Can't get statistics."
  let stats := (ServerStatistic.ParseFromString W.toRuntime buffer).2
  .ret (statsStr to_string stats)

end Client
