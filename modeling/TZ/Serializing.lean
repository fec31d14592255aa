import TZ.Readable

/-!
# What a client puts on the wire

`_InternalSerialize`, `ByteSizeLong` and `MergeFrom` of the generated classes,
and what connects them with `_InternalParse`. Reading what a packet was
serialised to, into a message that already holds something, is merging the
packet into that message (`ClientPacket.reads_serialize`): a field that holds
its default was not written, and merging passes over it. So packets written
one after another, with nothing between them, are parsed to the merge of all
of them, as long as every `uuid` is UTF-8 (`ClientPacket.parse_concat_iff`);
and one packet by itself is read back.

Why merging: the parser of a class reads into a message that may already hold something,
because a nested message can occur twice, and then its parts are merged. A statement
about parsing into an empty message would not be inductive. "Reading is merging" is, and
it makes concatenation a special case.

`ByteSizeLong` is a second function that goes over the same fields. The runtime
allocates a buffer of that size and writes without looking at its end, so the two must
agree on every field, and on when a field is left out.
-/

open Protobuf

/-! ## Numbers -/

/-- The conversion of a signed number to a `uint64`. -/
def toUnsigned (x : Int) : ℕ := (x % 2 ^ 64).toNat

theorem toUnsigned_lt (x : Int) : toUnsigned x < 2 ^ 64 := by
  unfold toUnsigned
  omega

/-- A number of so many bits is what its conversion to `uint64` is converted
back to. -/
theorem toSigned_toUnsigned {width : ℕ} (hwidth : width ≤ 64) {x : Int}
    (hmin : -(2 ^ width) ≤ 2 * x) (hmax : 2 * x < 2 ^ width) :
    toSigned width (toUnsigned x) = x := by
  have hdvd : (2 ^ width : Int) ∣ 2 ^ 64 := pow_dvd_pow 2 hwidth
  have hcast : ((2 ^ width : ℕ) : Int) = 2 ^ width := by push_cast; rfl
  unfold toSigned toUnsigned
  rw [Int.toNat_of_nonneg (Int.emod_nonneg _ (by decide)), Int.bmod_def, hcast,
    Int.emod_emod_of_dvd x hdvd, ← hcast, ← Int.bmod_def]
  rw [Int.bmod_eq_of_le_mul_two] <;> omega

namespace Protobuf

/-! ## The functions that write

Writing needs more of the runtime than reading, and only the client and the statement
about sizes use it. So it is an extension of the structure, with an extension of the
laws. -/

/-- **The functions of the runtime that only writing calls**, and those that
tell how much will be written. -/
structure Writer (F : Type) extends Runtime F where
  /-- `WireFormatLite::WriteInt64ToArray(n, x, target)`: what it writes. -/
  WriteInt64ToArray : ℕ → Int → List UInt8
  /-- `WireFormatLite::WriteEnumToArray(n, x, target)`. -/
  WriteEnumToArray : ℕ → Int → List UInt8
  /-- `WireFormatLite::StringSize(str)`. -/
  StringSize : List UInt8 → ℕ
  /-- `WireFormatLite::Int64SizePlusOne(x)`. -/
  Int64SizePlusOne : Int → ℕ
  /-- `WireFormatLite::EnumSize(x)`. -/
  EnumSize : Int → ℕ
  /-- `WireFormatLite::MessageSize(message)`, given its `ByteSizeLong`. -/
  MessageSize : ℕ → ℕ

/-- **What was written is read back**, numbers included, and takes as many
bytes as was foretold.

A negative number is converted to 64 bits and takes ten bytes; the laws speak
of the number it is converted to. -/
structure Writer.Lawful {F : Type} (W : Writer F)
    (At : W.Stream → List (List UInt8) → Prop) (double : F → List UInt8) (maxSize : ℕ) :
    Prop extends W.toRuntime.Lawful At double maxSize where
  /-- A number in groups of seven bits is read to its end. -/
  varint : ∀ {s n rest outer}, n < 2 ^ 64 → At s ((Wire.varint n ++ rest) :: outer) →
    ∃ s', W.ReadVarint64 s = (n, some s') ∧ At s' (rest :: outer)
  /-- A text of ASCII characters is well-formed. -/
  verifyAscii : ∀ {str : List UInt8}, (∀ b ∈ str, b < 0x80) → W.VerifyUTF8 str = true
  /-- A short message is not too long. -/
  short_le : 128 ≤ maxSize
  /-- An `int64` is written as the number it is converted to. -/
  writeInt64 : ∀ n x, W.WriteInt64ToArray n x = (8 * n).toUInt8 :: Wire.varint (toUnsigned x)
  /-- So is an enumeration. -/
  writeEnum : ∀ n x, W.WriteEnumToArray n x = (8 * n).toUInt8 :: Wire.varint (toUnsigned x)
  /-- A double takes eight bytes. -/
  length_double : ∀ x, (double x).length = 8
  /-- A string takes its bytes and those of its length. -/
  stringSize : ∀ str, W.StringSize str = (Wire.varint str.length).length + str.length
  /-- An `int64` takes its groups; the one more is for its tag. -/
  int64Size : ∀ x, W.Int64SizePlusOne x = (Wire.varint (toUnsigned x)).length + 1
  /-- An enumeration takes its groups. -/
  enumSize : ∀ x, W.EnumSize x = (Wire.varint (toUnsigned x)).length
  /-- A message takes its bytes and those of its length. -/
  messageSize : ∀ n, W.MessageSize n = (Wire.varint n).length + n

/-- The runtime that does what the documentation says, with what it writes. -/
def Writer.reference {F : Type} (bits : F → ℕ) (ofBits : ℕ → F) : Writer F where
  toRuntime := .reference bits ofBits
  WriteInt64ToArray n x := (8 * n).toUInt8 :: Wire.varint (toUnsigned x)
  WriteEnumToArray n x := (8 * n).toUInt8 :: Wire.varint (toUnsigned x)
  StringSize str := (Wire.varint str.length).length + str.length
  Int64SizePlusOne x := (Wire.varint (toUnsigned x)).length + 1
  EnumSize x := (Wire.varint (toUnsigned x)).length
  MessageSize n := (Wire.varint n).length + n

/-- **It reads back what it writes.** -/
theorem Writer.reference_lawful {F : Type} {bits : F → ℕ} {ofBits : ℕ → F}
    (hbits : ∀ x, ofBits (bits x) = x) (hlt : ∀ x, bits x < 2 ^ 64) :
    (Writer.reference bits ofBits).Lawful Reference.At (fun x => Wire.fixed 8 (bits x))
      Reference.maxSize where
  toLawful := Reference.lawful hbits hlt
  varint := by
    rintro s n rest outer hn ⟨_, _, hframes, rfl⟩
    cases hframes
    refine ⟨⟨rest, outer.map some, false, none⟩, ?_, rest, outer, rfl, rfl⟩
    show Reference.readVarint64 _ = _
    rw [Reference.readVarint64,
      Wire.readVarint_varint (k := 9) (hn.trans (by decide)) rest]
    show (n % 2 ^ 64, _) = _
    rw [Nat.mod_eq_of_lt hn]
    rfl
  verifyAscii := Wire.utf8_ascii
  short_le := by decide
  writeInt64 _ _ := rfl
  writeEnum _ _ := rfl
  length_double x := Wire.length_fixed 8 _
  stringSize _ := rfl
  int64Size _ := rfl
  enumSize _ := rfl
  messageSize _ := rfl

end Protobuf

namespace Protobuf.Runtime

/-! ## A message in a message

A `Data` is inside a packet, with its length before it. To read it the parser sets a
limit and goes one level down, and the levels are bounded. -/

variable {F M N : Type} {R : Runtime F} {At : R.Stream → List (List UInt8) → Prop}
  {double : F → List UInt8} {maxSize : ℕ}
  {field : ℕ → ℕ → M → R.Stream → Field M R.Stream}

/-- A stream in the middle of messages that another may be nested in.

There is room for one more level. -/
def Shallow (At : R.Stream → List (List UInt8) → Prop) (s : R.Stream)
    (frames : List (List UInt8)) : Prop :=
  At s frames ∧ frames.length ≤ 100

/-- What is read at any depth is read there. -/
theorem Reads.shallow {bytes : List UInt8} {step : M → M} (h : R.Reads At field bytes step) :
    R.Reads (Shallow At) field bytes step := by
  rintro fuel msg s rest outer hlen ⟨hs, hdepth⟩
  obtain ⟨fuel', s', hlen', hs', hrun⟩ := h fuel msg s rest outer hlen hs
  exact ⟨fuel', s', hlen', ⟨hs', hdepth⟩, hrun⟩

/-- **What a loop turns down**: it does not get past some bytes.

It is the counterpart of `Reads`, for bytes that make the loop fail wherever
they stand. -/
def Rejects (R : Runtime F) (At : R.Stream → List (List UInt8) → Prop)
    (field : ℕ → ℕ → M → R.Stream → Field M R.Stream) (bytes : List UInt8) : Prop :=
  ∀ fuel msg s rest outer, (bytes ++ rest).length < fuel → At s ((bytes ++ rest) :: outer) →
    (R.parseFields field fuel msg s).2 = none

/-- Bytes that are turned down are so after others that are read. -/
theorem Reads.rejects {bytes bytes' : List UInt8} {step : M → M}
    (h : R.Reads At field bytes step) (h' : R.Rejects At field bytes') :
    R.Rejects At field (bytes ++ bytes') := by
  intro fuel msg s rest outer hlen hs
  rw [List.append_assoc] at hlen hs
  obtain ⟨fuel', s', hlen', hs', hrun⟩ := h fuel msg s _ outer hlen hs
  rw [hrun]
  exact h' fuel' _ s' rest outer hlen' hs'

/-- And so they are before others. -/
theorem Rejects.append {bytes : List UInt8} (h : R.Rejects At field bytes)
    (bytes' : List UInt8) : R.Rejects At field (bytes ++ bytes') := by
  intro fuel msg s rest outer hlen hs
  rw [List.append_assoc] at hlen hs
  exact h fuel msg s _ outer hlen hs

variable {inner : ℕ → ℕ → N → R.Stream → Field N R.Stream} {b : UInt8} {body : List UInt8}

/-- **A field that is a message is read**, into what it held, if the loop of its
class reads it.

The message that was there is handed to the parser of the inner class, and the
result put back; this is what makes the two occurrences of a field merge. -/
theorem Lawful.reads_message (hR : R.Lawful At double maxSize) (hb : b < 0x80)
    (set : N → M → M) (old : M → N)
    (hfield : ∀ fuel msg s, field fuel b.toNat msg s
      = R.messageField (fun n => set n msg)
        (R.ParseMessage (R.parseFields inner fuel) (old msg) s))
    {step : N → N} (hbody : R.Reads At inner body step) (hlen : body.length ≤ maxSize) :
    R.Reads (Shallow At) field (b :: (Wire.varint body.length ++ body))
      fun msg => set (step (old msg)) msg := by
  rintro fuel msg s rest outer hfuel ⟨hs, hdepth⟩
  obtain ⟨fuel, rfl⟩ := Nat.exists_eq_succ_of_ne_zero (Nat.ne_zero_of_lt hfuel)
  rw [List.cons_append, List.append_assoc] at hs
  obtain ⟨s₁, hs₁, hrun⟩ := hR.parse_cons hb hs
  rw [List.cons_append, List.length_cons, Nat.succ_lt_succ_iff, List.length_append,
    List.length_append] at hfuel
  obtain ⟨s₂, hmsg, hs₂⟩ := hR.read_message hlen (Nat.lt_of_succ_le hdepth) hs₁
    fun s hs => hR.parse_reads hbody (show body.length < fuel by omega) hs
  refine ⟨fuel, s₂, by omega, ⟨hs₂, hdepth⟩, ?_⟩
  rw [hrun, hfield, hmsg]
  rfl

/-- It is turned down if they turn it down. -/
theorem Lawful.rejects_message (hR : R.Lawful At double maxSize) (hb : b < 0x80)
    (set : N → M → M) (old : M → N)
    (hfield : ∀ fuel msg s, field fuel b.toNat msg s
      = R.messageField (fun n => set n msg)
        (R.ParseMessage (R.parseFields inner fuel) (old msg) s))
    (hbody : R.Rejects At inner body) (hlen : body.length ≤ maxSize) :
    R.Rejects (Shallow At) field (b :: (Wire.varint body.length ++ body)) := by
  rintro fuel msg s rest outer hfuel ⟨hs, hdepth⟩
  obtain ⟨fuel, rfl⟩ := Nat.exists_eq_succ_of_ne_zero (Nat.ne_zero_of_lt hfuel)
  rw [List.cons_append, List.append_assoc] at hs
  obtain ⟨s₁, hs₁, hrun⟩ := hR.parse_cons hb hs
  rw [List.cons_append, List.length_cons, Nat.succ_lt_succ_iff, List.length_append,
    List.length_append] at hfuel
  have hnone := hR.reject_message hlen (Nat.lt_of_succ_le hdepth) hs₁
    fun s hs => hbody fuel (old msg) s [] _ (by rw [List.append_nil]; omega)
      (by rwa [List.append_nil])
  rw [hrun, hfield]
  rcases hmsg : R.ParseMessage (R.parseFields inner fuel) (old msg) s₁ with ⟨n, _ | s₂⟩
  · rfl
  · rw [hmsg] at hnone
    cases hnone

/-- A string that is not well-formed is turned down. -/
theorem Lawful.rejects_string (hR : R.Lawful At double maxSize) (hb : b < 0x80)
    (put : List UInt8 → M → M) (text : M → List UInt8)
    (hfield : ∀ fuel msg s,
      field fuel b.toNat msg s = R.stringField (fun str => put str msg) (text msg) s)
    {str : List UInt8} (hstr : R.VerifyUTF8 str = false) (hlen : str.length ≤ maxSize) :
    R.Rejects At field (b :: (Wire.varint str.length ++ str)) := by
  intro fuel msg s rest outer hfuel hs
  obtain ⟨fuel, rfl⟩ := Nat.exists_eq_succ_of_ne_zero (Nat.ne_zero_of_lt hfuel)
  rw [List.cons_append, List.append_assoc] at hs
  obtain ⟨s₁, hs₁, hrun⟩ := hR.parse_cons hb hs
  rw [hrun, hfield, hR.reject_string hstr hlen hs₁ (fun str => put str msg) (text msg)]

/-- **A buffer is parsed to its end**, if the loop reads it. -/
theorem Lawful.parseFromString_reads (hR : R.Lawful At double maxSize) {bytes : List UInt8}
    {step : M → M} (h : R.Reads (Shallow At) field bytes step) (empty : M) :
    R.ParseFromString (R.parseFields field) empty bytes = (true, step empty) := by
  have hstart : Shallow At (R.start bytes) ((bytes ++ []) :: []) :=
    ⟨(List.append_nil bytes).symm ▸ hR.start bytes, Nat.succ_le_succ (Nat.zero_le 99)⟩
  obtain ⟨fuel, s₁, hlen, ⟨hs₁, -⟩, hrun⟩ := h (bytes.length + 1) empty (R.start bytes) [] []
    (by rw [List.append_nil]; exact Nat.lt_succ_self _) hstart
  obtain ⟨fuel, rfl⟩ := Nat.exists_eq_succ_of_ne_zero (Nat.ne_zero_of_lt hlen)
  obtain ⟨s₂, hparse, hs₂⟩ :
      ∃ s₂, R.parseFields field (fuel + 1) (step empty) s₁ = (step empty, some s₂)
        ∧ At s₂ ([] :: []) := hR.parse_nil hs₁
  unfold ParseFromString
  rw [hrun, hparse]
  exact Prod.ext (hR.ended hs₂) rfl

/-- It is turned down if the loop turns it down. -/
theorem Lawful.parseFromString_rejects (hR : R.Lawful At double maxSize) {bytes : List UInt8}
    (h : R.Rejects (Shallow At) field bytes) (empty : M) :
    (R.ParseFromString (R.parseFields field) empty bytes).1 = false := by
  have hstart : Shallow At (R.start bytes) ((bytes ++ []) :: []) :=
    ⟨(List.append_nil bytes).symm ▸ hR.start bytes, Nat.succ_le_succ (Nat.zero_le 99)⟩
  have hnone := h (bytes.length + 1) empty (R.start bytes) [] []
    (by rw [List.append_nil]; exact Nat.lt_succ_self _) hstart
  unfold ParseFromString
  rcases hparse : R.parseFields field (bytes.length + 1) empty (R.start bytes) with ⟨msg, _ | s⟩
  · rfl
  · rw [hparse] at hnone
    cases hnone

end Protobuf.Runtime

/-! ## The generated classes

Field by field, in the order of the generated code. What is compared with the default
is compared as the code does it: a text by its length, a number by its value, a double
by `<=` and `>=`, which take both zeros for the default. -/

variable {F : Type} [Double F] (W : Writer F)

namespace ClientPacket

/-- `ClientPacket_Data::_InternalSerialize`. -/
def Data.InternalSerialize (msg : Data F) : Bytes :=
  (if msg.uuid.isEmpty then [] else W.WriteStringMaybeAliased 1 msg.uuid)
    ++ ((if msg.timestamp = 0 then [] else W.WriteInt64ToArray 2 msg.timestamp)
      ++ (ServerStatistic.writeDouble W.toRuntime 3 msg.x
        ++ ServerStatistic.writeDouble W.toRuntime 4 msg.y))

/-- `ClientPacket::_InternalSerialize`. -/
def InternalSerialize (msg : ClientPacket F) : Bytes :=
  (if msg.type = 0 then [] else W.WriteEnumToArray 1 msg.type)
    ++ msg.data.elim [] fun data => W.InternalWriteMessage 2 (data.InternalSerialize W)

/-- **`tz::ClientPacket::SerializeAsString`.** -/
def SerializeAsString (msg : ClientPacket F) : Bytes := msg.InternalSerialize W

/-- `ClientPacket_Data::ByteSizeLong`. -/
def Data.ByteSizeLong (msg : Data F) : ℕ :=
  (if msg.uuid.isEmpty then 0 else 1 + W.StringSize msg.uuid)
    + (if msg.timestamp = 0 then 0 else W.Int64SizePlusOne msg.timestamp)
    + (if Double.isZero msg.x then 0 else 1 + 8) + (if Double.isZero msg.y then 0 else 1 + 8)

/-- `ClientPacket::ByteSizeLong`, which counts `data` first. -/
def ByteSizeLong (msg : ClientPacket F) : ℕ :=
  (msg.data.elim 0 fun data => 1 + W.MessageSize (data.ByteSizeLong W))
    + (if msg.type = 0 then 0 else 1 + W.EnumSize msg.type)

/-- `ClientPacket_Data::MergeFrom`. -/
def Data.MergeFrom (msg other : Data F) : Data F where
  uuid := if other.uuid.isEmpty then msg.uuid else other.uuid
  timestamp := if other.timestamp = 0 then msg.timestamp else other.timestamp
  x := if Double.isZero other.x then msg.x else other.x
  y := if Double.isZero other.y then msg.y else other.y

/-- `ClientPacket::MergeFrom`. -/
def MergeFrom (msg other : ClientPacket F) : ClientPacket F where
  type := if other.type = 0 then msg.type else other.type
  data := other.data.elim msg.data fun data =>
    some ((msg.data.getD (Data.default F)).MergeFrom data)

end ClientPacket

namespace ServerStatistic

/-- `ServerStatistic_Statistic::ByteSizeLong`. -/
def Statistic.ByteSizeLong (msg : Statistic F) : ℕ :=
  (if msg.uuid.isEmpty then 0 else 1 + W.StringSize msg.uuid)
    + (if Double.isZero msg.x1 then 0 else 1 + 8) + (if Double.isZero msg.y1 then 0 else 1 + 8)
    + (if Double.isZero msg.x5 then 0 else 1 + 8) + (if Double.isZero msg.y5 then 0 else 1 + 8)

/-- `ServerStatistic::ByteSizeLong`. -/
def ByteSizeLong (msg : ServerStatistic F) : ℕ :=
  1 * msg.client.length
    + (msg.client.map fun client => W.MessageSize (client.ByteSizeLong W)).sum

end ServerStatistic

/-! ## As many bytes as were foretold

One lemma for each kind of field: what is written takes as many bytes as were counted.
The length of a nested message is itself written, in as many bytes as its number
needs. -/

section ByteSize

variable {W} {At : W.Stream → List (List UInt8) → Prop} {double : F → List UInt8} {maxSize : ℕ}
  (hW : W.Lawful At double maxSize)
include hW

omit [Double F] in
theorem length_writeString {uuid : Bytes} :
    (if uuid.isEmpty then [] else W.WriteStringMaybeAliased 1 uuid).length
      = if uuid.isEmpty then 0 else 1 + W.StringSize uuid := by
  split_ifs
  · rfl
  · rw [hW.writeString, hW.stringSize, List.length_cons, List.length_append]
    omega

theorem length_writeDouble (n : ℕ) (x : F) :
    (ServerStatistic.writeDouble W.toRuntime n x).length
      = if Double.isZero x then 0 else 1 + 8 := by
  unfold ServerStatistic.writeDouble
  split_ifs
  · rfl
  · rw [hW.writeDouble, List.length_cons, hW.length_double]

omit [Double F] in
theorem length_writeMessage (n : ℕ) (body : Bytes) :
    (W.InternalWriteMessage n body).length = 1 + W.MessageSize body.length := by
  rw [hW.writeMessage, hW.messageSize, List.length_cons, List.length_append]
  omega

theorem ClientPacket.Data.length_serialize (msg : Data F) :
    (msg.InternalSerialize W).length = msg.ByteSizeLong W := by
  have htime : (if msg.timestamp = 0 then [] else W.WriteInt64ToArray 2 msg.timestamp).length
      = if msg.timestamp = 0 then 0 else W.Int64SizePlusOne msg.timestamp := by
    split_ifs
    · rfl
    · rw [hW.writeInt64, hW.int64Size, List.length_cons]
  unfold InternalSerialize ByteSizeLong
  rw [List.length_append, List.length_append, List.length_append, length_writeString hW, htime,
    length_writeDouble hW, length_writeDouble hW]
  omega

theorem ServerStatistic.Statistic.length_serialize (msg : Statistic F) :
    (msg.InternalSerialize W.toRuntime).length = msg.ByteSizeLong W := by
  unfold InternalSerialize ByteSizeLong
  rw [List.length_append, List.length_append, List.length_append, List.length_append,
    length_writeString hW, length_writeDouble hW, length_writeDouble hW, length_writeDouble hW,
    length_writeDouble hW]
  omega

/-- **The buffer of `SerializeAsString` is filled exactly**: `ByteSizeLong`, by
which it is allocated, is the number of bytes `_InternalSerialize` writes, for
packets and for replies.

In the C++ code the sizes of nested messages are cached between the two
functions. They are functions of the message here, which is the same as long
as nobody changes it in between. -/
theorem buffers_filled (packet : ClientPacket F) (stats : ServerStatistic F) :
    (packet.SerializeAsString W).length = packet.ByteSizeLong W
      ∧ (stats.SerializeAsString W.toRuntime).length = stats.ByteSizeLong W := by
  constructor
  · have htype : (if packet.type = 0 then [] else W.WriteEnumToArray 1 packet.type).length
        = if packet.type = 0 then 0 else 1 + W.EnumSize packet.type := by
      split_ifs
      · rfl
      · rw [hW.writeEnum, hW.enumSize, List.length_cons, Nat.add_comm]
    obtain ⟨type, data⟩ := packet
    unfold ClientPacket.SerializeAsString ClientPacket.InternalSerialize
      ClientPacket.ByteSizeLong
    rw [List.length_append, htype, Nat.add_comm]
    cases data with
    | none => rfl
    | some data =>
      rw [Option.elim_some, Option.elim_some, length_writeMessage hW,
        ClientPacket.Data.length_serialize hW]
  · unfold ServerStatistic.SerializeAsString ServerStatistic.ByteSizeLong
    induction stats.client with
    | nil => rfl
    | cons e client ih =>
      rw [List.flatMap_cons, List.length_append, ih, length_writeMessage hW,
        ServerStatistic.Statistic.length_serialize hW, List.length_cons, List.map_cons,
        List.sum_cons]
      omega

end ByteSize

/-! ## Reading is merging

Each field that was written is read into its place, and one that was left out leaves
what was there. Together that is `MergeFrom`, which is generated code as well. -/

namespace ClientPacket

/-- **A packet that the types of its fields can hold.**

The fields of the source are `int32` and `int64`; a number outside would be
another one on the wire. -/
structure Fits (packet : ClientPacket F) : Prop where
  /-- An enumeration has 32 bits. -/
  type : -2 ^ 31 ≤ packet.type ∧ packet.type < 2 ^ 31
  /-- An `int64` has 64. -/
  timestamp : ∀ data, packet.data = some data →
    -2 ^ 63 ≤ data.timestamp ∧ data.timestamp < 2 ^ 63

/-- Its `uuid`, if it has one, is well-formed. -/
def Verified (R : Runtime F) (packet : ClientPacket F) : Prop :=
  ∀ data, packet.data = some data → R.VerifyUTF8 data.uuid = true

section Lawful

variable {W} {At : W.Stream → List (List UInt8) → Prop} {double : F → List UInt8} {maxSize : ℕ}
  (hW : W.Lawful At double maxSize)
include hW

omit [Double F] in
/-- A timestamp is read into its field, unless it was left out. -/
theorem Data.reads_timestamp {timestamp : Int} (hmin : -2 ^ 63 ≤ timestamp)
    (hmax : timestamp < 2 ^ 63) :
    W.Reads At (Data.field W.toRuntime)
      (if timestamp = 0 then [] else W.WriteInt64ToArray 2 timestamp)
      fun msg => { msg with timestamp := if timestamp = 0 then msg.timestamp else timestamp } := by
  split_ifs
  · exact Runtime.Reads.nil
  · rw [hW.writeInt64]
    refine hW.reads_field (b := 16) (by decide) fun fuel msg s rest outer hs => ?_
    obtain ⟨s', hread, hs'⟩ := hW.varint (toUnsigned_lt timestamp) hs
    have hfield : Data.field W.toRuntime fuel (UInt8.toNat 16) msg s
        = W.int64Field (fun val => { msg with timestamp := toSigned 64 val }) s := rfl
    refine ⟨s', ?_, hs'⟩
    rw [hfield, Runtime.int64Field, hread]
    show Field.next { msg with timestamp := toSigned 64 (toUnsigned timestamp) } s' = _
    rw [toSigned_toUnsigned le_rfl (by omega) (by omega)]

/-- **Reading what a `Data` was serialised to is merging it.** -/
theorem Data.reads_serialize {msg : Data F}
    (htime : -2 ^ 63 ≤ msg.timestamp ∧ msg.timestamp < 2 ^ 63)
    (huuid : W.VerifyUTF8 msg.uuid = true) (hlen : msg.uuid.length ≤ maxSize) :
    W.Reads At (Data.field W.toRuntime) (msg.InternalSerialize W)
      fun old => old.MergeFrom msg := by
  have huuid := ServerStatistic.reads_uuid hW.toLawful (Data.field W.toRuntime) Data.uuid
    (fun uuid msg => { msg with uuid := uuid }) (fun _ => rfl) (fun _ _ _ => rfl) huuid hlen
  have hx := ServerStatistic.reads_double hW.toLawful (Data.field W.toRuntime) (n := 3) (b := 25)
    (by decide) rfl Data.x (fun x msg => { msg with x := x }) (fun _ => rfl) (fun _ _ _ => rfl)
    msg.x
  have hy := ServerStatistic.reads_double hW.toLawful (Data.field W.toRuntime) (n := 4) (b := 33)
    (by decide) rfl Data.y (fun y msg => { msg with y := y }) (fun _ => rfl) (fun _ _ _ => rfl)
    msg.y
  exact huuid.append ((reads_timestamp hW htime.1 htime.2).append (hx.append hy))

/-- A `Data` whose `uuid` is not well-formed is turned down. -/
theorem Data.rejects_serialize {msg : Data F} (huuid : W.VerifyUTF8 msg.uuid = false)
    (hlen : msg.uuid.length ≤ maxSize) :
    W.Rejects At (Data.field W.toRuntime) (msg.InternalSerialize W) := by
  have hempty : msg.uuid.isEmpty = false := by
    refine Bool.eq_false_iff.mpr fun h => ?_
    rw [List.isEmpty_iff.mp h, hW.verify_nil] at huuid
    cases huuid
  unfold InternalSerialize
  rw [hempty, if_neg Bool.false_ne_true, hW.writeString]
  exact (hW.rejects_string (b := 10) (by decide) (fun uuid msg => { msg with uuid := uuid })
    Data.uuid (fun _ _ _ => rfl) huuid hlen).append _

/-- A type is read into its field, unless it was left out. -/
theorem reads_type {type : Int} (hmin : -2 ^ 31 ≤ type) (hmax : type < 2 ^ 31) :
    W.Reads At (field W.toRuntime) (if type = 0 then [] else W.WriteEnumToArray 1 type)
      fun msg : ClientPacket F => { msg with type := if type = 0 then msg.type else type } := by
  split_ifs
  · exact Runtime.Reads.nil
  · rw [hW.writeEnum]
    refine hW.reads_field (b := 8) (by decide) fun fuel msg s rest outer hs => ?_
    obtain ⟨s', hread, hs'⟩ := hW.varint (toUnsigned_lt type) hs
    have hfield : field W.toRuntime fuel (UInt8.toNat 8) msg s
        = W.enumField msg (fun val => { msg with type := toSigned 32 val }) s := rfl
    refine ⟨s', ?_, hs'⟩
    rw [hfield, Runtime.enumField, hread]
    show Field.next { msg with type := toSigned 32 (toUnsigned type) } s' = _
    rw [toSigned_toUnsigned (by decide) (by omega) (by omega)]

/-- A `uuid` is no longer than its `Data`. -/
theorem Data.length_uuid_le (msg : Data F) :
    msg.uuid.length ≤ (msg.InternalSerialize W).length := by
  unfold InternalSerialize
  rw [List.length_append, hW.writeString]
  cases msg.uuid with
  | nil => exact Nat.zero_le _
  | cons b bs =>
    rw [List.isEmpty_cons, if_neg Bool.false_ne_true, List.length_cons, List.length_append,
      List.length_cons, List.length_append, List.length_cons]
    omega

/-- A `Data` is no longer than its packet. -/
theorem length_data_le (type : Int) (data : Data F) :
    (data.InternalSerialize W).length
      ≤ (SerializeAsString W ⟨type, some data⟩).length := by
  unfold SerializeAsString InternalSerialize
  rw [List.length_append, Option.elim_some, hW.writeMessage, List.length_cons, List.length_append]
  omega

/-- **Reading what a packet was serialised to is merging it**, into whatever
was read before.

The message it is read into is arbitrary, so the statement can be used again
for the next packet. -/
theorem reads_serialize {packet : ClientPacket F} (hfits : packet.Fits)
    (hutf : packet.Verified W.toRuntime) (hlen : (packet.SerializeAsString W).length ≤ maxSize) :
    W.Reads (Runtime.Shallow At) (field W.toRuntime) (packet.SerializeAsString W)
      fun old => old.MergeFrom packet := by
  obtain ⟨type, data⟩ := packet
  have htype := (reads_type (F := F) hW hfits.type.1 hfits.type.2).shallow
  cases data with
  | none => exact htype.append Runtime.Reads.nil
  | some data =>
    have hbody := (length_data_le hW type data).trans hlen
    have hdata := Data.reads_serialize hW (hfits.timestamp data rfl) (hutf data rfl)
      ((Data.length_uuid_le hW data).trans hbody)
    have hmessage : W.Reads _ (field W.toRuntime) _ _ := hW.reads_message (b := 18) (by decide)
      (fun data msg => { msg with data := some data })
      (fun msg => msg.data.getD (Data.default F)) (fun _ _ _ => rfl) hdata hbody
    have hwrite := hW.writeMessage 2 (data.InternalSerialize W)
    unfold SerializeAsString InternalSerialize
    rw [Option.elim_some, hwrite]
    exact htype.append hmessage

/-- A packet whose `uuid` is not well-formed is turned down. -/
theorem rejects_serialize {packet : ClientPacket F} (hfits : packet.Fits)
    (hutf : ¬ packet.Verified W.toRuntime)
    (hlen : (packet.SerializeAsString W).length ≤ maxSize) :
    W.Rejects (Runtime.Shallow At) (field W.toRuntime) (packet.SerializeAsString W) := by
  obtain ⟨type, data⟩ := packet
  have htype := (reads_type (F := F) hW hfits.type.1 hfits.type.2).shallow
  cases data with
  | none => exact absurd nofun hutf
  | some data =>
    have hbody := (length_data_le hW type data).trans hlen
    have huuid : W.VerifyUTF8 data.uuid = false :=
      Bool.of_not_eq_true fun h => hutf fun d hd => Option.some.inj hd ▸ h
    have hdata := Data.rejects_serialize hW huuid ((Data.length_uuid_le hW data).trans hbody)
    have hmessage : W.Rejects _ (field W.toRuntime) _ := hW.rejects_message (b := 18) (by decide)
      (fun data msg => { msg with data := some data })
      (fun msg => msg.data.getD (Data.default F)) (fun _ _ _ => rfl) hdata hbody
    have hwrite := hW.writeMessage 2 (data.InternalSerialize W)
    unfold SerializeAsString InternalSerialize
    rw [Option.elim_some, hwrite]
    exact htype.rejects hmessage

/-- **Packets written one after another are parsed to their merge.** They are
accepted exactly if every `uuid` among them is well-formed.

A protobuf message has no end marker: two of them in a row are one. That is
why a connection has to keep messages apart. -/
theorem parse_concat_iff {packets : List (ClientPacket F)} (hfits : ∀ p ∈ packets, p.Fits)
    (hlen : (packets.flatMap (SerializeAsString W)).length ≤ maxSize) :
    ((ParseFromString W.toRuntime (packets.flatMap (SerializeAsString W))).1 = true
        ↔ ∀ p ∈ packets, p.Verified W.toRuntime)
      ∧ ((∀ p ∈ packets, p.Verified W.toRuntime)
        → (ParseFromString W.toRuntime (packets.flatMap (SerializeAsString W))).2
          = packets.foldl MergeFrom {}) := by
  have hparts : ∀ p ∈ packets, (p.SerializeAsString W).length ≤ maxSize := by
    intro p hp
    obtain ⟨before, after, rfl⟩ := List.append_of_mem hp
    rw [List.flatMap_append, List.flatMap_cons, List.length_append, List.length_append] at hlen
    omega
  have hreads : ∀ l : List (ClientPacket F), (∀ p ∈ l, p ∈ packets) →
      (∀ p ∈ l, p.Verified W.toRuntime) →
      W.Reads (Runtime.Shallow At) (field W.toRuntime) (l.flatMap (SerializeAsString W))
        fun old => l.foldl MergeFrom old := by
    intro l
    induction l with
    | nil => exact fun _ _ => Runtime.Reads.nil
    | cons p l ih =>
      intro hmem hutf
      obtain ⟨hp, hmem⟩ := List.forall_mem_cons.mp hmem
      obtain ⟨hpu, hutf⟩ := List.forall_mem_cons.mp hutf
      exact (reads_serialize hW (hfits p hp) hpu (hparts p hp)).append (ih hmem hutf)
  have hmerge := fun hutf =>
    hW.parseFromString_reads (hreads packets (fun _ h => h) hutf) ({} : ClientPacket F)
  refine ⟨⟨fun htrue => ?_, fun hutf => congrArg Prod.fst (hmerge hutf)⟩,
    fun hutf => congrArg Prod.snd (hmerge hutf)⟩
  by_contra hbad
  -- the packets before the first that is not well-formed are read
  obtain ⟨before, p, after, hsplit, hbefore, hp⟩ :
      ∃ before p after, packets = before ++ p :: after
        ∧ (∀ q ∈ before, q.Verified W.toRuntime) ∧ ¬ p.Verified W.toRuntime := by
    clear hfits hlen hparts hreads hmerge htrue
    induction packets with
    | nil => exact absurd (List.forall_mem_nil _) hbad
    | cons q packets ih =>
      by_cases hq : q.Verified W.toRuntime
      · obtain ⟨before, p, after, rfl, hbefore, hp⟩ :=
          ih fun h => hbad (List.forall_mem_cons.mpr ⟨hq, h⟩)
        exact ⟨q :: before, p, after, rfl, List.forall_mem_cons.mpr ⟨hq, hbefore⟩, hp⟩
      · exact ⟨[], q, packets, rfl, List.forall_mem_nil _, hq⟩
  subst hsplit
  have hmem : p ∈ before ++ p :: after := List.mem_append_right _ List.mem_cons_self
  have hrejects := (hreads before (fun q hq => List.mem_append_left _ hq) hbefore).rejects
    ((rejects_serialize hW (hfits p hmem) hp (hparts p hmem)).append
      (after.flatMap (SerializeAsString W)))
  have hfalse := hW.parseFromString_rejects hrejects ({} : ClientPacket F)
  rw [List.flatMap_append, List.flatMap_cons] at htrue
  exact Bool.false_ne_true (hfalse.symm.trans htrue)

/-- A packet that has been over the wire: a zero, of either sign, comes back as
the default. -/
def Data.received (data : Data F) : Data F where
  uuid := data.uuid
  timestamp := data.timestamp
  x := ServerStatistic.received data.x
  y := ServerStatistic.received data.y

/-- **A packet that was written is read back.** -/
theorem parse_serialize {packet : ClientPacket F} (hfits : packet.Fits)
    (hutf : packet.Verified W.toRuntime) (hlen : (packet.SerializeAsString W).length ≤ maxSize) :
    ParseFromString W.toRuntime (packet.SerializeAsString W)
      = (true, ⟨packet.type, packet.data.map Data.received⟩) := by
  have hmerge := hW.parseFromString_reads (reads_serialize hW hfits hutf hlen) {}
  refine hmerge.trans (congrArg (Prod.mk true) ?_)
  obtain ⟨type, data⟩ := packet
  have htype : (if type = 0 then DATA else type) = type := by
    split_ifs with h
    · exact h.symm
    · rfl
  cases data with
  | none =>
    show (⟨if type = 0 then DATA else type, none⟩ : ClientPacket F) = ⟨type, none⟩
    rw [htype]
  | some data =>
    have huuid : (if data.uuid.isEmpty then [] else data.uuid) = data.uuid := by
      cases data.uuid <;> rfl
    have htime : (if data.timestamp = 0 then 0 else data.timestamp) = data.timestamp := by
      split_ifs with h
      · exact h.symm
      · rfl
    have hdata : (Data.default F).MergeFrom data = data.received := by
      unfold Data.MergeFrom Data.received Data.default
      dsimp only
      rw [huuid, htime]
      rfl
    show (⟨if type = 0 then DATA else type, some ((Data.default F).MergeFrom data)⟩ :
      ClientPacket F) = ⟨type, some data.received⟩
    rw [htype, hdata]

end Lawful

end ClientPacket

/-! ## A runtime for the doubles of the client -/

/-- Doubles go over the wire as their bits. -/
def binary64Writer : Writer Binary64 :=
  .reference (fun x => x.bits.toNat) fun n => ⟨n.toUInt64⟩

theorem binary64Writer_lawful :
    binary64Writer.Lawful Reference.At binary64Bytes Reference.maxSize :=
  Writer.reference_lawful (fun x => by simp) fun x => x.bits.toNat_lt

/-- In particular a packet with all its fields, in which the length of the data is
itself written and counted, and a reply with an entry for each of two clients. -/
theorem buffers_filled_one :
    ((⟨ClientPacket.DATA, some ⟨[97], 17040672000000000, ⟨1⟩, ⟨2⟩⟩⟩ :
        ClientPacket Binary64).SerializeAsString binary64Writer).length
      = (⟨ClientPacket.DATA, some ⟨[97], 17040672000000000, ⟨1⟩, ⟨2⟩⟩⟩ :
        ClientPacket Binary64).ByteSizeLong binary64Writer
      ∧ ((⟨[⟨[97], ⟨1⟩, ⟨2⟩, ⟨3⟩, ⟨4⟩⟩, ⟨[98], ⟨0⟩, ⟨0⟩, ⟨5⟩, ⟨6⟩⟩]⟩ :
        ServerStatistic Binary64).SerializeAsString binary64Writer.toRuntime).length
        = (⟨[⟨[97], ⟨1⟩, ⟨2⟩, ⟨3⟩, ⟨4⟩⟩, ⟨[98], ⟨0⟩, ⟨0⟩, ⟨5⟩, ⟨6⟩⟩]⟩ :
        ServerStatistic Binary64).ByteSizeLong binary64Writer :=
  buffers_filled binary64Writer_lawful _ _

/-- In particular a request with a packet after it whose `uuid` is no UTF-8. -/
theorem ClientPacket.parse_concat_iff_two :
    (ClientPacket.ParseFromString binary64Writer.toRuntime
      (([⟨ClientPacket.STATISTICS, none⟩, ⟨ClientPacket.DATA, some ⟨[0xFF], 0, ⟨1⟩, ⟨1⟩⟩⟩] :
        List (ClientPacket Binary64)).flatMap
          (ClientPacket.SerializeAsString binary64Writer))).1 = false := by
  refine Bool.of_not_eq_true fun h => ?_
  have hfits : ∀ p ∈ ([⟨ClientPacket.STATISTICS, none⟩,
      ⟨ClientPacket.DATA, some ⟨[0xFF], 0, ⟨1⟩, ⟨1⟩⟩⟩] : List (ClientPacket Binary64)), p.Fits := by
    intro p hp
    rcases List.mem_pair.mp hp with rfl | rfl
    · exact ⟨by decide, fun _ h => nomatch h⟩
    · exact ⟨by decide, fun data hdata => Option.some.inj hdata ▸ by decide⟩
  have hverified := (ClientPacket.parse_concat_iff binary64Writer_lawful hfits
    (by decide +kernel)).1.mp h
    _ (List.mem_cons_of_mem _ List.mem_cons_self) _ rfl
  revert hverified
  decide
