import TZ.Messages
import TZ.Protobuf

/-!
# The generated classes

What `tz.pb.cc` does with bytes: the `switch` of every `_InternalParse`, and
`_InternalSerialize` of the classes that are sent as replies. A field that
arrives is stored in the message at once, so a message that is turned down
keeps the fields that came before the failure – and, of a string that is not
UTF-8, the string itself. Only a message that is accepted is sure to have a
well-formed `uuid` (`ClientPacket.ParseFromString_verified`).

The order of the statements in a `switch` is kept, down to whether a pointer is checked
before or after a field is assigned. For a message that is accepted it makes no
difference. For one that is turned down it decides what is left of it, and since the
server acts on what is left (`TZ.Rejected`), it is observable.
-/

open Protobuf

variable {F : Type} [Double F] (R : Runtime F)

/-- The conversion of a `uint64` to a signed type of so many bits. -/
def toSigned (width val : ℕ) : Int := (val : Int).bmod (2 ^ width)

/-! ## Parsing

A field number is matched with the low byte of its tag, as the code does. A field with
the right number and the wrong wire type is unknown, and skipped. -/

namespace ClientPacket

omit [Double F] in
/-- The `switch` of `ClientPacket_Data::_InternalParse`. -/
def Data.field (_ tag : ℕ) (msg : Data F) (s : R.Stream) : Field (Data F) R.Stream :=
  match tag / 8 with
  | 1 => if tag % 256 = 10 then R.stringField (fun uuid => { msg with uuid := uuid }) msg.uuid s
    else .unusual
  | 2 =>
    if tag % 256 = 16 then R.int64Field (fun val => { msg with timestamp := toSigned 64 val }) s
    else .unusual
  | 3 => if tag % 256 = 25 then R.doubleField (fun x => { msg with x := x }) s else .unusual
  | 4 => if tag % 256 = 33 then R.doubleField (fun y => { msg with y := y }) s else .unusual
  | _ => .unusual

omit [Double F] in
/-- `ClientPacket_Data::_InternalParse`. -/
def Data.InternalParse : ℕ → Data F → R.Stream → Data F × Option R.Stream :=
  R.parseFields (Data.field R)

/-- The `switch` of `ClientPacket::_InternalParse`. `_internal_mutable_data`
sets the has-bit before `data` is parsed. -/
def field (fuel tag : ℕ) (msg : ClientPacket F) (s : R.Stream) :
    Field (ClientPacket F) R.Stream :=
  match tag / 8 with
  | 1 =>
    if tag % 256 = 8 then R.enumField msg (fun val => { msg with type := toSigned 32 val }) s
    else .unusual
  | 2 =>
    if tag % 256 = 18 then R.messageField (fun data => { msg with data := some data })
      (R.ParseMessage (Data.InternalParse R fuel) (msg.data.getD (Data.default F)) s)
    else .unusual
  | _ => .unusual

/-- `ClientPacket::_InternalParse`. -/
def InternalParse : ℕ → ClientPacket F → R.Stream → ClientPacket F × Option R.Stream :=
  R.parseFields (field R)

/-- **`tz::ClientPacket::ParseFromString`**, of a new message. -/
def ParseFromString (data : Bytes) : Bool × ClientPacket F :=
  R.ParseFromString (InternalParse R) {} data

end ClientPacket

namespace ServerStatistic

omit [Double F] in
/-- The `switch` of `ServerStatistic_Statistic::_InternalParse`. -/
def Statistic.field (_ tag : ℕ) (msg : Statistic F) (s : R.Stream) :
    Field (Statistic F) R.Stream :=
  match tag / 8 with
  | 1 => if tag % 256 = 10 then R.stringField (fun uuid => { msg with uuid := uuid }) msg.uuid s
    else .unusual
  | 2 => if tag % 256 = 17 then R.doubleField (fun x => { msg with x1 := x }) s else .unusual
  | 3 => if tag % 256 = 25 then R.doubleField (fun y => { msg with y1 := y }) s else .unusual
  | 4 => if tag % 256 = 33 then R.doubleField (fun x => { msg with x5 := x }) s else .unusual
  | 5 => if tag % 256 = 41 then R.doubleField (fun y => { msg with y5 := y }) s else .unusual
  | _ => .unusual

omit [Double F] in
/-- `ServerStatistic_Statistic::_InternalParse`. -/
def Statistic.InternalParse : ℕ → Statistic F → R.Stream → Statistic F × Option R.Stream :=
  R.parseFields (Statistic.field R)

/-- The `switch` of `ServerStatistic::_InternalParse`. -/
def field (fuel tag : ℕ) (msg : ServerStatistic F) (s : R.Stream) :
    Field (ServerStatistic F) R.Stream :=
  match tag / 8 with
  | 1 =>
    if tag % 256 = 10 then R.messageField (fun client => { msg with client := client })
      (R.repeated (Statistic.InternalParse R) 10 (Statistic.default F) fuel msg.client s)
    else .unusual
  | _ => .unusual

/-- `ServerStatistic::_InternalParse`. -/
def InternalParse : ℕ → ServerStatistic F → R.Stream → ServerStatistic F × Option R.Stream :=
  R.parseFields (field R)

/-- **`tz::ServerStatistic::ParseFromString`**, of a new message. -/
def ParseFromString (data : Bytes) : Bool × ServerStatistic F :=
  R.ParseFromString (InternalParse R) {} data

/-! ## Serialising

Only the reply is written by the server. What the clients write is in
`TZ.Serializing`. -/

/-- A field of type `double`, which is left out if it is zero. -/
def writeDouble (n : ℕ) (x : F) : Bytes :=
  if Double.isZero x then [] else R.WriteDoubleToArray n x

/-- `ServerStatistic_Statistic::_InternalSerialize`. A string that is not UTF-8
is reported in the log and written all the same. -/
def Statistic.InternalSerialize (msg : Statistic F) : Bytes :=
  (if msg.uuid.isEmpty then [] else R.WriteStringMaybeAliased 1 msg.uuid)
    ++ (writeDouble R 2 msg.x1 ++ (writeDouble R 3 msg.y1
      ++ (writeDouble R 4 msg.x5 ++ writeDouble R 5 msg.y5)))

/-- **`tz::ServerStatistic::SerializeAsString`.** -/
def SerializeAsString (msg : ServerStatistic F) : Bytes :=
  msg.client.flatMap fun client => R.InternalWriteMessage 1 (client.InternalSerialize R)

end ServerStatistic

/-! ## What a field that is read was -/

section Next

variable {R} {fuel tag : ℕ} {s s' : R.Stream}

omit [Double F] in
theorem ClientPacket.Data.field_next {msg msg' : Data F}
    (h : Data.field R fuel tag msg s = .next msg' s') :
    R.stringField (fun uuid => { msg with uuid := uuid }) msg.uuid s = .next msg' s'
      ∨ R.int64Field (fun val => { msg with timestamp := toSigned 64 val }) s = .next msg' s'
      ∨ ∃ set : F → Data F, (∀ x, (set x).uuid = msg.uuid)
        ∧ R.doubleField set s = .next msg' s' := by
  unfold field at h
  split at h
  · split_ifs at h
    exact Or.inl h
  · split_ifs at h
    exact Or.inr (Or.inl h)
  · split_ifs at h
    exact Or.inr (Or.inr ⟨fun x => { msg with x := x }, fun _ => rfl, h⟩)
  · split_ifs at h
    exact Or.inr (Or.inr ⟨fun y => { msg with y := y }, fun _ => rfl, h⟩)
  · cases h

theorem ClientPacket.field_next {msg msg' : ClientPacket F}
    (h : field R fuel tag msg s = .next msg' s') :
    R.enumField msg (fun val => { msg with type := toSigned 32 val }) s = .next msg' s'
      ∨ R.messageField (fun data => { msg with data := some data })
        (R.ParseMessage (Data.InternalParse R fuel) (msg.data.getD (Data.default F)) s)
          = .next msg' s' := by
  unfold field at h
  split at h
  · split_ifs at h
    exact Or.inl h
  · split_ifs at h
    exact Or.inr h
  · cases h

omit [Double F] in
theorem ServerStatistic.Statistic.field_next {msg msg' : Statistic F}
    (h : Statistic.field R fuel tag msg s = .next msg' s') :
    R.stringField (fun uuid => { msg with uuid := uuid }) msg.uuid s = .next msg' s'
      ∨ ∃ set : F → Statistic F, R.doubleField set s = .next msg' s' := by
  unfold field at h
  split at h
  · split_ifs at h
    exact Or.inl h
  iterate 4
    · split_ifs at h
      exact Or.inr ⟨_, h⟩
  · cases h

theorem ServerStatistic.field_next {msg msg' : ServerStatistic F}
    (h : field R fuel tag msg s = .next msg' s') :
    (R.repeated (Statistic.InternalParse R) 10 (Statistic.default F) fuel msg.client s).2
      = some s' := by
  unfold field at h
  split at h
  · split_ifs at h
    exact (Runtime.messageField_next h).1
  · cases h

end Next

/-! ## The loops end

Each class in turn, by the rules of `TZ.Protobuf`: a field that is read takes bytes
away, and the parser of a nested message does not depend on its fuel either. -/

section Settled

variable {R} {left : R.Stream → ℕ}

omit [Double F] in
theorem ClientPacket.Data.settled (hR : R.Consumes left) :
    Runtime.Settled left (ClientPacket.Data.InternalParse R) := by
  refine hR.parseFields fun fuel fuel' tag msg s _ _ => ⟨rfl, fun msg' s' h => ?_⟩
  rcases field_next h with h | h | ⟨set, -, h⟩
  · exact hR.stringField h
  · exact hR.int64Field h
  · exact hR.doubleField h

theorem ClientPacket.settled (hR : R.Consumes left) :
    Runtime.Settled left (ClientPacket.InternalParse R) := by
  refine hR.parseFields fun fuel fuel' tag msg s h h' => ?_
  have hdata := hR.parseMessage (Data.settled hR) (msg.data.getD (Data.default F)) h.le h'.le
  refine ⟨?_, fun msg' s' hnext => ?_⟩
  · unfold field
    rw [hdata.1]
  · rcases field_next hnext with hnext | hnext
    · exact hR.enumField hnext
    · exact (hdata.2 s' (Runtime.messageField_next hnext).1).le

omit [Double F] in
theorem ServerStatistic.Statistic.settled (hR : R.Consumes left) :
    Runtime.Settled left (ServerStatistic.Statistic.InternalParse R) := by
  refine hR.parseFields fun fuel fuel' tag msg s _ _ => ⟨rfl, fun msg' s' h => ?_⟩
  rcases field_next h with h | ⟨set, h⟩
  · exact hR.stringField h
  · exact hR.doubleField h

theorem ServerStatistic.settled (hR : R.Consumes left) :
    Runtime.Settled left (ServerStatistic.InternalParse R) := by
  refine hR.parseFields fun fuel fuel' tag msg s h h' => ?_
  have hclient := @Runtime.Consumes.repeated _ R left hR _ _ (Statistic.settled hR) 10
    (Statistic.default F) fuel fuel' msg.client s h h'
  refine ⟨?_, fun msg' s' hnext => hclient.2 s' (field_next hnext)⟩
  unfold field
  rw [hclient.1]

end Settled

/-! ## What is accepted is well-formed

A text is checked after it has been stored, so what is proved is about the end of the
parse and not about every moment of it. -/

section Verified

variable {R}

omit [Double F] in
theorem ClientPacket.Data.InternalParse_verified {fuel : ℕ} {msg : Data F} {s : R.Stream}
    (hmsg : R.VerifyUTF8 msg.uuid = true)
    (h : (Data.InternalParse R fuel msg s).2 ≠ none) :
    R.VerifyUTF8 (Data.InternalParse R fuel msg s).1.uuid = true := by
  refine Runtime.parseFields_keeps (P := fun msg => R.VerifyUTF8 msg.uuid = true) ?_ hmsg h
  intro fuel tag msg s msg' s' hnext hmsg
  rcases field_next hnext with hnext | hnext | ⟨set, hset, hnext⟩
  · obtain ⟨str, hstr, -, rfl⟩ := Runtime.stringField_next hnext
    exact hstr
  · obtain ⟨val, -, rfl⟩ := Runtime.int64Field_next hnext
    exact hmsg
  · cases hnext
    show R.VerifyUTF8 (set _).uuid = true
    rw [hset]
    exact hmsg

/-- **A message that is accepted has a well-formed `uuid`.**

The invariant of the loop is that the text it has read so far is well-formed,
if it has not failed. -/
theorem ClientPacket.ParseFromString_verified (hnil : R.VerifyUTF8 [] = true) {bytes : Bytes}
    (h : (ParseFromString R bytes).1 = true) :
    ∀ data, (ParseFromString R bytes).2.data = some data → R.VerifyUTF8 data.uuid = true := by
  obtain ⟨hsome, hmsg⟩ := Runtime.parseFromString_true h
  rw [ParseFromString, hmsg]
  refine Runtime.parseFields_keeps
    (P := fun msg => ∀ data, msg.data = some data → R.VerifyUTF8 data.uuid = true) ?_ nofun hsome
  intro fuel tag msg s msg' s' hnext hmsg data hdata
  rcases field_next hnext with hnext | hnext
  · obtain ⟨val, -, rfl⟩ := Runtime.enumField_next hnext
    exact hmsg data hdata
  · -- what was in the field before, if anything, was well-formed
    obtain ⟨hptr, rfl⟩ := Runtime.messageField_next hnext
    obtain ⟨s₁, -, hparsed, hfst⟩ := Runtime.parseMessage_some hptr
    cases hdata
    rw [hfst]
    refine Data.InternalParse_verified ?_ hparsed
    cases hold : msg.data with
    | none => exact hnil
    | some old => exact hmsg old hold

end Verified

/-! ## A runtime for the doubles of the server

With it the statements can be evaluated on bytes. -/

/-- Doubles go over the wire as their bits. -/
def binary64 : Runtime Binary64 :=
  .reference (fun x => x.bits.toNat) fun n => ⟨n.toUInt64⟩

/-- The bytes of a double. -/
def binary64Bytes (x : Binary64) : List UInt8 := Wire.fixed 8 x.bits.toNat

theorem binary64_lawful :
    binary64.Lawful Reference.At binary64Bytes Reference.maxSize :=
  Reference.lawful (fun x => by simp) fun x => x.bits.toNat_lt

/-- **What the server receives is parsed to its end**: the loops never run out of
fuel. -/
theorem binary64_parses {data : Bytes} {fuel : ℕ} (h : data.length < fuel) :
    ClientPacket.InternalParse binary64 fuel {} (binary64.start data)
        = ClientPacket.InternalParse binary64 (data.length + 1) {} (binary64.start data)
      ∧ ServerStatistic.InternalParse binary64 fuel {} (binary64.start data)
        = ServerStatistic.InternalParse binary64 (data.length + 1) {} (binary64.start data) := by
  have hR : binary64.Consumes Reference.left := Reference.consumes _ _
  exact ⟨hR.parseFromString (ClientPacket.settled hR) {} h,
    hR.parseFromString (ServerStatistic.settled hR) {} h⟩
