import TZ.Client

/-!
# What the clients send

A client started to send packets writes nothing but packets of its own, each
with its uuid, the time, and two coordinates (`Client.start_conforms`); one
started to ask writes nothing but its request. Both are short and hold only
well-formed text, so the server reads what was sent (`Client.parse_bytes`).

What a client sends is found from its program and not assumed of it. The program has
loops without an end, random numbers and a clock; all of these are answers of its
surroundings, and the conditions on the answers are the only assumptions
(`Client.Draws`). So the conclusion holds for every client of this kind, for however
long it runs.
-/

open Protobuf

variable {F : Type} [Double F]

namespace Client

/-! ## The packets of a client -/

/-- **A packet a sender sends**: it has the uuid of the client, the time, and two
coordinates.

The coordinates are any that may be drawn. That they are numbers is used only
where a row is stored. -/
structure Sends (drawn : F → Prop) (uuid : Uuid) (data : ClientPacket.Data F) : Prop where
  /-- The uuid. -/
  uuid : data.uuid = uuid.to_string
  /-- The time. -/
  timestamp : -2 ^ 63 ≤ data.timestamp ∧ data.timestamp < 2 ^ 63
  /-- A coordinate. -/
  x : drawn data.x
  /-- The other coordinate. -/
  y : drawn data.y

/-- The bytes of a packet. -/
def bytes (W : Writer F) (data : ClientPacket.Data F) : Bytes :=
  ClientPacket.SerializeAsString W ⟨ClientPacket.DATA, some data⟩

/-- A sender writes only packets of its own. -/
def Writing (W : Writer F) (drawn : F → Prop) (uuid : Uuid) : ClientCmd F → Prop
  | .write buffer => ∃ data, Sends drawn uuid data ∧ buffer = bytes W data
  | _ => True

/-- One that asks writes only its request. -/
def Asking (W : Writer F) : ClientCmd F → Prop
  | .write buffer => buffer = (request : ClientPacket F).SerializeAsString W
  | _ => True

/-- What a client relies on: times are numbers of 64 bits, and coordinates are
drawn. -/
def Draws (drawn : F → Prop) : (c : ClientCmd F) → c.Resp → Prop
  | .now, r => -2 ^ 63 ≤ r ∧ r < 2 ^ 63
  | .coordinate, r => drawn r
  | _, _ => True

variable {W : Writer F} {drawn : F → Prop} {uuid : Uuid}

omit [Double F] in
theorem catchSystem_conforms {α : Type} {pre : ClientCmd F → Prop}
    {post : (c : ClientCmd F) → c.Resp → Prop} {Q : α → Prop} {p : ClientProg F α}
    (hp : p.Conforms pre post Q) (what : String) : (catchSystem p what).Conforms pre post Q := by
  refine hp.tryCatch fun ex => ?_
  cases ex <;> trivial

/-- **`sendPacket` sends a packet of the client.** -/
theorem sendPacket_conforms :
    (sendPacket W uuid).Conforms (Writing W drawn uuid) (Draws drawn) (fun _ => True) := by
  refine ⟨trivial, fun timestamp htime => ⟨trivial, fun x hx => ⟨trivial, fun y hy => ?_⟩⟩⟩
  refine catchSystem_conforms ?_ _
  refine Prog.Conforms.bind (Q := fun _ => True) ⟨?_, fun r _ => .ofExcept fun _ _ => trivial⟩
    fun _ _ => trivial
  exact ⟨⟨uuid.to_string, timestamp, x, y⟩, ⟨rfl, htime, hx, hy⟩, rfl⟩

/-- **A sender sends nothing else.** -/
theorem start_conforms (n : ℕ) :
    (start W uuid n).Conforms (Writing W drawn uuid) (Draws drawn) (fun _ => True) := by
  have hnext : (nextSending : ClientProg F Int).Conforms (Writing W drawn uuid) (Draws drawn)
      (fun _ => True) := ⟨trivial, fun _ _ => ⟨trivial, fun _ _ => trivial⟩⟩
  have hdue : ∀ nextTime, (sendIfDue W uuid nextTime).Conforms (Writing W drawn uuid)
      (Draws drawn) (fun _ => True) := by
    intro nextTime
    refine ⟨trivial, fun now _ => ?_⟩
    show Prog.Conforms _ _ _ (if now ≥ nextTime then _ else _)
    split_ifs
    · exact sendPacket_conforms.bind fun _ _ => hnext
    · trivial
  have hloop : ∀ n nextTime, (sendLoop W uuid n nextTime).Conforms (Writing W drawn uuid)
      (Draws drawn) (fun _ => True) := by
    intro n
    induction n with
    | zero => exact fun _ => trivial
    | succ n ih =>
      intro nextTime
      refine (hdue nextTime).bind fun nextTime _ =>
        ⟨trivial, fun _ _ => ⟨trivial, fun needExit _ => ?_⟩⟩
      cases needExit with
      | true => trivial
      | false => exact ih nextTime
  exact hnext.bind fun nextTime _ => hloop n nextTime

/-- **One that asks sends one request.** -/
theorem getStatistics_conforms (to_string : F → Bytes) :
    (getStatistics W to_string).Conforms (Asking W) (Draws drawn) (fun _ => True) := by
  refine Prog.Conforms.bind (Q := fun _ => True) (catchSystem_conforms ?_ _) fun _ _ => trivial
  refine Prog.Conforms.bind (Q := fun _ => True) ⟨rfl, fun r _ => .ofExcept fun _ _ => trivial⟩
    fun _ _ => ⟨trivial, fun r _ => .ofExcept fun _ _ => trivial⟩

/-! ## What the server reads -/

section Lawful

variable {At : W.Stream → List (List UInt8) → Prop} {double : F → List UInt8} {maxSize : ℕ}

/-- The packet of a client is short. -/
theorem length_bytes_le (hW : W.Lawful At double maxSize) {data : ClientPacket.Data F}
    (h : Sends drawn uuid data) : (bytes W data).length ≤ 128 := by
  have huuid : data.uuid.length ≤ 48 := h.uuid ▸ uuid.length_to_string_le
  have hstring : W.StringSize data.uuid ≤ 49 := by
    have hvarint := Wire.length_varint_le (k := 0) (show data.uuid.length < 128 ^ 1 by omega)
    rw [hW.stringSize]
    omega
  have htime : W.Int64SizePlusOne data.timestamp ≤ 11 := by
    have hvarint := Wire.length_varint_le (k := 9)
      ((toUnsigned_lt data.timestamp).trans (by decide))
    rw [hW.int64Size]
    omega
  have hdata : (data.InternalSerialize W).length ≤ 79 := by
    rw [ClientPacket.Data.length_serialize hW]
    unfold ClientPacket.Data.ByteSizeLong
    split_ifs <;> omega
  have hsize := Wire.length_varint_le (k := 0)
    (show (data.InternalSerialize W).length < 128 ^ 1 by omega)
  have hbytes : (bytes W data).length
      = 1 + (Wire.varint (data.InternalSerialize W).length).length
        + (data.InternalSerialize W).length := by
    show (W.InternalWriteMessage 2 (data.InternalSerialize W)).length = _
    rw [hW.writeMessage, List.length_cons, List.length_append]
    omega
  rw [hbytes]
  omega

/-- **The server reads the packet that was sent.**

The round trip of `TZ.Serializing`, with its hypotheses discharged for these
packets: a uuid of ASCII characters, a time of 64 bits. -/
theorem parse_bytes (hW : W.Lawful At double maxSize) {data : ClientPacket.Data F}
    (h : Sends drawn uuid data) :
    ClientPacket.ParseFromString W.toRuntime (bytes W data)
      = (true, ⟨ClientPacket.DATA, some data.received⟩) := by
  have hfits : ClientPacket.Fits ⟨ClientPacket.DATA, some data⟩ :=
    ⟨show -2 ^ 31 ≤ (0 : Int) ∧ (0 : Int) < 2 ^ 31 by decide,
      fun d hd => Option.some.inj hd ▸ h.timestamp⟩
  refine ClientPacket.parse_serialize hW hfits (fun d hd => ?_)
    ((length_bytes_le hW h).trans hW.short_le)
  rw [← Option.some.inj hd, h.uuid]
  exact hW.verifyAscii fun b hb => (Uuid.mem_textFrom hb).2

/-- So what it reads of packets is known from their bytes. -/
theorem parse_map_bytes (hW : W.Lawful At double maxSize)
    {sent : List (ClientPacket.Data F)} (hsent : ∀ data ∈ sent, Sends drawn uuid data) :
    (sent.map (bytes W)).filterMap (fun buffer =>
      (ClientPacket.ParseFromString W.toRuntime buffer).2.data)
      = sent.map ClientPacket.Data.received := by
  rw [List.filterMap_map, ← List.filterMap_eq_map]
  refine List.filterMap_congr fun data hdata => ?_
  show (ClientPacket.ParseFromString W.toRuntime (bytes W data)).2.data = _
  rw [parse_bytes hW (hsent data hdata)]
  rfl

/-- Packets with the same bytes are read alike. -/
theorem received_of_bytes (hW : W.Lawful At double maxSize)
    {sent sent' : List (ClientPacket.Data F)} (hsent : ∀ data ∈ sent, Sends drawn uuid data)
    (hsent' : ∀ data ∈ sent', Sends drawn uuid data)
    (h : sent.map (bytes W) = sent'.map (bytes W)) :
    sent.map ClientPacket.Data.received = sent'.map ClientPacket.Data.received := by
  rw [← parse_map_bytes hW hsent, ← parse_map_bytes hW hsent', h]

/-- The server reads the request that was sent. -/
theorem parse_request (hW : W.Lawful At double maxSize) :
    ClientPacket.ParseFromString W.toRuntime ((request : ClientPacket F).SerializeAsString W)
      = (true, ⟨ClientPacket.STATISTICS, none⟩) := by
  have hfits : (request : ClientPacket F).Fits :=
    ⟨show -2 ^ 31 ≤ (1 : Int) ∧ (1 : Int) < 2 ^ 31 by decide, fun _ h => nomatch h⟩
  refine ClientPacket.parse_serialize hW hfits (fun _ h => nomatch h) (le_trans ?_ hW.short_le)
  show (W.WriteEnumToArray 1 1 ++ []).length ≤ 128
  have hvarint := Wire.length_varint_le (k := 9) ((toUnsigned_lt 1).trans (by decide))
  rw [List.append_nil, hW.writeEnum, List.length_cons]
  omega

/-- What the server reads of the client is the client's. -/
theorem Sends.cstr_received {data : ClientPacket.Data F} (h : Sends drawn uuid data) :
    cstr data.received.uuid = uuid.to_string := by
  show cstr data.uuid = _
  rw [h.uuid, uuid.cstr_to_string]

end Lawful

end Client
