import TZ.Basic

/-!
# The messages

The message types of `protobuf/tz.proto`, as the generated classes of
`tz.pb.h` hold them: a field that was never set has its default, and the
optional `data` of a packet is a pointer that may be null, which is what its
has-bit says. An enumeration of proto3 is open: `type` holds any integer
that arrived, whether or not it is one of the names declared for it.
-/

namespace ClientPacket

/-- `tz::ClientPacket::Data`. -/
structure Data (F : Type) where
  /-- `string uuid = 1`. -/
  uuid : Bytes
  /-- `int64 timestamp = 2`. -/
  timestamp : Int
  /-- `double x = 3`. -/
  x : F
  /-- `double y = 4`. -/
  y : F
  deriving DecidableEq

/-- `ClientPacket_PacketType::DATA`. -/
def DATA : Int := 0

/-- `ClientPacket_PacketType::STATISTICS`. -/
def STATISTICS : Int := 1

/-- A `Data` whose fields were never set. -/
def Data.default (F : Type) [Double F] : Data F := ⟨[], 0, Double.zero, Double.zero⟩

end ClientPacket

/-- `tz::ClientPacket`. -/
structure ClientPacket (F : Type) where
  /-- `PacketType type = 1`. -/
  type : Int := ClientPacket.DATA
  /-- `optional Data data = 2`. -/
  data : Option (ClientPacket.Data F) := none
  deriving DecidableEq

namespace ServerStatistic

/-- `tz::ServerStatistic::Statistic`. -/
structure Statistic (F : Type) where
  /-- `string uuid = 1`. -/
  uuid : Bytes
  /-- `double x1 = 2`. -/
  x1 : F
  /-- `double y1 = 3`. -/
  y1 : F
  /-- `double x5 = 4`. -/
  x5 : F
  /-- `double y5 = 5`. -/
  y5 : F
  deriving DecidableEq

/-- A `Statistic` whose fields were never set. -/
def Statistic.default (F : Type) [Double F] : Statistic F :=
  ⟨[], Double.zero, Double.zero, Double.zero, Double.zero⟩

end ServerStatistic

/-- `tz::ServerStatistic`. -/
structure ServerStatistic (F : Type) where
  /-- `repeated Statistic client = 1`. -/
  client : List (ServerStatistic.Statistic F) := []
  deriving DecidableEq
