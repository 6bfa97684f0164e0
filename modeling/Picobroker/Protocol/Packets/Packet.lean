import Picobroker.Protocol.Packets.Subscribe

/-! The packet enumeration and its dispatch. -/
namespace Picobroker
open Rust

variable {T P : ℕ}

/-- `Packet<MAX_TOPIC_NAME_LENGTH, MAX_PAYLOAD_SIZE>`. -/
inductive Packet (T P : ℕ) where
  | connect (packet : ConnectPacket T P)
  | connAck (packet : ConnAckPacket)
  | publish (packet : PublishPacket T P)
  | pubAck (packet : PubAckPacket)
  | pubRec (packet : PubRecPacket)
  | pubRel (packet : PubRelPacket)
  | pubComp (packet : PubCompPacket)
  | subscribe (packet : SubscribePacket T)
  | subAck (packet : SubAckPacket)
  | unsubscribe (packet : UnsubscribePacket T)
  | unsubAck (packet : UnsubAckPacket)
  | pingReq (packet : PingReqPacket)
  | pingResp (packet : PingRespPacket)
  | disconnect (packet : DisconnectPacket)
  deriving DecidableEq, Repr

namespace PacketType

/-- `PACKET_FLAGS` of the kinds that have one. -/
def packetFlags : PacketType → UInt8
  | pubRel | subscribe | unsubscribe => 0b0010
  | _ => 0b0000

end PacketType

namespace Packet

/-- `Packet::packet_type`. -/
def packetType : Packet T P → PacketType
  | connect _ => .connect
  | connAck _ => .connAck
  | publish _ => .publish
  | pubAck _ => .pubAck
  | pubRec _ => .pubRec
  | pubRel _ => .pubRel
  | pubComp _ => .pubComp
  | subscribe _ => .subscribe
  | subAck _ => .subAck
  | unsubscribe _ => .unsubscribe
  | unsubAck _ => .unsubAck
  | pingReq _ => .pingReq
  | pingResp _ => .pingResp
  | disconnect _ => .disconnect

def encode : Packet T P → Proc Bytes ProtocolError ℕ
  | connect packet => packet.encode
  | connAck packet => packet.encode
  | publish packet => packet.encode
  | pubAck packet => packet.encode
  | pubRec packet => packet.encode
  | pubRel packet => packet.encode
  | pubComp packet => packet.encode
  | subscribe packet => packet.encode
  | subAck packet => packet.encode
  | unsubscribe packet => packet.encode
  | unsubAck packet => packet.encode
  | pingReq packet => packet.encode
  | pingResp packet => packet.encode
  | disconnect packet => packet.encode

/-- `Packet::decode`, with `usize` of `w` bits. An empty slice panics on `bytes[0]`. -/
def decode (w : ℕ) (bytes : Bytes) : Outcome Unit ProtocolError (Packet T P) :=
  Proc.run (do
    let first ← index bytes 0
    let typeByte := first >>> 4
    match PacketType.from' typeByte with
    | .reserved => Proc.fail (.invalidPacketType typeByte)
    | .connect => do pure (connect (← Proc.call (ConnectPacket.decode w bytes)))
    | .connAck => do pure (connAck (← ConnAckPacket.decode w bytes))
    | .publish => do pure (publish (← Proc.call (PublishPacket.decode w bytes)))
    | .pubAck => do pure (pubAck (← PubAckPacket.decode w bytes))
    | .pubRec => do pure (pubRec (← PubRecPacket.decode w bytes))
    | .pubRel => do pure (pubRel (← PubRelPacket.decode w bytes))
    | .pubComp => do pure (pubComp (← PubCompPacket.decode w bytes))
    | .subscribe => do pure (subscribe (← Proc.call (SubscribePacket.decode w bytes)))
    | .subAck => do pure (subAck (← SubAckPacket.decode w bytes))
    | .unsubscribe => do pure (unsubscribe (← Proc.call (UnsubscribePacket.decode w bytes)))
    | .unsubAck => do pure (unsubAck (← UnsubAckPacket.decode w bytes))
    | .pingReq => do pure (pingReq (← PingReqPacket.decode w bytes))
    | .pingResp => do pure (pingResp (← PingRespPacket.decode w bytes))
    | .disconnect => do pure (disconnect (← DisconnectPacket.decode w bytes))
    | .reserved2 => Proc.fail (.invalidPacketType typeByte)) ()

end Packet

end Picobroker
