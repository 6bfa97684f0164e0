import Picobroker.Rust.Word

/-! Errors, packet types and quality-of-service levels of the protocol. -/
namespace Picobroker
open Rust

inductive ProtocolError
  | bufferTooSmall (bufferSize : ℕ)
  | clientIdEmpty
  | clientIdLengthExceeded (maxLength actualLength : ℕ)
  | incompletePacket (available : ℕ)
  | invalidConnectFlags (flags : UInt8)
  | invalidConnectReturnCode (returnCode : UInt8)
  | invalidPacketLength (expected actual : ℕ)
  | invalidPacketType (packetType : UInt8)
  | invalidProtocolName
  | invalidSessionPresentFlag (flag : UInt8)
  | invalidUtf8String
  | missingPacketId
  | passwordLengthExceeded (maxLength actualLength : ℕ)
  | payloadTooLarge (maxSize actualSize : ℕ)
  | invalidQosLevel (level : UInt8)
  | topicEmpty
  | topicNameLengthExceeded (maxLength actualLength : ℕ)
  | unsupportedProtocolLevel (level : UInt8)
  | usernameLengthExceeded (maxLength actualLength : ℕ)
  deriving DecidableEq, Repr

inductive NetworkError
  | connectionClosed
  | readFailed
  | readWouldBlock
  | readTimedOut
  | readInterrupted
  | writeFailed
  | writeWouldBlock
  | writeTimedOut
  | writeInterrupted
  | flushFailed
  | acceptFailed
  | acceptWouldBlock
  | closeFailed
  deriving DecidableEq, Repr

inductive BrokerError
  | sessionAlreadyExists (sessionId : ℕ)
  | sessionNotFound (sessionId : ℕ)
  | sessionQueueFull (sessionId queueSize : ℕ)
  | sessionDisconnected (sessionId : ℕ)
  | maxSessionsReached (current max : ℕ)
  | maxSubscribersPerTopicReached (current max : ℕ)
  | maxTopicsReached (current max : ℕ)
  | network (error : NetworkError)
  | protocol (error : ProtocolError)
  | bufferFull
  deriving DecidableEq, Repr

inductive PacketType
  | reserved
  | connect
  | connAck
  | publish
  | pubAck
  | pubRec
  | pubRel
  | pubComp
  | subscribe
  | subAck
  | unsubscribe
  | unsubAck
  | pingReq
  | pingResp
  | disconnect
  | reserved2
  deriving DecidableEq, Repr

namespace PacketType

/-- `self as u8`. -/
def toU8 : PacketType → UInt8
  | reserved => 0
  | connect => 1
  | connAck => 2
  | publish => 3
  | pubAck => 4
  | pubRec => 5
  | pubRel => 6
  | pubComp => 7
  | subscribe => 8
  | subAck => 9
  | unsubscribe => 10
  | unsubAck => 11
  | pingReq => 12
  | pingResp => 13
  | disconnect => 14
  | reserved2 => 15

/-- The sixteen bytes that name a type. -/
def ofNibble : UInt8 → Option PacketType
  | 0 => some reserved
  | 1 => some connect
  | 2 => some connAck
  | 3 => some publish
  | 4 => some pubAck
  | 5 => some pubRec
  | 6 => some pubRel
  | 7 => some pubComp
  | 8 => some subscribe
  | 9 => some subAck
  | 10 => some unsubscribe
  | 11 => some unsubAck
  | 12 => some pingReq
  | 13 => some pingResp
  | 14 => some disconnect
  | 15 => some reserved2
  | _ => none

/-- `PacketType::from(u8)`: a larger byte is read by its high nibble. -/
def from' (byte : UInt8) : PacketType :=
  (ofNibble byte).getD ((ofNibble (byte >>> 4)).getD reserved)

@[simp] lemma from_toU8 (t : PacketType) : from' t.toU8 = t := by cases t <;> decide

end PacketType

inductive QoS
  | atMostOnce
  | atLeastOnce
  | exactlyOnce
  deriving DecidableEq, Repr

namespace QoS

def toU8 : QoS → UInt8
  | atMostOnce => 0
  | atLeastOnce => 1
  | exactlyOnce => 2

def fromU8 : UInt8 → Option QoS
  | 0 => some atMostOnce
  | 1 => some atLeastOnce
  | 2 => some exactlyOnce
  | _ => none

@[simp] lemma fromU8_toU8 (q : QoS) : fromU8 q.toU8 = some q := by cases q <;> decide

lemma fromU8_eq_some {b : UInt8} {q : QoS} : fromU8 b = some q ↔ b = q.toU8 := by
  constructor
  · intro h
    unfold fromU8 at h
    split at h <;> cases h <;> rfl
  · rintro rfl
    exact fromU8_toU8 q

/-- `QoS::from_u8(value)?`. -/
def decode {σ : Type} (value : UInt8) : Proc σ ProtocolError QoS :=
  Proc.okOr (.invalidQosLevel value) (fromU8 value)

/-- The derived order: `self > QoS::AtMostOnce`. -/
def acknowledged (q : QoS) : Bool := q != atMostOnce

end QoS

end Picobroker
