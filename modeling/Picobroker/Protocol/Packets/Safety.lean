import Picobroker.Protocol.Packets.Packet

/-! Which inputs make a decoder panic: the fixed-size kinds through the subtraction on the announced
length, PUBLISH through its payload slice, and all of them through a fifth length byte on a narrow
word. -/
namespace Picobroker
open Rust

variable {T P w : ℕ}

lemma returns_map {α β : Type} {p : Proc Unit ProtocolError α} {f : α → β} :
    ((do pure (f (← p)) : Proc Unit ProtocolError β) ()).Returns ↔ (p ()).Returns := by
  rw [Proc.bind_apply,Outcome.returns_andThen_iff]
  simp

/-! ### The fixed-size kinds -/

/-- The packet kinds that implement `PacketFixedSize`. -/
inductive FixedSizeKind
  | connAck
  | pubAck
  | pubRec
  | pubRel
  | pubComp
  | unsubAck
  | pingReq
  | pingResp
  | disconnect
  deriving DecidableEq, Repr

namespace FixedSizeKind

def packetType : FixedSizeKind → PacketType
  | connAck => .connAck
  | pubAck => .pubAck
  | pubRec => .pubRec
  | pubRel => .pubRel
  | pubComp => .pubComp
  | unsubAck => .unsubAck
  | pingReq => .pingReq
  | pingResp => .pingResp
  | disconnect => .disconnect

/-- `PACKET_SIZE`. -/
def packetSize : FixedSizeKind → ℕ
  | connAck | pubAck | pubRec | pubRel | pubComp | unsubAck => 4
  | pingReq | pingResp | disconnect => 2

/-- The decoder of the kind, its packet put into the enumeration. -/
def decode (w : ℕ) (bytes : Bytes) : FixedSizeKind → Proc Unit ProtocolError (Packet T P)
  | connAck => do pure (.connAck (← ConnAckPacket.decode w bytes))
  | pubAck => do pure (.pubAck (← PubAckPacket.decode w bytes))
  | pubRec => do pure (.pubRec (← PubRecPacket.decode w bytes))
  | pubRel => do pure (.pubRel (← PubRelPacket.decode w bytes))
  | pubComp => do pure (.pubComp (← PubCompPacket.decode w bytes))
  | unsubAck => do pure (.unsubAck (← UnsubAckPacket.decode w bytes))
  | pingReq => do pure (.pingReq (← PingReqPacket.decode w bytes))
  | pingResp => do pure (.pingResp (← PingRespPacket.decode w bytes))
  | disconnect => do pure (.disconnect (← DisconnectPacket.decode w bytes))

/-- `Packet::decode` hands a first byte of the kind to its decoder. -/
lemma decode_dispatch (kind : FixedSizeKind) {first : UInt8} {tail : Bytes}
    (h : PacketType.from' (first >>> 4) = kind.packetType) :
    (Packet.decode w (first::tail) : Outcome Unit ProtocolError (Packet T P)) =
      kind.decode w (first::tail) () := by
  cases kind <;> simp only [packetType] at h <;>
    rw [Packet.decode,Proc.bind_apply,index_zero,Outcome.andThen_ok] <;>
    simp only [h] <;> rfl

/-- After the header checks nothing can panic: the bytes they index are there. -/
lemma decode_returns_iff_header (kind : FixedSizeKind) (bytes : Bytes) :
    (kind.decode w bytes () : Outcome Unit ProtocolError (Packet T P)).Returns ↔
      (decodeHeader w kind.packetType kind.packetSize bytes ()).Returns := by
  cases kind with
  | connAck => exact returns_map.trans connAck_decode_returns
  | pubAck | pubRec | pubRel | pubComp | unsubAck =>
    exact returns_map.trans (returns_map.trans decodePacketId_returns)
  | pingReq | pingResp | disconnect => exact returns_map.trans returns_map

/-- The least remaining length whose digits leave no room in the packet. -/
def lengthLimit (kind : FixedSizeKind) : ℕ := if kind.packetSize = 4 then 2097152 else 128

lemma fitsPacketSize_iff (kind : FixedSizeKind) (r : ℕ) :
    FitsPacketSize kind.packetSize r ↔ r < kind.lengthLimit := by
  cases kind <;> first | exact fitsPacketSize_four | exact fitsPacketSize_two

/-- The decoder of a fixed-size kind panics exactly on a slice of at least that size and of its
type that announces a length from the limit on, or whose fifth length byte overflows the word; the
subtraction on the announced length underflows from the same limit on. -/
theorem fixedSize_decode_returns_iff (hw : 32 ≤ w) (kind : FixedSizeKind) (bytes : Bytes) :
    ((kind.decode w bytes () : Outcome Unit ProtocolError (Packet T P)).Returns ↔
      ¬ (kind.packetSize ≤ bytes.length ∧ ∃ first tail, bytes = first::tail ∧
        PacketType.from' (first >>> 4) = kind.packetType ∧
        ((∃ r k, lengthField tail = .complete r k ∧ kind.lengthLimit ≤ r) ∨
          ∃ fifth, lengthField tail = .overlong fifth ∧ OverflowsWord w fifth))) ∧
    ∀ r, (validateRemainingLength kind.packetSize r ()).Returns ↔ r < kind.lengthLimit := by
  constructor
  · have hpos : 0 < kind.packetSize := by cases kind <;> decide
    have hlen : ∀ tail, LengthPanics w kind.packetSize tail ↔
        (∃ r k, lengthField tail = .complete r k ∧ kind.lengthLimit ≤ r) ∨
          ∃ fifth, lengthField tail = .overlong fifth ∧ OverflowsWord w fifth := by
      intro tail
      unfold LengthPanics
      cases lengthField tail <;> simp [fitsPacketSize_iff]
    rw [decode_returns_iff_header,decodeHeader_returns hw hpos]
    simp only [hlen]
  · intro r
    rw [validateRemainingLength_returns,fitsPacketSize_iff]

/-- A PINGREQ that announces 128 bytes. -/
theorem pingReq_decode_underflows :
    ¬ ∀ (kind : FixedSizeKind) (bytes : Bytes),
      (kind.decode 64 bytes () : Outcome Unit ProtocolError (Packet 30 128)).Returns := by
  intro h
  have hp : (pingReq.decode 64 [0xC0,0x80,0x01] () : Outcome Unit ProtocolError (Packet 30 128)) =
      .abort .panic := by decide
  have hr := h pingReq [0xC0,0x80,0x01]
  rw [hp] at hr
  exact Outcome.not_returns_abort _ hr

/-- A PUBACK of five bytes that announces the least length that does not fit. -/
theorem pubAck_decode_panics :
    ¬ (pubAck.decode 64 [0x40,0x80,0x80,0x80,0x01] () :
      Outcome Unit ProtocolError (Packet 30 128)).Returns := by
  rw [(fixedSize_decode_returns_iff (by decide) pubAck _).1,not_not]
  exact ⟨by decide,_,_,rfl,by decide,.inl ⟨2097152,4,by decide,by decide⟩⟩

end FixedSizeKind

/-! ### The variable-size kinds -/

namespace Packet

/-- The kinds whose decoders follow lengths chosen by the peer. -/
def VariableSize (packetType : PacketType) : Prop :=
  packetType = .connect ∨ packetType = .publish ∨ packetType = .subscribe ∨
    packetType = .unsubscribe

/-- A fifth length byte that overflows the word. -/
def LengthOverflows (w : ℕ) (tail : Bytes) : Prop :=
  ∃ fifth, lengthField tail = .overlong fifth ∧ OverflowsWord w fifth

/-- What makes the decoders of variable size panic: for PUBLISH a frame that ends inside its topic
or packet identifier, and for every kind an overflowing length byte; PUBLISH looks at its quality
of service before either. -/
def Crashes (T w : ℕ) (first : UInt8) (tail : Bytes) : Prop :=
  if PacketType.from' (first >>> 4) = .publish then
    ∃ qos, PublishPacket.qosOf first = some qos ∧
      (LengthOverflows w tail ∨ PublishPacket.EndsInHead T qos tail)
  else LengthOverflows w tail

lemma nibble_iff (first : UInt8) (packetType : PacketType) :
    (first >>> 4) &&& 0x0F = packetType.toU8 ↔ PacketType.from' (first >>> 4) = packetType := by
  have h : ∀ n : Fin 16, (UInt8.ofNat n.val &&& 0x0F = packetType.toU8 ↔
      PacketType.from' (UInt8.ofNat n.val) = packetType) := by
    cases packetType <;> decide +kernel
  have hlt : (first >>> 4).toNat < 16 := by
    have hfirst := first.toNat_lt
    have hshift : (first >>> 4).toNat = first.toNat/16 := Nat.shiftRight_eq_div_pow first.toNat 4
    omega
  have hn := h ⟨(first >>> 4).toNat,hlt⟩
  rwa [UInt8.ofNat_toNat] at hn

lemma returns_call_map {α β : Type} {o : Outcome Unit ProtocolError α} {f : α → β} :
    ((do pure (f (← Proc.call o)) : Proc Unit ProtocolError β) ()).Returns ↔ o.Returns :=
  returns_map.trans Outcome.returns_mapState

lemma decode_returns_variable (hw : 32 ≤ w) (first : UInt8) (tail : Bytes)
    (hkind : VariableSize (PacketType.from' (first >>> 4))) :
    (decode w (first::tail) : Outcome Unit ProtocolError (Packet T P)).Returns ↔
      ¬ Crashes T w first tail := by
  have hstart : ∀ f : UInt8 → Proc Unit ProtocolError (Packet T P),
      (index (first::tail) 0 >>= f) () = f first () := fun _ => rfl
  rw [decode,hstart,Crashes]
  obtain ht | ht | ht | ht := hkind <;> simp only [ht]
  · rw [returns_call_map,ConnectPacket.decode_returns hw,ht,if_neg (by decide),LengthOverflows,
      eq_self,true_and]
  · rw [returns_call_map,PublishPacket.decode_returns hw,nibble_iff,ht,if_pos trivial,eq_self,
      true_and]
    rfl
  · rw [returns_call_map,SubscribePacket.decode,
      decodeBody_returns hw SubscribePacket.decides_decodeFields,nibble_iff,ht,
      if_neg (by decide),LengthOverflows,eq_self,true_and]
  · rw [returns_call_map,UnsubscribePacket.decode,
      decodeBody_returns hw UnsubscribePacket.decides_decodeFields,nibble_iff,ht,
      if_neg (by decide),LengthOverflows,eq_self,true_and]

/-- The decoders of variable size panic on these inputs and on no others. -/
theorem variableSize_decode_returns_iff (hw : 32 ≤ w) (bytes : Bytes) (first : UInt8)
    (hfirst : bytes.head? = some first) (hkind : VariableSize (PacketType.from' (first >>> 4))) :
    (decode w bytes : Outcome Unit ProtocolError (Packet T P)).Returns ↔
      ¬ Crashes T w first bytes.tail := by
  cases bytes with
  | nil => cases hfirst
  | cons b tail =>
    cases hfirst
    exact decode_returns_variable hw first tail hkind

/-- A PUBLISH that announces an empty frame in front of a topic of one byte. -/
theorem publish_decode_panics : ¬ ∀ (first : UInt8) (tail : Bytes),
    VariableSize (PacketType.from' (first >>> 4)) →
      (decode 64 (first::tail) : Outcome Unit ProtocolError (Packet 30 128)).Returns := by
  intro h
  have hp : (decode 64 [0x30,0x00,0x00,0x01,0x61] : Outcome Unit ProtocolError (Packet 30 128)) =
      .abort .panic := by decide
  have hr := h 0x30 [0x00,0x00,0x01,0x61] (.inr (.inl (by decide)))
  rw [hp] at hr
  exact Outcome.not_returns_abort _ hr

/-- The same topic with a quality of service that asks for a packet identifier, all of it inside
the slice and none of it inside the frame. -/
theorem publish_qos1_decode_panics :
    ¬ (decode 64 [0x32,0x03,0x00,0x01,0x61,0x00,0x07] :
      Outcome Unit ProtocolError (Packet 30 128)).Returns := by
  rw [variableSize_decode_returns_iff (by decide) _ 0x32 rfl (.inr (.inl (by decide))),not_not,
    Crashes,if_pos (by decide)]
  refine ⟨.atLeastOnce,by decide,.inr ⟨3,1,_,[],by decide,(List.append_nil _).symm,
    ⟨[0x61],[0x00,0x07],by decide,by decide,by decide,by decide,by decide,?_⟩,by decide⟩⟩
  exact ⟨7,by decide,by decide⟩

end Packet

end Picobroker
