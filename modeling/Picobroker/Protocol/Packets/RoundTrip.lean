import Picobroker.Protocol.Packets.Accepted

/-! Decoding undoes encoding: what each packet looks like on the wire, that the encoders write it,
that the decoders read it back whatever follows, and that no proper prefix of it is accepted. -/
namespace Picobroker
open Rust

variable {T P w : ℕ}

namespace Packet

/-- What a packet says, without the slots behind the lengths of its strings and vectors. -/
inductive Contents
  | connect (c : ConnectPacket.Contents)
  | connAck (packet : ConnAckPacket)
  | publish (c : PublishPacket.Contents)
  | pubAck (packet : PubAckPacket)
  | pubRec (packet : PubRecPacket)
  | pubRel (packet : PubRelPacket)
  | pubComp (packet : PubCompPacket)
  | subscribe (c : SubscribePacket.Contents)
  | subAck (packet : SubAckPacket)
  | unsubscribe (c : UnsubscribePacket.Contents)
  | unsubAck (packet : UnsubAckPacket)
  | pingReq (packet : PingReqPacket)
  | pingResp (packet : PingRespPacket)
  | disconnect (packet : DisconnectPacket)
  deriving DecidableEq, Repr

def contents : Packet T P → Contents
  | connect packet => .connect packet.contents
  | connAck packet => .connAck packet
  | publish packet => .publish packet.contents
  | pubAck packet => .pubAck packet
  | pubRec packet => .pubRec packet
  | pubRel packet => .pubRel packet
  | pubComp packet => .pubComp packet
  | subscribe packet => .subscribe packet.contents
  | subAck packet => .subAck packet
  | unsubscribe packet => .unsubscribe packet.contents
  | unsubAck packet => .unsubAck packet
  | pingReq packet => .pingReq packet
  | pingResp packet => .pingResp packet
  | disconnect packet => .disconnect packet

/-- The ten kinds without optional or text fields are all well-formed. -/
def WellFormed : Packet T P → Prop
  | connect packet => packet.WellFormed
  | publish packet => packet.WellFormed
  | subscribe packet => packet.WellFormed
  | unsubscribe packet => packet.WellFormed
  | _ => True

/-- The frame of a packet. -/
def Contents.wire : Contents → Bytes
  | .connect c => c.wire
  | .connAck packet => frame (headerFirstByte .connAck 0) packet.body
  | .publish c => c.wire
  | .pubAck packet => frame (headerFirstByte .pubAck 0) (toBeBytes packet.packetId)
  | .pubRec packet => frame (headerFirstByte .pubRec 0) (toBeBytes packet.packetId)
  | .pubRel packet => frame (headerFirstByte .pubRel 0b0010) (toBeBytes packet.packetId)
  | .pubComp packet => frame (headerFirstByte .pubComp 0) (toBeBytes packet.packetId)
  | .subscribe c => c.wire
  | .subAck packet => frame (headerFirstByte .subAck 0) packet.body
  | .unsubscribe c => c.wire
  | .unsubAck packet => frame (headerFirstByte .unsubAck 0) (toBeBytes packet.packetId)
  | .pingReq _ => frame (headerFirstByte .pingReq 0) []
  | .pingResp _ => frame (headerFirstByte .pingResp 0) []
  | .disconnect _ => frame (headerFirstByte .disconnect 0) []

/-- The first byte that the encoder of a packet writes. -/
def firstByte : Packet T P → UInt8
  | publish packet => packet.flags.publishHeaderByte
  | p => headerFirstByte p.packetType p.packetType.packetFlags

lemma encodePacketId_frame {packetType : PacketType} {flags : UInt8} {packetId : UInt16}
    {buffer : Bytes}
    (h : (frame (headerFirstByte packetType flags) (toBeBytes packetId)).length ≤ buffer.length) :
    encodePacketId packetType flags packetId buffer =
      .ok (frame (headerFirstByte packetType flags) (toBeBytes packetId)).length
        (frame (headerFirstByte packetType flags) (toBeBytes packetId) ++
          buffer.drop (frame (headerFirstByte packetType flags) (toBeBytes packetId)).length) := by
  have hl : (frame (headerFirstByte packetType flags) (toBeBytes packetId)).length = 4 := by
    rw [toBeBytes,frame_two]
    rfl
  rw [hl] at h ⊢
  exact encodePacketId_eq packetId h

lemma encodeEmpty_frame {packetType : PacketType} {buffer : Bytes}
    (h : (frame (headerFirstByte packetType 0) []).length ≤ buffer.length) :
    encodeEmpty packetType 0 buffer = .ok (frame (headerFirstByte packetType 0) []).length
      (frame (headerFirstByte packetType 0) [] ++
        buffer.drop (frame (headerFirstByte packetType 0) []).length) := by
  have hl : (frame (headerFirstByte packetType 0) []).length = 2 := by
    rw [frame_nil]
    rfl
  rw [hl] at h ⊢
  exact encodeEmpty_eq h

/-- The encoders write the frame of a well-formed packet at the start of the buffer. -/
theorem encode_eq (hT : T ≤ 255) (hP : P ≤ 65535) {p : Packet T P} (h : p.WellFormed)
    {buffer : Bytes} (hroom : p.contents.wire.length ≤ buffer.length) :
    p.encode buffer = .ok p.contents.wire.length
      (p.contents.wire ++ buffer.drop p.contents.wire.length) := by
  cases p with
  | connect packet => exact encodeWith_eq (ConnectPacket.WellFormed.writes hT hP h) hroom
  | publish packet => exact encodeWith_eq (PublishPacket.WellFormed.fills hT hP h).writes hroom
  | subscribe packet => exact encodeWith_eq (SubscribePacket.WellFormed.fills hT h).writes hroom
  | unsubscribe packet => exact encodeWith_eq (UnsubscribePacket.WellFormed.fills hT h).writes hroom
  | connAck packet =>
    have hl : (Contents.connAck packet).wire.length = 4 := by
      rw [Contents.wire,ConnAckPacket.body,frame_two]
      rfl
    rw [contents,hl] at hroom ⊢
    exact packet.encode_eq hroom
  | subAck packet =>
    have hl : (Contents.subAck packet).wire.length = 5 := by
      rw [Contents.wire,SubAckPacket.body,frame_three]
      rfl
    rw [contents,hl] at hroom ⊢
    exact packet.encode_eq hroom
  | pubAck packet => exact encodePacketId_frame hroom
  | pubRec packet => exact encodePacketId_frame hroom
  | pubRel packet => exact encodePacketId_frame hroom
  | pubComp packet => exact encodePacketId_frame hroom
  | unsubAck packet => exact encodePacketId_frame hroom
  | pingReq packet => exact encodeEmpty_frame hroom
  | pingResp packet => exact encodeEmpty_frame hroom
  | disconnect packet => exact encodeEmpty_frame hroom

/-! ### Reading back -/

section Wire

variable {p : Packet T P} {body : Bytes}

lemma fixedBody_length_le (h : p.fixedBody = some body) : body.length ≤ 3 := by
  cases p <;> cases h <;> simp [ConnAckPacket.body,SubAckPacket.body]

lemma wire_of_fixedBody (h : p.fixedBody = some body) :
    p.contents.wire = frame p.firstByte body := by
  cases p <;> cases h <;> rfl

lemma firstByte_packetType (p : Packet T P) :
    PacketType.from' (p.firstByte >>> 4) = p.packetType := by
  have hall : ∀ t, PacketType.from' (headerFirstByte t t.packetFlags >>> 4) = t := by
    intro t
    cases t <;> decide
  cases p with
  | publish packet =>
    exact (nibble_iff _ _).mp (PublishPacket.headerOf_publishHeaderByte packet.flags).1
  | _ => exact hall _

lemma subscribe_firstByte (packet : SubscribePacket T) :
    (PacketType.subscribe.toU8 <<< 4) ||| 0b0010 =
      (subscribe packet : Packet T P).firstByte := by
  change _ = headerFirstByte .subscribe 0b0010
  decide

lemma unsubscribe_firstByte (packet : UnsubscribePacket T) :
    (PacketType.unsubscribe.toU8 <<< 4) ||| 0b0010 =
      (unsubscribe packet : Packet T P).firstByte := by
  change _ = headerFirstByte .unsubscribe 0b0010
  decide

/-- What a frame spells is well-formed, and the frame of the packet has the same body. -/
lemma Spells.sound (hT : T ≤ 255) (hP : P ≤ 65535) {header : UInt8} (h : Spells header body p) :
    p.WellFormed ∧ p.contents.wire = frame p.firstByte body := by
  cases p with
  | connect packet =>
    obtain ⟨hwf,rfl⟩ := h.2.sound hT hP
    exact ⟨hwf,rfl⟩
  | publish packet =>
    obtain ⟨hwf,rfl⟩ := h.2.sound hT hP
    exact ⟨hwf,rfl⟩
  | subscribe packet =>
    obtain ⟨hwf,rfl⟩ := h.2.sound hT
    rw [← subscribe_firstByte]
    exact ⟨hwf,rfl⟩
  | unsubscribe packet =>
    obtain ⟨hwf,rfl⟩ := h.2.sound hT
    rw [← unsubscribe_firstByte]
    exact ⟨hwf,rfl⟩
  | _ => exact h.elim

/-- The frame of a well-formed packet spells a packet with the same contents. -/
lemma WellFormed.spells (hT : T ≤ 255) (hP : P ≤ 65535) (hp : p.fixedBody = none)
    (h : p.WellFormed) : ∃ (q : Packet T P) (body : Bytes), p.contents.wire = frame p.firstByte body ∧
      body.length ≤ maxVariableLength ∧ q.fixedBody = none ∧ Spells p.firstByte body q ∧
      q.contents = p.contents := by
  cases p with
  | connect packet =>
    obtain ⟨q,hq,hc⟩ := ConnectPacket.WellFormed.complete hT hP h
    exact ⟨connect q,_,rfl,ConnectPacket.body_length_le hT hP packet,rfl,
      ⟨firstByte_packetType _,hq⟩,congrArg Contents.connect hc⟩
  | publish packet =>
    obtain ⟨q,-,hq,hc⟩ := PublishPacket.WellFormed.complete hT hP h
    have hflags : q.flags = packet.flags := by
      rw [PublishPacket.contents,PublishPacket.contents,PublishPacket.Contents.mk.injEq] at hc
      rw [PublishPacket.flags,PublishPacket.flags,hc.2.2.2.1,hc.2.2.2.2.1,hc.2.2.2.2.2]
    exact ⟨publish q,_,rfl,PublishPacket.body_length_le hT hP packet,rfl,
      ⟨hflags ▸ PublishPacket.headerOf_publishHeaderByte packet.flags,hq⟩,
      congrArg Contents.publish hc⟩
  | subscribe packet =>
    obtain ⟨q,hq,hc⟩ := SubscribePacket.WellFormed.complete hT h
    exact ⟨subscribe q,_,congrArg (fun first => frame first _) (subscribe_firstByte packet),
      SubscribePacket.body_length_le hT packet,rfl,
      ⟨(nibble_iff _ _).mpr (firstByte_packetType _),hq⟩,congrArg Contents.subscribe hc⟩
  | unsubscribe packet =>
    obtain ⟨q,hq,hc⟩ := UnsubscribePacket.WellFormed.complete hT h
    exact ⟨unsubscribe q,_,congrArg (fun first => frame first _) (unsubscribe_firstByte packet),
      UnsubscribePacket.body_length_le hT packet,rfl,
      ⟨(nibble_iff _ _).mpr (firstByte_packetType _),hq⟩,congrArg Contents.unsubscribe hc⟩
  | _ => cases hp

/-- A frame of a short body puts it in the fixed place. -/
lemma placedAt_frame {header : UInt8} {packetType : PacketType} (rest : Bytes)
    (ht : PacketType.from' (header >>> 4) = packetType) (hbody : body.length < 128) :
    PlacedAt (frame header body ++ rest) packetType 1 body := by
  have hlen := lengthField_bytes (show body.length ≤ maxVariableLength by
    rw [maxVariableLength]; omega) (body ++ rest)
  rw [variableLengthBytes_small hbody] at hlen
  refine ⟨header,UInt8.ofNat body.length,rest,?_,ht,hlen⟩
  rw [frame,variableLengthBytes_small hbody]
  rfl

/-- What was written is read back, whatever stands behind it. -/
theorem decode_wire (hw : 32 ≤ w) (hT : T ≤ 255) (hP : P ≤ 65535) (h : p.WellFormed)
    (rest : Bytes) :
    ∃ q : Packet T P, decode w (p.contents.wire ++ rest) = .ok q () ∧ q.contents = p.contents := by
  cases hp : p.fixedBody with
  | some body =>
    have hl := fixedBody_length_le hp
    refine ⟨p,(decode_fixed_eq_ok hw hp).mpr ⟨1,?_⟩,rfl⟩
    rw [wire_of_fixedBody hp]
    exact placedAt_frame rest (firstByte_packetType p) (by omega)
  | none =>
    obtain ⟨q,body,hwire,hl,hq,hs,hc⟩ := h.spells hT hP hp
    rw [hwire]
    exact ⟨q,(decode_variable_eq_ok hw hq).mpr ⟨p.firstByte,_,body,frameAt_frame hl rest,hs⟩,hc⟩

/-- Whatever is accepted, from any input, is well-formed. -/
theorem wellFormed_of_decode (hw : 32 ≤ w) (hT : T ≤ 255) (hP : P ≤ 65535) {bytes : Bytes}
    (h : decode w bytes = .ok p ()) : p.WellFormed := by
  cases hp : p.fixedBody with
  | some body => cases p <;> trivial
  | none =>
    obtain ⟨_,_,_,-,hs⟩ := (decode_variable_eq_ok hw hp).mp h
    exact (hs.sound hT hP).1

end Wire

/-! ### Truncated frames -/

lemma LengthOverflows.append {tail : Bytes} (h : LengthOverflows w tail) (rest : Bytes) :
    LengthOverflows w (tail ++ rest) := by
  obtain ⟨fifth,hf,ho⟩ := h
  exact ⟨fifth,by rw [lengthField_append rest (by rw [hf]; simp),hf],ho⟩

lemma endsInHead_append {qos : QoS} {tail : Bytes} (h : PublishPacket.EndsInHead T qos tail)
    (rest : Bytes) : PublishPacket.EndsInHead T qos (tail ++ rest) := by
  obtain ⟨r,k,head,rest',hf,hd,hh,hr⟩ := h
  refine ⟨r,k,head,rest' ++ rest,?_,?_,hh,hr⟩
  · rw [lengthField_append rest (by rw [hf]; simp),hf]
  · rw [List.drop_append_of_le_length (lengthField_complete hf).2.2,hd,List.append_assoc]

/-- Bytes behind a slice do not stop its decoder from panicking. -/
lemma Crashes.append {first : UInt8} {tail : Bytes} (h : Crashes T w first tail) (rest : Bytes) :
    Crashes T w first (tail ++ rest) := by
  unfold Crashes at h ⊢
  split at h
  · rename_i ht
    obtain ⟨qos,hq,ho | he⟩ := h
    · rw [if_pos ht]
      exact ⟨qos,hq,.inl (ho.append rest)⟩
    · rw [if_pos ht]
      exact ⟨qos,hq,.inr (endsInHead_append he rest)⟩
  · rename_i ht
    rw [if_neg ht]
    exact h.append rest

lemma variableSize_iff {p : Packet T P} : VariableSize p.packetType ↔ p.fixedBody = none := by
  cases p <;> simp [VariableSize,packetType,fixedBody]

lemma frameAt_of_decode (hw : 32 ≤ w) {first : UInt8} {tail : Bytes} {q : Packet T P}
    (hkind : VariableSize (PacketType.from' (first >>> 4)))
    (h : decode w (first::tail) = .ok q ()) :
    ∃ header k body, FrameAt (first::tail) header k body := by
  rw [packetType_of_decode h,variableSize_iff] at hkind
  obtain ⟨header,k,body,hf,-⟩ := (decode_variable_eq_ok hw hkind).mp h
  exact ⟨header,k,body,hf⟩

/-- A truncated frame of variable size: it cannot panic, because the whole frame does not, and it
cannot be accepted, because it does not hold the announced body. -/
lemma decode_truncated (hw : 32 ≤ w) {header : UInt8} {body : Bytes} {q : Packet T P} {n : ℕ}
    (hbody : body.length ≤ maxVariableLength)
    (hkind : VariableSize (PacketType.from' (header >>> 4)))
    (hfull : decode w (frame header body) = .ok q ()) (hpos : 0 < n)
    (hn : n < (frame header body).length) :
    ∃ e, (decode w ((frame header body).take n) : Outcome Unit ProtocolError (Packet T P)) =
      .err e () := by
  obtain ⟨m,rfl⟩ : ∃ m, n = m+1 := ⟨n-1,by omega⟩
  have hno : ∀ k body', ¬ FrameAt ((frame header body).take (m+1)) header k body' :=
    fun _ _ => not_frameAt_take hbody hn
  rw [frame] at hfull hno ⊢
  rw [List.take_succ_cons] at hno ⊢
  set tail := variableLengthBytes body.length ++ body with htail
  have hcrash : ¬ Crashes T w header (tail.take m) := by
    intro hc
    have hc' := hc.append (tail.drop m)
    rw [List.take_append_drop] at hc'
    have hret := (decode_returns_variable (T := T) (P := P) hw header tail hkind).mp
      (by rw [hfull]; exact Outcome.returns_ok _ _)
    exact hret hc'
  cases hd : (decode w (header::tail.take m) : Outcome Unit ProtocolError (Packet T P)) with
  | ok q' u =>
    obtain ⟨header',k,body',hf⟩ := frameAt_of_decode hw hkind hd
    have hhead := hf
    obtain ⟨_,_,heq,-⟩ := hhead
    cases heq
    exact absurd hf (hno _ _)
  | err e u => exact ⟨e,rfl⟩
  | abort why =>
    have hret := (decode_returns_variable (T := T) (P := P) hw header (tail.take m) hkind).mpr hcrash
    rw [hd] at hret
    exact absurd hret (Outcome.not_returns_abort why)

lemma bind_err {α β : Type} {r : Proc Unit ProtocolError α} {f : α → Proc Unit ProtocolError β}
    {e : ProtocolError} (h : r () = .err e ()) : (r >>= f) () = .err e () := by
  rw [Proc.bind_apply,h]
  rfl

/-- A slice of a fixed layout that is too short for it is refused by the first check. -/
lemma decode_fixed_short {p : Packet T P} {body : Bytes} (hp : p.fixedBody = some body)
    {first : UInt8} {tail : Bytes} (ht : PacketType.from' (first >>> 4) = p.packetType)
    (hl : (first::tail).length < 2+body.length) :
    ∃ e, (decode w (first::tail) : Outcome Unit ProtocolError (Packet T P)) = .err e () := by
  have hsize : ∀ packetType packetSize, (first::tail).length < packetSize →
      decodeHeader w packetType packetSize (first::tail) () =
        .err (.bufferTooSmall (first::tail).length) () := fun _ _ h => decodeHeader_short h
  rw [decode,Proc.bind_apply,index_zero,Outcome.andThen_ok]
  cases p <;> cases hp <;> simp only [packetType] at ht <;> simp only [ht]
  case connAck packet => exact ⟨_,bind_err (bind_err (hsize .connAck 4 hl))⟩
  case subAck packet => exact ⟨_,bind_err (bind_err (Proc.failIf_pos hl _ _))⟩
  case pubAck packet => exact ⟨_,bind_err (bind_err (bind_err (hsize .pubAck 4 hl)))⟩
  case pubRec packet => exact ⟨_,bind_err (bind_err (bind_err (hsize .pubRec 4 hl)))⟩
  case pubRel packet => exact ⟨_,bind_err (bind_err (bind_err (hsize .pubRel 4 hl)))⟩
  case pubComp packet => exact ⟨_,bind_err (bind_err (bind_err (hsize .pubComp 4 hl)))⟩
  case unsubAck packet => exact ⟨_,bind_err (bind_err (bind_err (hsize .unsubAck 4 hl)))⟩
  case pingReq packet => exact ⟨_,bind_err (bind_err (hsize .pingReq 2 hl))⟩
  case pingResp packet => exact ⟨_,bind_err (bind_err (hsize .pingResp 2 hl))⟩
  case disconnect packet => exact ⟨_,bind_err (bind_err (hsize .disconnect 2 hl))⟩

/-- No proper prefix of a frame is accepted, and none makes the decoder panic. -/
theorem decode_take (hw : 32 ≤ w) (hT : T ≤ 255) (hP : P ≤ 65535) {p : Packet T P}
    (h : p.WellFormed) {n : ℕ} (hpos : 0 < n) (hn : n < p.contents.wire.length) :
    ∃ e, (decode w (p.contents.wire.take n) : Outcome Unit ProtocolError (Packet T P)) =
      .err e () := by
  obtain ⟨q,hq,-⟩ := decode_wire hw hT hP h []
  rw [List.append_nil] at hq
  have ht := firstByte_packetType p
  cases hp : p.fixedBody with
  | some body =>
    have hbody := fixedBody_length_le hp
    obtain ⟨m,rfl⟩ : ∃ m, n = m+1 := ⟨n-1,by omega⟩
    rw [wire_of_fixedBody hp,frame,variableLengthBytes_small (by omega)] at hn ⊢
    rw [List.take_succ_cons]
    apply decode_fixed_short hp ht
    simp only [List.length_cons,List.length_append,List.length_take,List.length_nil] at hn ⊢
    omega
  | none =>
    obtain ⟨_,body,hwire,hl,-⟩ := h.spells hT hP hp
    rw [hwire] at hq hn ⊢
    exact decode_truncated hw hl (by rwa [ht,variableSize_iff]) hq hpos hn

/-- Decoding undoes encoding for every well-formed packet, truncated frames are refused, and only
well-formed packets are ever decoded. -/
theorem decode_encode (hw : 32 ≤ w) (hT : T ≤ 255) (hP : P ≤ 65535) :
    (∀ p : Packet T P, p.WellFormed →
      ∀ buffer : Bytes, p.contents.wire.length ≤ buffer.length →
        ∃ n written, p.encode buffer = .ok n written ∧ n ≤ written.length ∧
          (∀ rest, ∃ q : Packet T P, decode w (written.take n ++ rest) = .ok q () ∧
            q.contents = p.contents) ∧
          ∀ k, 0 < k → k < n → ∃ e,
            (decode w ((written.take n).take k) : Outcome Unit ProtocolError (Packet T P)) =
              .err e ()) ∧
    ∀ bytes (q : Packet T P), decode w bytes = .ok q () → q.WellFormed := by
  refine ⟨fun p h buffer hroom => ?_,fun bytes q hq => wellFormed_of_decode hw hT hP hq⟩
  refine ⟨_,_,encode_eq hT hP h hroom,?_,?_,?_⟩
  · rw [List.length_append]
    exact Nat.le_add_right _ _
  · intro rest
    rw [List.take_left]
    exact decode_wire hw hT hP h rest
  · intro k hpos hk
    rw [List.take_left]
    exact decode_take hw hT hP h hpos hk

/-- A SUBSCRIBE for `a/+`, written into sixteen bytes and followed by a PINGREQ. -/
theorem subscribe_decode_encode :
    let p : Packet 30 128 := .subscribe
      ⟨10,(HeaplessString.tryFrom [0x61,0x2F,0x2B]).getD .new,.atLeastOnce⟩
    ∃ n written, p.encode (List.replicate 16 0) = .ok n written ∧
      ∃ q : Packet 30 128, decode 64 (written.take n ++ [0xC0,0x00]) = .ok q () ∧
        q.contents = p.contents := by
  intro p
  have hroom : p.contents.wire.length ≤ (List.replicate 16 (0 : UInt8)).length := by
    change (frame _ (SubscribePacket.Contents.body _)).length ≤ _
    rw [frame,variableLengthBytes_small (by decide)]
    decide
  obtain ⟨n,written,he,-,hd,-⟩ := (decode_encode (show 32 ≤ 64 by decide) (by decide)
    (by decide)).1 p ⟨by decide,by decide,by decide⟩ _ hroom
  exact ⟨n,written,he,hd _⟩

end Packet

end Picobroker
