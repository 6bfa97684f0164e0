import Picobroker.Protocol.Packets.Buffers

/-! The Tokio server encodes an outgoing packet into a buffer whose size it computes from the two
limits. -/
namespace Picobroker
open Rust

variable {T P w : ℕ}

/-- The `std::io::Error` that the server builds. -/
inductive IoError
  | invalidData (message : String)
  deriving DecidableEq, Repr

/-- `encode_frame`: any failure of the encoder becomes the same error. -/
def TokioServer.encodeFrame (packet : Packet T P) : Outcome Unit IoError Bytes :=
  Proc.eval (do
    let size ← Proc.mapErr (fun _ => IoError.invalidData "Failed to encode packet") packet.encode
    let buffer ← Proc.get
    slice buffer 0 size) (List.replicate (5+P+T) 0)

namespace TokioServer

section Frame

variable {packet : Packet T P}

/-- A well-formed packet passes exactly when its frame fits into the buffer. -/
lemma encodeFrame_cases (hT : T ≤ 255) (hP : P ≤ 65535) (h : packet.WellFormed)
    (hend : ¬ packet.UncheckedEnd (5+P+T)) :
    encodeFrame packet =
      if packet.contents.wire.length ≤ 5+P+T then .ok packet.contents.wire ()
      else .err (.invalidData "Failed to encode packet") () := by
  have hlen : (List.replicate (5+P+T) (0 : UInt8)).length = 5+P+T := List.length_replicate
  by_cases hroom : packet.contents.wire.length ≤ 5+P+T
  · have he := Packet.encode_eq hT hP h (hroom.trans_eq hlen.symm)
    have hcut : packet.contents.wire.length ≤ (packet.contents.wire ++
        (List.replicate (5+P+T) (0 : UInt8)).drop packet.contents.wire.length).length := by
      rw [List.length_append]
      exact Nat.le_add_right _ _
    rw [if_pos hroom,encodeFrame,Proc.eval,Proc.bind_apply,Proc.mapErr_apply,he,Outcome.mapErr_ok,
      Outcome.andThen_ok,Proc.bind_apply,Proc.get_apply,Outcome.andThen_ok,
      slice_eq (Nat.zero_le _) hcut,List.take_left]
    rfl
  · obtain ⟨hu,-⟩ | ⟨-,n,out,he⟩ := Packet.encode_short hT hP h
      (show (List.replicate (5+P+T) (0 : UInt8)).length < packet.contents.wire.length by omega)
    · rw [hlen] at hu
      exact absurd hu hend
    · rw [if_neg hroom,encodeFrame,Proc.eval,Proc.bind_apply,Proc.mapErr_apply,he]
      rfl

end Frame

section Publish

variable {p : PublishPacket T P}

/-- The buffer of five bytes more than the two limits has room for the topic, the packet identifier,
the payload and the length field of the packet, and for the three bytes of its type and of the
length of its topic. -/
def FitsFrame (p : PublishPacket T P) : Prop :=
  p.topicName.len+(if p.qos ≠ .atMostOnce then 2 else 0)+p.payload.len+
    variableLengthLength p.remainingLength+3 ≤ 5+P+T

instance (p : PublishPacket T P) : Decidable (FitsFrame p) := inferInstanceAs (Decidable (_ ≤ _))

lemma fitsFrame_iff (hT : T ≤ 255) (hP : P ≤ 65535) (h : p.WellFormed) :
    FitsFrame p ↔ p.contents.wire.length ≤ 5+P+T := by
  have hl : p.contents.wire.length = _ := frame_length (PublishPacket.body_length_le hT hP p)
  rw [← h.remainingLength] at hl
  have hr : p.remainingLength = 2+p.topicName.len+(if p.qos ≠ .atMostOnce then 2 else 0)+
      p.payload.len := rfl
  rw [hl,FitsFrame]
  omega

lemma encodeFrame_publish_iff (hT : T ≤ 255) (hP : P ≤ 65535) (h : p.WellFormed) :
    (∃ frame, encodeFrame (.publish p) = .ok frame ()) ↔ FitsFrame p := by
  rw [fitsFrame_iff hT hP h,
    encodeFrame_cases hT hP (show (Packet.publish p : Packet T P).WellFormed from h) not_false]
  change (∃ frame, (if p.contents.wire.length ≤ 5+P+T then _ else _) = _) ↔ _
  by_cases hroom : p.contents.wire.length ≤ 5+P+T
  · rw [if_pos hroom]
    exact iff_of_true ⟨_,rfl⟩ hroom
  · rw [if_neg hroom]
    refine iff_of_false ?_ hroom
    rintro ⟨frame,⟨⟩⟩

/-- An accepted PUBLISH can be forwarded exactly when its frame fits into the buffer. -/
theorem publish_forwarded_iff (hw : 32 ≤ w) (hT : T ≤ 255) (hP : P ≤ 65535) (bytes : Bytes)
    (h : PublishPacket.decode w bytes = .ok p ()) :
    (∃ frame, encodeFrame (.publish p) = .ok frame ()) ↔ FitsFrame p := by
  obtain ⟨header,k,body,-,-,hb⟩ := (PublishPacket.decode_eq_ok hw).mp h
  exact encodeFrame_publish_iff hT hP (hb.sound hT hP).1

/-- A short message fits. -/
theorem publish_forwarded_short : ∃ p : PublishPacket 30 128,
    PublishPacket.decode 64 [0x30,0x05,0x00,0x01,0x61,0x68,0x69] = .ok p () ∧
      ∃ frame, encodeFrame (.publish p) = .ok frame () := by
  have hd : PublishPacket.decode 64 [0x30,0x05,0x00,0x01,0x61,0x68,0x69] = .ok
      (⟨(HeaplessString.tryFrom [0x61]).getD .new,none,(HeaplessVec.collect [0x68,0x69]).getD .new,
        .atMostOnce,false,false⟩ : PublishPacket 30 128) () := by decide
  exact ⟨_,hd,(publish_forwarded_iff (by decide) (by decide) (by decide) _ hd).mpr (by decide)⟩

/-- The longest topic and the longest payload for limits of 30 and 128, under a quality of service
that asks for a packet identifier: a frame of 165 bytes. -/
def longPublish : Bytes :=
  [0x32,0xA2,0x01,0x00,0x1E] ++ List.replicate 30 0x61 ++ [0x00,0x01] ++ List.replicate 128 0

theorem longPublish_not_forwarded : ¬ ∀ (bytes : Bytes) (p : PublishPacket 30 128),
    PublishPacket.decode 64 bytes = .ok p () → ∃ frame, encodeFrame (.publish p) = .ok frame () := by
  intro h
  have hd : PublishPacket.decode 64 longPublish = .ok
      (⟨(HeaplessString.tryFrom (List.replicate 30 0x61)).getD .new,some 1,
        (HeaplessVec.collect (List.replicate 128 0)).getD .new,.atLeastOnce,false,false⟩ :
          PublishPacket 30 128) () := by decide +kernel
  obtain ⟨header,k,body,-,-,hb⟩ := (PublishPacket.decode_eq_ok (by decide)).mp hd
  have hfits := (encodeFrame_publish_iff (by decide) (by decide)
    (hb.sound (by decide) (by decide)).1).mp (h longPublish _ hd)
  exact absurd hfits (by decide +kernel)

end Publish

end TokioServer

end Picobroker
