import Picobroker.Protocol.Packets.Frames

/-! Encoding undoes decoding: an accepted frame is written again as it was, but for the flag bits of
its first byte. -/
namespace Picobroker
open Rust

variable {T P w : ℕ}

/-! ### Frames are determined by their parts -/

section Frame

variable {bytes body : Bytes} {header : UInt8} {k : ℕ}

/-- A slice that is one frame with a length field as short as possible. -/
lemma FrameAt.eq_frame (h : FrameAt bytes header k body) (hlen : bytes.length = 1+k+body.length)
    (hmin : k = variableLengthLength body.length) : bytes = frame header body := by
  obtain ⟨tail,rest,rfl,hk,hd⟩ := h
  have hdigits := take_of_lengthField hk
  have hrest : rest = [] := by
    have hl := congrArg List.length hd
    rw [List.length_drop,List.length_append] at hl
    rw [List.length_cons] at hlen
    exact List.eq_nil_of_length_eq_zero (by omega)
  rw [hmin,lengthDigits_variableLengthLength (lengthField_complete hk).1,← hmin] at hdigits
  rw [frame,← List.take_append_drop k tail,hdigits,hd,hrest,List.append_nil]

/-- Under a length field of one byte the fixed place is the one behind the field. -/
lemma PlacedAt.frameAt {packetType : PacketType} (h : PlacedAt bytes packetType 1 body) :
    ∃ header : UInt8, PacketType.from' (header >>> 4) = packetType ∧ FrameAt bytes header 1 body := by
  obtain ⟨first,second,rest,rfl,ht,hk⟩ := h
  exact ⟨first,ht,_,rest,rfl,hk,rfl⟩

end Frame

namespace PacketType

/-- Of the first byte of a kind, the high half is forced by the check of its type. -/
lemma headerFirstByte_iff {first : UInt8} {t : PacketType} (h : from' (first >>> 4) = t) :
    first = headerFirstByte t t.packetFlags ↔ first &&& 0x0F = t.packetFlags := by
  subst h
  have hall : ∀ n : Fin 256,
      (UInt8.ofNat n.val = headerFirstByte (from' (UInt8.ofNat n.val >>> 4))
          (packetFlags (from' (UInt8.ofNat n.val >>> 4))) ↔
        UInt8.ofNat n.val &&& (0x0F : UInt8) = packetFlags (from' (UInt8.ofNat n.val >>> 4))) := by
    decide +kernel
  have hfirst := hall ⟨first.toNat,first.toNat_lt⟩
  rwa [UInt8.ofNat_toNat] at hfirst

end PacketType

/-- PUBLISH keeps all eight bits of its first byte. -/
lemma PublishPacket.HeaderOf.eq {first : UInt8} {flags : PublishFlags}
    (h : PublishPacket.HeaderOf first flags) : first = flags.publishHeaderByte := by
  have hall : ∀ (dup retain : Bool), ∀ n : Fin 256, HeaderOf (UInt8.ofNat n.val) ⟨dup,flags.qos,retain⟩ →
      UInt8.ofNat n.val = (PublishFlags.mk dup flags.qos retain).publishHeaderByte := by
    unfold HeaderOf
    cases flags.qos <;> decide +kernel
  have hfirst := hall flags.dup flags.retain ⟨first.toNat,first.toNat_lt⟩
  rw [UInt8.ofNat_toNat] at hfirst
  exact hfirst h

namespace Packet

/-- The slice is one frame, with its remaining length in as few bytes as possible. -/
def OneFrame (w : ℕ) (bytes : Bytes) : Prop :=
  ∃ r k, readVariableLength w bytes.tail = .ok (r,k) () ∧ bytes.length = 1+k+r ∧
    k = variableLengthLength r

/-- Encoding the packet into any buffer with room for the slice writes the slice. -/
def Reencodes (p : Packet T P) (bytes : Bytes) : Prop :=
  ∀ buffer : Bytes, bytes.length ≤ buffer.length → ∃ written,
    p.encode buffer = .ok bytes.length written ∧ written.take bytes.length = bytes

/-- The low four bits of the first byte are the ones of its kind; PUBLISH has a meaning for all of
them. -/
def FlagBitsKept (bytes : Bytes) : Prop :=
  ∃ (first : UInt8) (tail : Bytes), bytes = first::tail ∧ (PacketType.from' (first >>> 4) = .publish ∨
    first &&& (0x0F : UInt8) = (PacketType.from' (first >>> 4)).packetFlags)

section Inverse

variable {bytes body : Bytes} {p : Packet T P}

/-- An accepted frame differs from the frame of its packet in the first byte at most. -/
lemma frame_of_decode (hw : 32 ≤ w) (hT : T ≤ 255) (hP : P ≤ 65535) (hframe : OneFrame w bytes)
    (h : decode w bytes = .ok p ()) : ∃ header body, bytes = frame header body ∧
      p.contents.wire = frame p.firstByte body := by
  obtain ⟨r,k,hr,hlen,hmin⟩ := hframe
  have hr := (readVariableLength_eq_ok hw).mp hr
  have heq : ∀ {header k' body}, FrameAt bytes header k' body → bytes = frame header body := by
    intro header k' body hf
    obtain ⟨tail,rest,rfl,hk,-⟩ := id hf
    rw [List.tail_cons,hk] at hr
    cases hr
    exact hf.eq_frame hlen hmin
  cases hp : p.fixedBody with
  | some body =>
    obtain ⟨k',hplaced⟩ := (decode_fixed_eq_ok hw hp).mp h
    have hone : k' = 1 := by
      obtain ⟨first,second,rest,rfl,-,hk⟩ := id hplaced
      rw [List.tail_cons,hk] at hr
      cases hr
      have hl := fixedBody_length_le hp
      rw [hmin,variableLengthLength,if_pos (by omega)]
    subst hone
    obtain ⟨header,-,hf⟩ := hplaced.frameAt
    exact ⟨header,body,heq hf,wire_of_fixedBody hp⟩
  | none =>
    obtain ⟨header,k',body,hf,hs⟩ := (decode_variable_eq_ok hw hp).mp h
    exact ⟨header,body,heq hf,(hs.sound hT hP).2⟩

/-- The encoder restores the first byte of an accepted frame exactly when its low bits are those of
the kind. -/
lemma firstByte_iff (hw : 32 ≤ w) {first : UInt8} {tail : Bytes}
    (h : decode w (first::tail) = .ok p ()) :
    first = p.firstByte ↔ FlagBitsKept (first::tail) := by
  have ht := packetType_of_decode h
  have hkept : FlagBitsKept (first::tail) ↔
      p.packetType = .publish ∨ first &&& 0x0F = p.packetType.packetFlags := by
    rw [← ht]
    constructor
    · rintro ⟨_,_,heq,h⟩
      cases heq
      exact h
    · intro h
      exact ⟨first,tail,rfl,h⟩
  have hother : p.packetType ≠ .publish →
      p.firstByte = headerFirstByte p.packetType p.packetType.packetFlags := by
    intro hne
    cases p <;> first | rfl | exact absurd rfl hne
  rw [hkept]
  by_cases hpublish : p.packetType = .publish
  · refine iff_of_true ?_ (.inl hpublish)
    cases p <;> cases hpublish
    obtain ⟨header,k,body,hf,hs,-⟩ := (decode_variable_eq_ok hw rfl).mp h
    obtain ⟨_,_,heq,-⟩ := hf
    cases heq
    exact hs.eq
  · rw [hother hpublish,PacketType.headerFirstByte_iff ht]
    simp [hpublish]

/-- An accepted frame is encoded again byte for byte exactly when its reserved flag bits are the
ones of its kind: the decoders check none of them. -/
theorem reencodes_iff (hw : 32 ≤ w) (hT : T ≤ 255) (hP : P ≤ 65535) (hframe : OneFrame w bytes)
    (h : decode w bytes = .ok p ()) : Reencodes p bytes ↔ FlagBitsKept bytes := by
  obtain ⟨header,body,hbytes,hwire⟩ := frame_of_decode hw hT hP hframe h
  have hwf := wellFormed_of_decode hw hT hP h
  have hlen : bytes.length = p.contents.wire.length := by
    rw [hbytes,hwire]
    rfl
  have hfirst : bytes = p.contents.wire ↔ FlagBitsKept bytes := by
    rw [hwire]
    subst hbytes
    rw [frame] at h ⊢
    rw [← firstByte_iff hw h,frame,List.cons.injEq,and_iff_left rfl]
  rw [← hfirst]
  constructor
  · intro hall
    obtain ⟨written,he,hw⟩ := hall bytes le_rfl
    rw [encode_eq hT hP hwf hlen.ge,Outcome.ok.injEq] at he
    rw [← hw,← he.2,hlen,List.take_left]
  · intro heq buffer hroom
    rw [hlen] at hroom ⊢
    exact ⟨_,encode_eq hT hP hwf hroom,by rw [List.take_left,heq]⟩

end Inverse

/-- A PUBREL with the bit that its kind sets. -/
theorem reencodes_pubRel : Reencodes (pubRel ⟨1⟩ : Packet 30 128) [0x62,0x02,0x00,0x01] :=
  (reencodes_iff (show 32 ≤ 64 by decide) (by decide) (by decide)
    ⟨2,1,by decide,by decide,by decide⟩ (by decide)).mpr ⟨_,_,rfl,.inr (by decide)⟩

/-- A PUBREL without the bit that its kind sets is accepted, and encoded with that bit. -/
theorem pubRel_not_reencoded : ¬ ∀ (bytes : Bytes) (p : Packet 30 128), OneFrame 64 bytes →
    decode 64 bytes = .ok p () → Reencodes p bytes := by
  intro h
  obtain ⟨written,he,hw⟩ := h [0x60,0x02,0x00,0x01] (pubRel ⟨1⟩) ⟨2,1,by decide,by decide,by decide⟩
    (by decide) [0,0,0,0] (by decide)
  have henc : (pubRel ⟨1⟩ : Packet 30 128).encode [0,0,0,0] = .ok 4 [0x62,0x02,0x00,0x01] := by decide
  rw [henc] at he
  cases he
  revert hw
  decide

end Packet

end Picobroker
