import Picobroker.Protocol.Packets.RoundTrip

/-! How much of a slice a decoder looks at. A length field of more bytes than needed moves the frame,
but not the place where the kinds of fixed layout are read. -/
namespace Picobroker
open Rust

variable {T P w : ℕ}

/-- The two bytes that a length field of `k ≥ 2` bytes and a value below 128 puts, together with
what follows, in the place of a packet identifier. -/
def paddingId : ℕ → UInt16
  | 2 => 0x0000
  | 3 => 0x8000
  | _ => 0x8080

/-- Read behind an overlong field, the identifier is the one at the fixed place only if both are
the padding of the field. -/
lemma padding_iff {id : UInt16} {second : UInt8} {more : Bytes} {r k : ℕ}
    (hk : lengthField (second::(toBeBytes id ++ more)) = .complete r k) (hr : r < 128)
    (hlong : k ≠ 1) (after : Bytes) :
    (second::(toBeBytes id ++ more)).drop k = toBeBytes id ++ after ↔
      (second::(toBeBytes id ++ more)).drop k = toBeBytes (paddingId k) ++ after := by
  obtain ⟨-,hpos,-,hle⟩ := lengthFieldWithin_complete hk
  have hdigits := take_of_lengthField hk
  have hr₁ : r/128 = 0 := by omega
  rw [toBeBytes] at hdigits ⊢
  simp only [List.cons_append,List.nil_append] at hdigits ⊢
  generalize UInt8.ofNat (id.toNat/256) = hi at hdigits ⊢
  generalize UInt8.ofNat (id.toNat%256) = lo at hdigits ⊢
  obtain rfl | rfl | rfl : k = 2 ∨ k = 3 ∨ k = 4 := by omega
  · -- the field ends in front of the second byte of the identifier
    simp only [lengthDigits,hr₁,List.take_succ_cons,List.cons.injEq] at hdigits
    obtain ⟨-,rfl,-⟩ := hdigits
    simp only [List.drop_succ_cons,List.drop_zero,paddingId,toBeBytes,List.cons_append,
      List.nil_append,List.cons.injEq]
    constructor
    · rintro ⟨rfl,h⟩
      exact ⟨rfl,h⟩
    · rintro ⟨rfl,h⟩
      exact ⟨rfl,h⟩
  · simp only [lengthDigits,hr₁,List.take_succ_cons,List.cons.injEq] at hdigits
    obtain ⟨-,rfl,rfl,-⟩ := hdigits
    rfl
  · simp only [lengthDigits,hr₁,List.take_succ_cons,List.cons.injEq] at hdigits
    obtain ⟨-,rfl,rfl,-⟩ := hdigits
    rfl

/-- An acknowledgement with `extra` bytes behind its identifier: the length field takes one byte, or
the identifier behind the field is its padding. -/
def AckKept (extra k : ℕ) (tail : Bytes) : Prop :=
  k = 1 ∨ ∃ more, extra ≤ more.length ∧ tail.drop k = toBeBytes (paddingId k) ++ more

lemma PlacedAt.ack_iff {bytes extra : Bytes} {packetType : PacketType} {k : ℕ} {id : UInt16}
    (h : PlacedAt bytes packetType k (toBeBytes id ++ extra)) (hextra : extra.length < 126) :
    (1+k+(toBeBytes id ++ extra).length ≤ bytes.length ∧
      ∃ rest, bytes.drop (1+k) = toBeBytes id ++ rest) ↔ AckKept extra.length k bytes.tail := by
  obtain ⟨first,second,rest,rfl,-,hk⟩ := h
  rw [List.append_assoc] at hk ⊢
  have hkl := (lengthField_complete hk).2.2
  rw [List.tail_cons,drop_one_add,List.length_append,toBeBytes_length,
    List.length_cons]
  by_cases hone : k = 1
  · subst hone
    refine ⟨fun _ => .inl rfl,fun _ => ⟨?_,extra ++ rest,rfl⟩⟩
    simp only [List.length_cons,List.length_append,toBeBytes_length]
    omega
  · have hpad := padding_iff hk (by rw [List.length_append,toBeBytes_length]; omega) hone
    have hlen : ∀ after, (second::(toBeBytes id ++ (extra ++ rest))).drop k =
        toBeBytes (paddingId k) ++ after →
        (second::(toBeBytes id ++ (extra ++ rest))).length = k+2+after.length := by
      intro after hd
      have hl := congrArg List.length hd
      rw [List.length_drop,List.length_append,toBeBytes_length] at hl
      omega
    constructor
    · rintro ⟨hle,after,hd⟩
      rw [hpad] at hd
      have hl := hlen after hd
      exact .inr ⟨after,by omega,hd⟩
    · rintro (hc | ⟨after,hle,hd⟩)
      · exact absurd hc hone
      · have hl := hlen after hd
        exact ⟨by omega,after,(hpad after).mpr hd⟩

/-- CONNACK has legal flags only where a field of at most two bytes leaves them. -/
lemma PlacedAt.connAck_iff {bytes : Bytes} {packetType : PacketType} {k : ℕ} {p : ConnAckPacket}
    (h : PlacedAt bytes packetType k p.body) :
    1+k+p.body.length ≤ bytes.length ↔ k = 1 ∨ 5 ≤ bytes.length := by
  obtain ⟨first,second,rest,rfl,-,hk⟩ := h
  obtain ⟨-,hpos,-,hle⟩ := lengthFieldWithin_complete hk
  have hdigits := take_of_lengthField hk
  have hflag : ∀ b : Bool, (if b then (1 : UInt8) else 0) ≠ 0x80 := by decide
  have hbody : p.body.length = 2 := rfl
  simp only [List.length_cons,List.length_append,hbody] at hdigits ⊢
  rw [ConnAckPacket.body] at hdigits
  obtain rfl | rfl | rfl | rfl : k = 1 ∨ k = 2 ∨ k = 3 ∨ k = 4 := by omega
  · omega
  · omega
  · simp only [lengthDigits,List.cons_append,List.take_succ_cons,List.cons.injEq] at hdigits
    exact absurd hdigits.2.1 (hflag _)
  · simp only [lengthDigits,List.cons_append,List.take_succ_cons,List.cons.injEq] at hdigits
    exact absurd hdigits.2.1 (hflag _)

lemma PlacedAt.take {bytes body : Bytes} {packetType : PacketType} {k n : ℕ}
    (h : PlacedAt bytes packetType k body) (hn : 1+k+body.length ≤ n) :
    PlacedAt (bytes.take n) packetType k body := by
  obtain ⟨first,second,rest,rfl,ht,hk⟩ := h
  have hpos := (lengthField_complete hk).2.1
  obtain ⟨m,rfl⟩ : ∃ m, n = m+2 := ⟨n-2,by omega⟩
  have hbody : (body ++ rest).take m = body ++ rest.take (m-body.length) := by
    rw [List.take_append,List.take_of_length_le (by omega)]
  refine ⟨first,second,rest.take (m-body.length),?_,ht,?_⟩
  · rw [List.take_succ_cons,List.take_succ_cons,hbody]
  · rw [← hbody,← List.take_succ_cons]
    exact lengthField_take hk (by omega)

lemma getElem?_pair_iff {bytes : Bytes} {i : ℕ} {id : UInt16} :
    (∃ hi lo, bytes[i]? = some hi ∧ bytes[i+1]? = some lo ∧ id = fromBeBytes hi lo) ↔
      ∃ rest, bytes.drop i = toBeBytes id ++ rest := by
  have h₀ : bytes[i]? = (bytes.drop i)[0]? := by rw [List.getElem?_drop,Nat.add_zero]
  rw [h₀,← List.getElem?_drop]
  constructor
  · rintro ⟨hi,lo,hh,hl,rfl⟩
    rw [toBeBytes_fromBeBytes]
    generalize bytes.drop i = tail at hh hl
    match tail,hh,hl with
    | _::_::rest,rfl,rfl => exact ⟨rest,rfl⟩
  · rintro ⟨rest,h⟩
    rw [h]
    exact ⟨_,_,rfl,rfl,(fromBeBytes_toBeBytes id).symm⟩

namespace Packet

/-- The identifier of an acknowledgement. -/
def ackId : Packet T P → Option UInt16
  | pubAck packet => some packet.packetId
  | pubRec packet => some packet.packetId
  | pubRel packet => some packet.packetId
  | pubComp packet => some packet.packetId
  | unsubAck packet => some packet.packetId
  | subAck packet => some packet.packetId
  | _ => none

/-- The packet was decoded from the announced frame: the slice holds that frame, what follows it is
ignored, and an identifier is the one behind the length field. -/
def KeepsToFrame (w : ℕ) (bytes : Bytes) (p : Packet T P) : Prop :=
  ∃ r k, readVariableLength w bytes.tail = .ok (r,k) () ∧ 1+k+r ≤ bytes.length ∧
    (decode w (bytes.take (1+k+r)) : Outcome Unit ProtocolError (Packet T P)) = decode w bytes ∧
    ∀ id ∈ p.ackId, ∃ hi lo, bytes[1+k]? = some hi ∧ bytes[2+k]? = some lo ∧ id = fromBeBytes hi lo

/-- What a length field of `k` bytes may leave behind it: the kinds without fields, and those whose
decoders follow the length field, do not depend on it. -/
def KeptAt (packetType : PacketType) (k : ℕ) (tail : Bytes) : Prop :=
  match packetType with
  | .connAck => k = 1 ∨ 4 ≤ tail.length
  | .pubAck | .pubRec | .pubRel | .pubComp | .unsubAck => AckKept 0 k tail
  | .subAck => AckKept 1 k tail
  | _ => True

/-- The slices whose frame is respected. -/
def FrameKept (bytes : Bytes) : Prop :=
  ∃ first tail r k, bytes = first::tail ∧ lengthField tail = .complete r k ∧
    KeptAt (PacketType.from' (first >>> 4)) k tail

section Kept

variable {bytes body : Bytes} {p : Packet T P} {k : ℕ}

lemma keepsToFrame_of_length (hw : 32 ≤ w) {r : ℕ} (hk : lengthField bytes.tail = .complete r k)
    (htake : (decode w (bytes.take (1+k+r)) : Outcome Unit ProtocolError (Packet T P)) =
      decode w bytes) :
    KeepsToFrame w bytes p ↔ 1+k+r ≤ bytes.length ∧
      ∀ id ∈ p.ackId, ∃ rest, bytes.drop (1+k) = toBeBytes id ++ rest := by
  have hread := (readVariableLength_eq_ok hw).mpr hk
  unfold KeepsToFrame
  simp only [← getElem?_pair_iff,show 1+k+1 = 2+k by omega]
  constructor
  · rintro ⟨r',k',hr,hle,-,hid⟩
    rw [hread] at hr
    cases hr
    exact ⟨hle,hid⟩
  · rintro ⟨hle,hid⟩
    exact ⟨r,k,hread,hle,htake,hid⟩

lemma frameKept_iff {first : UInt8} {tail : Bytes} {r : ℕ} (hk : lengthField tail = .complete r k) :
    FrameKept (first::tail) ↔ KeptAt (PacketType.from' (first >>> 4)) k tail := by
  constructor
  · rintro ⟨_,_,r',k',heq,hk',h⟩
    cases heq
    rw [hk] at hk'
    cases hk'
    exact h
  · intro h
    exact ⟨first,tail,r,k,rfl,hk,h⟩

lemma keptAt_iff (hp : p.fixedBody = some body) (h : PlacedAt bytes p.packetType k body) :
    (1+k+body.length ≤ bytes.length ∧
      ∀ id ∈ p.ackId, ∃ rest, bytes.drop (1+k) = toBeBytes id ++ rest) ↔
      KeptAt p.packetType k bytes.tail := by
  have hack : ∀ {id extra}, p.ackId = some id → body = toBeBytes id ++ extra → extra.length < 126 →
      ((1+k+body.length ≤ bytes.length ∧
        ∀ id ∈ p.ackId, ∃ rest, bytes.drop (1+k) = toBeBytes id ++ rest) ↔
          AckKept extra.length k bytes.tail) := by
    intro id extra hid hbody hextra
    subst hbody
    rw [← h.ack_iff hextra,hid]
    simp
  have hempty : p.ackId = none → body = [] → (1+k+body.length ≤ bytes.length ∧
      ∀ id ∈ p.ackId, ∃ rest, bytes.drop (1+k) = toBeBytes id ++ rest) := by
    intro hid hbody
    subst hbody
    obtain ⟨first,second,rest,rfl,-,hk⟩ := h
    have hkl := (lengthField_complete hk).2.2
    refine ⟨?_,by simp [hid]⟩
    rw [List.nil_append] at hkl ⊢
    rw [List.length_cons (a := first)]
    simp only [List.length_nil]
    omega
  cases p with
  | connAck packet =>
    cases hp
    have hlen : 4 ≤ bytes.tail.length ↔ 5 ≤ bytes.length := by
      rw [List.length_tail]
      omega
    rw [packetType,KeptAt,hlen,← h.connAck_iff]
    simp [ackId]
  | subAck packet => exact hack rfl (Option.some.inj hp).symm (by simp)
  | pubAck packet | pubRec packet | pubRel packet | pubComp packet | unsubAck packet =>
    exact hack rfl ((Option.some.inj hp).symm.trans (List.append_nil _).symm) (by simp)
  | pingReq packet | pingResp packet | disconnect packet =>
    exact iff_of_true (hempty rfl (Option.some.inj hp).symm) trivial
  | _ => cases hp

/-- An accepted slice keeps to its frame exactly when the length field takes one byte, or nothing is
read at a fixed place behind it, or what is read there is what stands behind the field as well. -/
theorem keepsToFrame_iff (hw : 32 ≤ w) (h : decode w bytes = .ok p ()) :
    KeepsToFrame w bytes p ↔ FrameKept bytes := by
  cases hp : p.fixedBody with
  | some body =>
    obtain ⟨k,hplaced⟩ := (decode_fixed_eq_ok hw hp).mp h
    have hfield : lengthField bytes.tail = .complete body.length k := by
      obtain ⟨_,_,_,rfl,-,hk⟩ := hplaced
      exact hk
    have htake : (decode w (bytes.take (1+k+body.length)) : Outcome Unit ProtocolError
        (Packet T P)) = decode w bytes := by
      rw [h]
      exact (decode_fixed_eq_ok hw hp).mpr ⟨k,hplaced.take le_rfl⟩
    rw [keepsToFrame_of_length hw hfield htake,keptAt_iff hp hplaced]
    obtain ⟨first,second,rest,rfl,ht,-⟩ := hplaced
    rw [List.tail_cons] at hfield ⊢
    rw [frameKept_iff hfield,ht]
  | none =>
    obtain ⟨header,k,body,hf,hs⟩ := (decode_variable_eq_ok hw hp).mp h
    have hfield : lengthField bytes.tail = .complete body.length k := by
      obtain ⟨_,_,rfl,hk,-⟩ := hf
      exact hk
    have htake : (decode w (bytes.take (1+k+body.length)) : Outcome Unit ProtocolError
        (Packet T P)) = decode w bytes := by
      rw [h]
      exact (decode_variable_eq_ok hw hp).mpr ⟨header,k,body,hf.take le_rfl,hs⟩
    rw [keepsToFrame_of_length hw hfield htake]
    have hid : p.ackId = none := by cases p <;> first | rfl | cases hp
    have hle := hf.length_le
    obtain ⟨tail,rest,rfl,-⟩ := hf
    have ht := packetType_of_decode h
    rw [List.tail_cons] at hfield
    rw [frameKept_iff hfield,ht]
    refine iff_of_true ⟨hle,by simp [hid]⟩ ?_
    cases p <;> trivial

end Kept

/-- A PUBACK under an overlong length field that carries the identifier 0. -/
theorem keepsToFrame_padded :
    KeepsToFrame 64 [0x40,0x82,0x00,0x00,0x00] (pubAck ⟨0⟩ : Packet 30 128) :=
  (keepsToFrame_iff (by decide) (by decide)).mpr
    ⟨0x40,[0x82,0x00,0x00,0x00],2,2,rfl,by decide,.inr ⟨[],by decide,by decide⟩⟩

/-- A PUBACK whose length field takes two bytes: the identifier 0x1234 behind it is read as 0x0012. -/
theorem pubAck_leaves_frame : ¬ ∀ (bytes : Bytes) (p : Packet 30 128),
    decode 64 bytes = .ok p () → KeepsToFrame 64 bytes p := by
  intro h
  obtain ⟨r,k,hr,-,-,hid⟩ := h [0x40,0x82,0x00,0x12,0x34] (pubAck ⟨0x0012⟩) (by decide)
  have hlen : readVariableLength 64 [0x82,0x00,0x12,0x34] = .ok (2,2) () := by decide
  rw [List.tail_cons,hlen] at hr
  cases hr
  obtain ⟨hi,lo,hh,hl,hid⟩ := hid _ rfl
  cases hh
  cases hl
  revert hid
  decide

end Packet

end Picobroker
