import Picobroker.Protocol.Packets.Safety

/-! What the decoders accept: ten kinds read their fields from the third byte on, the others behind the
length field that they read. -/
namespace Picobroker
open Rust

variable {T P w : ℕ}

/-! ### The kinds of fixed layout -/

section Fixed

variable {packetType : PacketType} {bytes : Bytes}

/-- The slice holds these bytes from its third on, under a length field that announces their
number in `k` bytes. -/
def PlacedAt (bytes : Bytes) (packetType : PacketType) (k : ℕ) (body : Bytes) : Prop :=
  ∃ first second rest, bytes = first::second::(body ++ rest) ∧
    PacketType.from' (first >>> 4) = packetType ∧
    lengthField (second::(body ++ rest)) = .complete body.length k

lemma decodeHeader_placed (hw : 32 ≤ w) {body : Bytes} (hbody : body.length = 0 ∨ body.length = 2)
    {k : ℕ} (h : PlacedAt bytes packetType k body) :
    decodeHeader w packetType (body.length+2) bytes () = .ok () () := by
  obtain ⟨first,second,rest,rfl,ht,hk⟩ := h
  rw [decodeHeader_eq_ok hw (by omega)]
  refine ⟨?_,first,_,k,rfl,ht,hk⟩
  simp only [List.length_cons,List.length_append]
  omega

lemma decodePacketId_eq_ok (hw : 32 ≤ w) {packetId : UInt16} :
    decodePacketId w packetType bytes () = .ok packetId () ↔
      ∃ k, PlacedAt bytes packetType k (toBeBytes packetId) := by
  constructor
  · intro h
    obtain ⟨u,s,hh,-⟩ := Proc.bind_eq_ok.mp h
    have hl := length_of_decodeHeader hh
    rw [decodePacketId_eq hh hl] at h
    cases h
    obtain ⟨-,first,tail,k,rfl,ht,hk⟩ := (decodeHeader_eq_ok hw (.inr rfl)).mp hh
    obtain ⟨b₀,b₁,b₂,b₃,rest,hb⟩ := exists_four hl
    cases hb
    refine ⟨k,first,b₁,rest,?_,ht,?_⟩
    · rw [toBeBytes_fromBeBytes]
      rfl
    · rw [toBeBytes_fromBeBytes]
      exact hk
  · rintro ⟨k,h⟩
    have hh : decodeHeader w packetType 4 bytes () = .ok () () := decodeHeader_placed hw (.inr rfl) h
    rw [decodePacketId_eq hh (length_of_decodeHeader hh)]
    obtain ⟨first,second,rest,rfl,-⟩ := h
    exact congrArg (fun x => Outcome.ok x ()) (fromBeBytes_toBeBytes packetId)

lemma sessionPresentOf_eq_some {b : UInt8} {sessionPresent : Bool} :
    ConnAckPacket.sessionPresentOf b = some sessionPresent ↔ b = if sessionPresent then 1 else 0 := by
  constructor
  · intro h
    unfold ConnAckPacket.sessionPresentOf at h
    split at h <;> cases h <;> rfl
  · rintro rfl
    cases sessionPresent <;> rfl

lemma tryFrom_eq_some {b : UInt8} {c : ConnectReturnCode} :
    ConnectReturnCode.tryFrom b = some c ↔ b = c.toU8 := by
  constructor
  · intro h
    unfold ConnectReturnCode.tryFrom at h
    split at h <;> cases h <;> rfl
  · rintro rfl
    exact ConnectReturnCode.tryFrom_toU8 c

lemma connAck_decode_eq_ok (hw : 32 ≤ w) {p : ConnAckPacket} :
    ConnAckPacket.decode w bytes () = .ok p () ↔ ∃ k, PlacedAt bytes .connAck k p.body := by
  constructor
  · intro h
    obtain ⟨u,s,hh,h⟩ := Proc.bind_eq_ok.mp h
    obtain ⟨-,first,tail,k,rfl,ht,hk⟩ := (decodeHeader_eq_ok hw (.inr rfl)).mp hh
    obtain ⟨b₀,b₁,b₂,b₃,rest,hb⟩ := exists_four (length_of_decodeHeader hh)
    cases hb
    obtain ⟨_,_,h₂,h⟩ := Proc.bind_eq_ok.mp h
    obtain ⟨sp,_,hsp,h⟩ := Proc.bind_eq_ok.mp h
    obtain ⟨_,_,h₃,h⟩ := Proc.bind_eq_ok.mp h
    obtain ⟨code,_,hcode,h⟩ := Proc.bind_eq_ok.mp h
    cases h
    cases h₂
    cases h₃
    have hsp := sessionPresentOf_eq_some.mp (Proc.okOr_eq_ok.mp hsp).1
    have hcode := tryFrom_eq_some.mp (Proc.okOr_eq_ok.mp hcode).1
    subst hsp hcode
    exact ⟨k,first,b₁,rest,rfl,ht,hk⟩
  · rintro ⟨k,h⟩
    have hh : decodeHeader w .connAck 4 bytes () = .ok () () := decodeHeader_placed hw (.inr rfl) h
    obtain ⟨first,second,rest,rfl,-⟩ := h
    rw [ConnAckPacket.decode,Proc.bind_apply,hh,Outcome.andThen_ok,ConnAckPacket.body]
    obtain ⟨sessionPresent,returnCode⟩ := p
    cases sessionPresent <;> cases returnCode <;> rfl

/-- The checks of SUBACK in front of its fields. -/
lemma subAck_decode_cons (w : ℕ) (first b₁ b₂ b₃ b₄ : UInt8) (rest : Bytes) :
    SubAckPacket.decode w (first::b₁::b₂::b₃::b₄::rest) () =
      if PacketType.from' (first >>> 4) ≠ .subAck then .err (.invalidPacketType (first >>> 4)) ()
      else (readVariableLength w (b₁::b₂::b₃::b₄::rest)).andThen (fun x => do
        Proc.failIf (x.1 ≠ 3) (.invalidPacketLength 3 x.1)
        let grantedQos ← QoS.decode b₄
        pure ⟨fromBeBytes b₂ b₃,grantedQos⟩) := by
  rw [SubAckPacket.decode,Proc.bind_apply,Proc.failIf_neg (by simp),Outcome.andThen_ok,
    Proc.bind_apply,index_zero,Outcome.andThen_ok,validatePacketType,Proc.bind_apply]
  by_cases ht : PacketType.from' (first >>> 4) ≠ .subAck
  · rw [if_pos ht,Proc.failIf_pos ht]
    rfl
  · rw [if_neg ht,Proc.failIf_neg ht,Outcome.andThen_ok,Proc.bind_apply,readRemainingLength_cons]
    cases readVariableLength w (b₁::b₂::b₃::b₄::rest) <;> rfl

lemma subAck_decode_eq_ok (hw : 32 ≤ w) {p : SubAckPacket} :
    SubAckPacket.decode w bytes () = .ok p () ↔ ∃ k, PlacedAt bytes .subAck k p.body := by
  constructor
  · intro h
    have hlen : ¬ bytes.length < 5 := by
      intro hc
      rw [SubAckPacket.decode,Proc.bind_apply,Proc.failIf_pos hc] at h
      cases h
    obtain ⟨first,b₁,b₂,b₃,tail,rfl⟩ := exists_four (show 4 ≤ bytes.length by omega)
    simp only [List.length_cons] at hlen
    obtain ⟨b₄,rest,rfl⟩ := List.exists_cons_of_length_pos (show 0 < tail.length by omega)
    rw [subAck_decode_cons] at h
    split at h
    · cases h
    rename_i ht
    obtain ⟨⟨r,k⟩,_,hr,h⟩ := Outcome.andThen_eq_ok.mp h
    obtain ⟨_,_,h₃,h⟩ := Proc.bind_eq_ok.mp h
    obtain ⟨q,_,hq,h⟩ := Proc.bind_eq_ok.mp h
    cases h
    have h₃ := not_ne_iff.mp (Proc.failIf_eq_ok.mp h₃).1
    have hq := QoS.fromU8_eq_some.mp (Proc.okOr_eq_ok.mp hq).1
    simp only at h₃
    subst h₃ hq
    have hbody : SubAckPacket.body ⟨fromBeBytes b₂ b₃,q⟩ = [b₂,b₃,q.toU8] := by
      rw [SubAckPacket.body,toBeBytes_fromBeBytes]
      rfl
    refine ⟨k,first,b₁,rest,?_,not_ne_iff.mp ht,?_⟩
    · rw [hbody]
      rfl
    · rw [hbody]
      exact (readVariableLength_eq_ok hw).mp hr
  · rintro ⟨k,first,second,rest,rfl,ht,hk⟩
    have hr := (readVariableLength_eq_ok hw).mpr hk
    rw [SubAckPacket.body,toBeBytes] at hr ⊢
    simp only [List.cons_append,List.nil_append] at hr ⊢
    rw [subAck_decode_cons,if_neg (not_not_intro ht),hr,Outcome.andThen_ok,Proc.bind_apply,
      Proc.failIf_neg (by simp),Outcome.andThen_ok,QoS.decode,QoS.fromU8_toU8,Proc.bind_apply,
      Proc.okOr_some,Outcome.andThen_ok,fromBeBytes_toBeBytes]
    rfl

lemma decodeHeader_empty_eq_ok (hw : 32 ≤ w) :
    decodeHeader w packetType 2 bytes () = .ok () () ↔ ∃ k, PlacedAt bytes packetType k [] := by
  constructor
  · intro h
    obtain ⟨hl,first,tail,k,rfl,ht,hk⟩ := (decodeHeader_eq_ok hw (.inl rfl)).mp h
    obtain ⟨b₀,b₁,rest,hb⟩ := exists_two hl
    cases hb
    exact ⟨k,first,b₁,rest,rfl,ht,hk⟩
  · rintro ⟨k,h⟩
    exact decodeHeader_placed hw (.inl rfl) h

end Fixed

namespace Packet

/-- What a packet of fixed layout carries behind its length field. -/
def fixedBody : Packet T P → Option Bytes
  | connAck packet => some packet.body
  | pubAck packet => some (toBeBytes packet.packetId)
  | pubRec packet => some (toBeBytes packet.packetId)
  | pubRel packet => some (toBeBytes packet.packetId)
  | pubComp packet => some (toBeBytes packet.packetId)
  | subAck packet => some packet.body
  | unsubAck packet => some (toBeBytes packet.packetId)
  | pingReq _ => some []
  | pingResp _ => some []
  | disconnect _ => some []
  | _ => none

section Decode

variable {first : UInt8} {tail bytes : Bytes} {p : Packet T P}

lemma map_eq_ok {α β : Type} {r : Proc Unit ProtocolError α} {f : α → β} {a : α}
    (hf : ∀ a', f a' = f a → a' = a) :
    (do pure (f (← r)) : Proc Unit ProtocolError β) () = .ok (f a) () ↔ r () = .ok a () := by
  rw [Proc.bind_eq_ok]
  constructor
  · rintro ⟨a',_,hr,h⟩
    simp only [Proc.pure_apply,Outcome.ok.injEq] at h
    rw [hr,hf a' h.1]
  · intro hr
    exact ⟨a,(),hr,rfl⟩

/-- The kind of the packet is the one its first byte names. -/
lemma packetType_of_decode (h : decode w (first::tail) = .ok p ()) :
    PacketType.from' (first >>> 4) = p.packetType := by
  rw [decode,Proc.bind_apply,index_zero,Outcome.andThen_ok] at h
  cases ht : PacketType.from' (first >>> 4) <;> simp only [ht] at h <;> first
    | cases h
    | obtain ⟨_,_,-,h⟩ := Proc.bind_eq_ok.mp h
      cases h
      rfl

/-- The kinds of fixed layout: the body is read from the third byte on, whatever the number of
length bytes. -/
theorem decode_fixed_eq_ok (hw : 32 ≤ w) {body : Bytes} (hp : p.fixedBody = some body) :
    decode w bytes = .ok p () ↔ ∃ k, PlacedAt bytes p.packetType k body := by
  have hdispatch : ∀ (first : UInt8) tail, PacketType.from' (first >>> 4) = p.packetType →
      (decode w (first::tail) = .ok p () ↔ ∃ k, PlacedAt (first::tail) p.packetType k body) := by
    intro first tail ht
    rw [decode,Proc.bind_apply,index_zero,Outcome.andThen_ok]
    cases p <;> cases hp <;> simp only [packetType] at ht ⊢ <;> simp only [ht]
    case connAck packet =>
      exact (map_eq_ok (fun _ h => connAck.inj h)).trans (connAck_decode_eq_ok hw)
    case subAck packet =>
      exact (map_eq_ok (fun _ h => subAck.inj h)).trans (subAck_decode_eq_ok hw)
    case pubAck packet =>
      exact (map_eq_ok (fun _ h => pubAck.inj h)).trans
        ((map_eq_ok (fun _ h => congrArg PubAckPacket.packetId h)).trans (decodePacketId_eq_ok hw))
    case pubRec packet =>
      exact (map_eq_ok (fun _ h => pubRec.inj h)).trans
        ((map_eq_ok (fun _ h => congrArg PubRecPacket.packetId h)).trans (decodePacketId_eq_ok hw))
    case pubRel packet =>
      exact (map_eq_ok (fun _ h => pubRel.inj h)).trans
        ((map_eq_ok (fun _ h => congrArg PubRelPacket.packetId h)).trans (decodePacketId_eq_ok hw))
    case pubComp packet =>
      exact (map_eq_ok (fun _ h => pubComp.inj h)).trans
        ((map_eq_ok (fun _ h => congrArg PubCompPacket.packetId h)).trans (decodePacketId_eq_ok hw))
    case unsubAck packet =>
      exact (map_eq_ok (fun _ h => unsubAck.inj h)).trans
        ((map_eq_ok (fun _ h => congrArg UnsubAckPacket.packetId h)).trans (decodePacketId_eq_ok hw))
    case pingReq packet =>
      exact (map_eq_ok (fun _ _ => rfl)).trans
        ((map_eq_ok (fun _ _ => rfl)).trans (decodeHeader_empty_eq_ok hw))
    case pingResp packet =>
      exact (map_eq_ok (fun _ _ => rfl)).trans
        ((map_eq_ok (fun _ _ => rfl)).trans (decodeHeader_empty_eq_ok hw))
    case disconnect packet =>
      exact (map_eq_ok (fun _ _ => rfl)).trans
        ((map_eq_ok (fun _ _ => rfl)).trans (decodeHeader_empty_eq_ok hw))
  constructor
  · intro h
    cases bytes with
    | nil => cases h
    | cons first tail => exact (hdispatch first tail (packetType_of_decode h)).mp h
  · intro h
    obtain ⟨first,second,rest,rfl,ht,-⟩ := h.choose_spec
    exact (hdispatch first _ ht).mpr h

/-- What a frame of one of the other kinds says: its header byte and body spell the packet. -/
def Spells (header : UInt8) (body : Bytes) : Packet T P → Prop
  | connect packet => PacketType.from' (header >>> 4) = .connect ∧ ConnectPacket.Body body packet
  | publish packet => PublishPacket.HeaderOf header packet.flags ∧ PublishPacket.Body body packet
  | subscribe packet =>
    (header >>> 4) &&& 0x0F = PacketType.subscribe.toU8 ∧ SubscribePacket.Body body packet
  | unsubscribe packet =>
    (header >>> 4) &&& 0x0F = PacketType.unsubscribe.toU8 ∧ UnsubscribePacket.Body body packet
  | _ => False

lemma Spells.packetType_eq {header : UInt8} {body : Bytes} (h : Spells header body p) :
    PacketType.from' (header >>> 4) = p.packetType := by
  cases p with
  | connect packet => exact h.1
  | publish packet => exact (nibble_iff _ _).mp h.1.1
  | subscribe packet => exact (nibble_iff _ _).mp h.1
  | unsubscribe packet => exact (nibble_iff _ _).mp h.1
  | _ => exact h.elim

lemma call_eq_ok {α : Type} {o : Outcome Unit ProtocolError α} {a : α} :
    (Proc.call o : Proc Unit ProtocolError α) () = .ok a () ↔ o = .ok a () := by
  rw [Proc.call_eq_ok,and_iff_left rfl]

/-- The kinds of variable layout: the body is read behind the length field, to its announced end. -/
theorem decode_variable_eq_ok (hw : 32 ≤ w) (hp : p.fixedBody = none) :
    decode w bytes = .ok p () ↔
      ∃ header k body, FrameAt bytes header k body ∧ Spells header body p := by
  have hdispatch : ∀ (first : UInt8) tail, PacketType.from' (first >>> 4) = p.packetType →
      (decode w (first::tail) = .ok p () ↔
        ∃ header k body, FrameAt (first::tail) header k body ∧ Spells header body p) := by
    intro first tail ht
    rw [decode,Proc.bind_apply,index_zero,Outcome.andThen_ok]
    cases p <;> cases hp <;> simp only [packetType] at ht <;> simp only [ht]
    case connect packet =>
      exact (map_eq_ok (fun _ h => connect.inj h)).trans
        (call_eq_ok.trans (ConnectPacket.decode_eq_ok hw))
    case publish packet =>
      exact (map_eq_ok (fun _ h => publish.inj h)).trans
        (call_eq_ok.trans (PublishPacket.decode_eq_ok hw))
    case subscribe packet =>
      exact (map_eq_ok (fun _ h => subscribe.inj h)).trans
        (call_eq_ok.trans (decodeBody_eq_ok hw SubscribePacket.decides_decodeFields))
    case unsubscribe packet =>
      exact (map_eq_ok (fun _ h => unsubscribe.inj h)).trans
        (call_eq_ok.trans (decodeBody_eq_ok hw UnsubscribePacket.decides_decodeFields))
  constructor
  · intro h
    cases bytes with
    | nil => cases h
    | cons first tail => exact (hdispatch first tail (packetType_of_decode h)).mp h
  · rintro ⟨header,k,body,hf,hs⟩
    obtain ⟨tail,rest,rfl,-⟩ := id hf
    exact (hdispatch header tail hs.packetType_eq).mpr ⟨header,k,body,hf,hs⟩

end Decode

end Packet

end Picobroker
