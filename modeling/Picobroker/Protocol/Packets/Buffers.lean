import Picobroker.Protocol.Packets.RoundTrip
import Picobroker.Protocol.VariableLength

/-! What the encoders do with a buffer that is too short for the frame. -/
namespace Picobroker
open Rust Rust.Cursor

variable {T P : ℕ}

/-- The size of a frame: the header byte, the length field, and what it announces. -/
lemma frame_length {header : UInt8} {body : Bytes} (h : body.length ≤ maxVariableLength) :
    (frame header body).length = 1+variableLengthLength body.length+body.length := by
  rw [frame,List.length_cons,List.length_append,variableLengthBytes_length h]
  omega

/-! ### CONNECT -/

namespace ConnectPacket

variable {p : ConnectPacket T P}

/-- Behind the protocol name, the level, the flags and the keep-alive are written without a
check. -/
lemma short_putHeader (p : ConnectPacket T P) :
    Short p.putHeader (header p.connectFlags p.keepAlive) ProtocolError.IsBufferTooSmall
      (fun n => 6 ≤ n) := by
  have hname := fills_writeBinary mqttProtocolName
  have hall : Short p.putHeader _ _ _ := Short.bind hname.writes hname.reports
    (Short.bind (writes_putByte _) (short_putByte _ _)
      (Short.bind (writes_putByte _) (short_putByte _ _) (short_putSlice _ _)))
  refine Short.congr hall (fun n _ => ?_)
  have hl : (field mqttProtocolName).length = 6 := rfl
  rw [hl]
  split_ifs <;> simp <;> omega

/-- The first byte is written without a check as well. -/
lemma WellFormed.short (hT : T ≤ 255) (hP : P ≤ 65535) (h : p.WellFormed) :
    Short p.encodeFields p.contents.wire ProtocolError.IsBufferTooSmall
      (fun n => n = 0 ∨ 7+variableLengthLength p.remainingLength ≤ n ∧
        n ≤ 10+variableLengthLength p.remainingLength) := by
  have hmax := body_length_le hT hP p
  have hl := fills_putVariableLength hmax
  have hvl := variableLengthBytes_length hmax
  rw [← h.remainingLength] at hl hvl
  have hall : Short p.encodeFields _ _ _ :=
    Short.bind (writes_putByte (headerFirstByte .connect 0)) (short_putByte _ _)
      (Short.bind hl.writes hl.reports
        (Short.bind writes_putHeader (short_putHeader p) h.fills_putPayload.reports))
  have hwire : p.contents.wire = [headerFirstByte .connect 0] ++
      (variableLengthBytes p.remainingLength ++ (header p.connectFlags p.keepAlive ++
        (field p.clientId.bytes ++ (optionField (p.willTopic.map (·.bytes)) ++
          (optionField (p.willPayload.map (·.asSlice)) ++
            (optionField (p.username.map (·.bytes)) ++
              optionField (p.password.map (·.asSlice)))))))) := by
    rw [h.remainingLength]
    simp [Contents.wire,frame,Contents.body,contents]
  rw [hwire]
  refine hall.congr (fun n _ => ?_)
  have hh : (header p.connectFlags p.keepAlive).length = 10 := rfl
  rw [hvl,hh,List.length_singleton]
  split_ifs
  · exact iff_of_true (by omega) trivial
  · exact iff_of_false (by omega) not_false
  · omega
  · exact iff_of_false (by omega) not_false

end ConnectPacket

/-! ### All kinds -/

section Encode

variable {p : Proc Cursor ProtocolError Unit} {enc buffer : Bytes} {gaps : ℕ → Prop}

lemma encodeWith_short (hp : Short p enc ProtocolError.IsBufferTooSmall gaps)
    (h : buffer.length < enc.length) :
    gaps buffer.length ∧ encodeWith p buffer = .abort .panic ∨
      ¬ gaps buffer.length ∧ ∃ n out, encodeWith p buffer = .err (.bufferTooSmall n) out := by
  have hs := hp [] buffer h
  rw [at',List.nil_append,List.length_nil] at hs
  obtain ⟨hg,hpanic⟩ | ⟨hg,_,c,herr,n,rfl⟩ := hs
  · exact .inl ⟨hg,by simp only [encodeWith,hpanic]⟩
  · exact .inr ⟨hg,n,c.buffer,by simp only [encodeWith,herr]⟩

lemma encodeWith_reports (hp : Fills p enc) (h : buffer.length < enc.length) :
    ∃ n out, encodeWith p buffer = .err (.bufferTooSmall n) out := by
  obtain ⟨hg,-⟩ | ⟨-,hr⟩ := encodeWith_short hp.reports h
  · exact hg.elim
  · exact hr

lemma encodePacketId_short {packetType : PacketType} {flags : UInt8} {packetId : UInt16}
    (h : buffer.length < (frame (headerFirstByte packetType flags) (toBeBytes packetId)).length) :
    ∃ n out, encodePacketId packetType flags packetId buffer = .err (.bufferTooSmall n) out := by
  rw [toBeBytes,frame_two] at h
  refine ⟨buffer.length,buffer,?_⟩
  rw [encodePacketId,Proc.bind_apply,Proc.get_apply,Outcome.andThen_ok,validateBufferSize,
    Proc.bind_apply,Proc.failIf_pos (by simpa using h)]
  rfl

lemma encodeEmpty_short {packetType : PacketType}
    (h : buffer.length < (frame (headerFirstByte packetType 0) []).length) :
    ∃ n out, encodeEmpty packetType 0 buffer = .err (.bufferTooSmall n) out := by
  rw [frame_nil] at h
  refine ⟨buffer.length,buffer,?_⟩
  rw [encodeEmpty,Proc.bind_apply,Proc.get_apply,Outcome.andThen_ok,validateBufferSize,
    Proc.bind_apply,Proc.failIf_pos (by simpa using h)]
  rfl

end Encode

namespace Packet

/-- The packet is encoded into a buffer that has room for its frame, which leaves the rest of the
buffer alone, and a shorter buffer is reported as too small. -/
def EncodesOrReports (p : Packet T P) (buffer : Bytes) : Prop :=
  (p.contents.wire.length ≤ buffer.length →
    p.encode buffer = .ok p.contents.wire.length
      (p.contents.wire ++ buffer.drop p.contents.wire.length)) ∧
  (buffer.length < p.contents.wire.length →
    ∃ n out, p.encode buffer = .err (.bufferTooSmall n) out)

/-- The buffer ends where CONNECT writes without a check: in front of the first byte, or among the
protocol level, the flags and the keep-alive behind the first byte, the length field and the six
bytes of the protocol name. -/
def UncheckedEnd : Packet T P → ℕ → Prop
  | connect packet,n => n = 0 ∨ 1+variableLengthLength packet.remainingLength+6 ≤ n ∧
      n < 1+variableLengthLength packet.remainingLength+6+4
  | _,_ => False

variable {p : Packet T P} {buffer : Bytes}

lemma encode_short (hT : T ≤ 255) (hP : P ≤ 65535) (h : p.WellFormed)
    (hshort : buffer.length < p.contents.wire.length) :
    p.UncheckedEnd buffer.length ∧ p.encode buffer = .abort .panic ∨
      ¬ p.UncheckedEnd buffer.length ∧ ∃ n out, p.encode buffer = .err (.bufferTooSmall n) out := by
  cases p with
  | connect packet =>
    have hgaps : ∀ n, n < packet.contents.wire.length →
        ((connect packet : Packet T P).UncheckedEnd n ↔ n = 0 ∨
          7+variableLengthLength packet.remainingLength ≤ n ∧
            n ≤ 10+variableLengthLength packet.remainingLength) := by
      intro n _
      rw [UncheckedEnd]
      omega
    exact encodeWith_short (Short.congr (ConnectPacket.WellFormed.short hT hP h) hgaps) hshort
  | publish packet =>
    exact .inr ⟨not_false,encodeWith_reports (PublishPacket.WellFormed.fills hT hP h) hshort⟩
  | subscribe packet =>
    exact .inr ⟨not_false,encodeWith_reports (SubscribePacket.WellFormed.fills hT h) hshort⟩
  | unsubscribe packet =>
    exact .inr ⟨not_false,encodeWith_reports (UnsubscribePacket.WellFormed.fills hT h) hshort⟩
  | connAck packet =>
    rw [contents,Contents.wire,ConnAckPacket.body,frame_two] at hshort
    refine .inr ⟨not_false,buffer.length,buffer,?_⟩
    rw [encode,ConnAckPacket.encode,Proc.bind_apply,Proc.get_apply,Outcome.andThen_ok,
      validateBufferSize,Proc.bind_apply,Proc.failIf_pos (by simpa using hshort)]
    rfl
  | subAck packet =>
    rw [contents,Contents.wire,SubAckPacket.body,frame_three] at hshort
    refine .inr ⟨not_false,buffer.length,buffer,?_⟩
    rw [encode,SubAckPacket.encode,Proc.bind_apply,Proc.get_apply,Outcome.andThen_ok,
      Proc.bind_apply,Proc.failIf_pos (by simpa using hshort)]
    rfl
  | pubAck packet | pubRec packet | pubRel packet | pubComp packet | unsubAck packet =>
    exact .inr ⟨not_false,encodePacketId_short hshort⟩
  | pingReq packet | pingResp packet | disconnect packet =>
    exact .inr ⟨not_false,encodeEmpty_short hshort⟩

/-- The unchecked writes lie inside the frame. -/
lemma UncheckedEnd.lt (hT : T ≤ 255) (hP : P ≤ 65535) (h : p.WellFormed) {n : ℕ}
    (hn : p.UncheckedEnd n) : n < p.contents.wire.length := by
  cases p with
  | connect packet =>
    have hr := ConnectPacket.WellFormed.remainingLength h
    have hl : packet.contents.wire.length = _ :=
      frame_length (ConnectPacket.body_length_le hT hP packet)
    have hpos : 12 ≤ packet.remainingLength := by
      have hname : mqttProtocolName.length = 4 := rfl
      rw [ConnectPacket.remainingLength,hname]
      omega
    rw [← hr] at hl
    rw [UncheckedEnd] at hn
    change n < packet.contents.wire.length
    omega
  | _ => exact hn.elim

/-- Encoding a well-formed packet never panics and reports short buffers, exactly where the buffer
does not end among the unchecked writes of CONNECT. -/
theorem encodesOrReports_iff (hT : T ≤ 255) (hP : P ≤ 65535) (h : p.WellFormed) :
    p.EncodesOrReports buffer ↔ ¬ p.UncheckedEnd buffer.length := by
  constructor
  · rintro ⟨-,hr⟩ hu
    have hshort := hu.lt hT hP h
    obtain ⟨-,hpanic⟩ | ⟨hno,-⟩ := encode_short hT hP h hshort
    · obtain ⟨n,out,he⟩ := hr hshort
      rw [hpanic] at he
      cases he
    · exact hno hu
  · intro hu
    refine ⟨encode_eq hT hP h,fun hshort => ?_⟩
    obtain ⟨hu',-⟩ | ⟨-,hr⟩ := encode_short hT hP h hshort
    · exact absurd hu' hu
    · exact hr

/-- A CONNECT of the client `abc`, clean session, keep-alive 60. -/
def shortConnect : ConnectPacket 30 128 :=
  ⟨⟨2⟩,60,(HeaplessString.tryFrom [0x61,0x62,0x63]).getD .new,none,none,none,none⟩

lemma shortConnect_wellFormed : shortConnect.WellFormed where
  reserved := by decide
  clientId := by decide
  clean := by decide
  will := by decide
  willPayload := by decide
  willTopic := by simp [shortConnect]
  username := by decide
  usernameText := by simp [shortConnect]
  password := by decide

/-- It reports a buffer that ends inside the protocol name. -/
theorem shortConnect_reports : (connect shortConnect).EncodesOrReports (List.replicate 7 0) := by
  rw [encodesOrReports_iff (p := connect shortConnect) (by decide) (by decide)
    shortConnect_wellFormed,UncheckedEnd]
  decide

/-- One byte more, and the protocol level is written behind the end of the buffer. -/
theorem shortConnect_panics : ¬ ∀ p : Packet 30 128, p.WellFormed →
    ∀ buffer : Bytes, p.EncodesOrReports buffer := by
  intro h
  have hpanic : (connect shortConnect).encode (List.replicate 8 0) = .abort .panic := by decide
  have hshort : (List.replicate 8 (0 : UInt8)).length < (connect shortConnect).contents.wire.length := by
    change _ < (frame _ (ConnectPacket.Contents.body _)).length
    rw [frame,variableLengthBytes_small (by decide)]
    decide
  obtain ⟨n,out,he⟩ := (h (connect shortConnect) shortConnect_wellFormed _).2 hshort
  rw [hpanic] at he
  cases he

end Packet

end Picobroker
