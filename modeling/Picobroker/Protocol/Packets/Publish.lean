import Picobroker.Protocol.Packets.Connect

/-! PUBLISH: a topic, a packet identifier for a quality of service above 0, and whatever is left of
the frame as payload. -/
namespace Picobroker
open Rust

variable {T P : ℕ}

/-- The room check and write that the encoders repeat for one byte. -/
def putByteChecked (b : UInt8) : Proc Cursor ProtocolError Unit := do
  let c ← Proc.get
  Proc.failIf (c.offset ≥ c.buffer.length) (.bufferTooSmall c.buffer.length)
  Cursor.putByte b

/-- The same for a packet identifier. -/
def putU16Checked (x : UInt16) : Proc Cursor ProtocolError Unit := do
  let c ← Proc.get
  Proc.failIf (c.offset+2 > c.buffer.length) (.bufferTooSmall c.buffer.length)
  Cursor.putSlice (toBeBytes x)

lemma fills_putByteChecked (b : UInt8) : Fills (putByteChecked b) [b] :=
  fills_checked (Cursor.writes_putByte b) (fun _ => Nat.lt_succ_iff.symm)

lemma fills_putU16Checked (x : UInt16) : Fills (putU16Checked x) (toBeBytes x) := by
  apply fills_checked (Cursor.writes_putSlice (toBeBytes x))
  intro c
  rw [toBeBytes_length]

/-- The type nibble of a header byte, compared as a number. -/
def checkPacketType {σ : Type} (packetType : PacketType) (headerByte : UInt8) :
    Proc σ ProtocolError Unit :=
  Proc.failIf ((headerByte >>> 4) &&& 0x0F ≠ packetType.toU8)
    (.invalidPacketType ((headerByte >>> 4) &&& 0x0F))

structure PublishFlags where
  dup : Bool
  qos : QoS
  retain : Bool
  deriving DecidableEq, Repr

namespace PublishFlags

def toNibble (f : PublishFlags) : UInt8 :=
  ((if f.dup then (1 : UInt8) else 0) <<< 3) ||| (f.qos.toU8 <<< 1) |||
    (if f.retain then (1 : UInt8) else 0)

def publishHeaderByte (f : PublishFlags) : UInt8 :=
  (PacketType.publish.toU8 <<< 4) ||| (f.toNibble &&& 0x0F)

def fromNibble {σ : Type} (nibble : UInt8) : Proc σ ProtocolError PublishFlags := do
  let qos ← QoS.decode ((nibble >>> 1) &&& 0b11)
  pure ⟨nibble &&& 0b1000 != 0,qos,nibble &&& 0b0001 != 0⟩

end PublishFlags

/-- `PublishPacket<MAX_TOPIC_NAME_LENGTH, MAX_PAYLOAD_SIZE>`. -/
structure PublishPacket (T P : ℕ) where
  topicName : TopicName T
  packetId : Option UInt16
  payload : HeaplessVec UInt8 P
  qos : QoS
  dup : Bool
  retain : Bool
  deriving DecidableEq, Repr

namespace PublishPacket

def flags (p : PublishPacket T P) : PublishFlags := ⟨p.dup,p.qos,p.retain⟩

def remainingLength (p : PublishPacket T P) : ℕ :=
  2+p.topicName.len+(if p.qos ≠ .atMostOnce then 2 else 0)+p.payload.len

/-- The packet identifier is written for any other quality of service than 0. -/
def putPacketId (p : PublishPacket T P) : Proc Cursor ProtocolError Unit :=
  if p.qos ≠ .atMostOnce then do
    let c ← Proc.get
    Proc.failIf (c.offset+2 > c.buffer.length) (.bufferTooSmall c.buffer.length)
    let pid ← Proc.okOr .missingPacketId p.packetId
    Cursor.putSlice (toBeBytes pid)
  else pure ()

def putPayload (p : PublishPacket T P) : Proc Cursor ProtocolError Unit := do
  let c ← Proc.get
  Proc.failIf (c.offset+p.payload.len > c.buffer.length) (.bufferTooSmall c.buffer.length)
  Cursor.putSlice p.payload.asSlice

def encodeFields (p : PublishPacket T P) : Proc Cursor ProtocolError Unit := do
  putByteChecked p.flags.publishHeaderByte
  putVariableLength p.remainingLength
  writeString p.topicName.asStr
  p.putPacketId
  p.putPayload

def encode (p : PublishPacket T P) : Proc Bytes ProtocolError ℕ := encodeWith p.encodeFields

/-- The topic, which may not be empty. -/
def decodeTopic (bytes : Bytes) : Reader ProtocolError (TopicName T) := do
  let topicStr ← readString bytes
  Proc.failIf (topicStr = []) .topicEmpty
  Proc.okOr (.topicNameLengthExceeded T topicStr.length) (HeaplessString.tryFrom topicStr)

/-- A packet identifier, which may not be zero. -/
def decodePid (bytes : Bytes) : Reader ProtocolError UInt16 := do
  let pid ← nextU16 bytes
  Proc.failIf (pid = 0) .missingPacketId
  pure pid

def decodeSomePid (bytes : Bytes) : Reader ProtocolError (Option UInt16) := do
  let pid ← decodePid bytes
  pure (some pid)

/-- The payload runs to the end announced by the remaining length; that end is compared with the
slice, not with the offset already reached. -/
def decodePayload (bytes : Bytes) (startOffset remainingLength : ℕ) :
    Reader ProtocolError (HeaplessVec UInt8 P) := do
  let payloadEnd := startOffset+remainingLength
  Proc.failIf (payloadEnd > bytes.length) (.incompletePacket bytes.length)
  let offset ← Proc.get
  let payloadBytes ← slice bytes offset payloadEnd
  let payload ← collectBytes (.payloadTooLarge P payloadBytes.length) payloadBytes
  let actualConsumed := offset-startOffset+payloadBytes.length
  Proc.failIf (actualConsumed ≠ remainingLength)
    (.invalidPacketLength remainingLength actualConsumed)
  pure payload

/-- The part before the payload. -/
def decodeHead (qos : QoS) (bytes : Bytes) :
    Reader ProtocolError (TopicName T × Option UInt16) := do
  let topicName ← decodeTopic bytes
  let packetId ← (if qos ≠ .atMostOnce then decodeSomePid bytes else pure none)
  pure (topicName,packetId)

def decodeFrame (w : ℕ) (bytes : Bytes) : Reader ProtocolError (PublishPacket T P) := do
  let headerByte ← nextByte bytes
  checkPacketType .publish headerByte
  let publishFlags ← PublishFlags.fromNibble (headerByte &&& 0x0F)
  let (remainingLength,varLenBytes) ← readRemainingLength w bytes
  Proc.modify (·+varLenBytes)
  let startOffset ← Proc.get
  let head ← decodeHead publishFlags.qos bytes
  let payload ← decodePayload bytes startOffset remainingLength
  pure ⟨head.1,head.2,payload,publishFlags.qos,publishFlags.dup,publishFlags.retain⟩

def decode (w : ℕ) (bytes : Bytes) : Outcome Unit ProtocolError (PublishPacket T P) :=
  (decodeFrame w bytes).eval 0

end PublishPacket

/-! ### What the fields spell -/

namespace PublishPacket
open Reader

lemma decides_decodeTopic : Decides (decodeTopic (T := T)) TopicField := by
  refine (decides_readString.bind (fun s => (decides_failIf (s = []) _).bind (fun _ =>
    decides_okOr _ (HeaplessString.tryFrom s)))).congr (fun enc t => ?_)
  simp only [seq_value,seq_iff]
  constructor
  · rintro ⟨s,hs,hne,ht⟩
    exact ⟨enc,[],s,by simp,hs,(),hne,rfl,ht⟩
  · rintro ⟨e,_,s,rfl,hs,-,hne,rfl,ht⟩
    exact ⟨s,by simpa using hs,hne,ht⟩

/-- A packet identifier on the wire. -/
def PidField (enc : Bytes) (pid : UInt16) : Prop := enc = toBeBytes pid ∧ pid ≠ 0

lemma decides_decodePid : Decides decodePid PidField := by
  refine (decides_nextU16.bind (fun pid => (decides_failIf (pid = 0) _).bind (fun _ =>
    decides_pure pid))).congr (fun enc pid => ?_)
  simp only [seq_value,seq_iff]
  constructor
  · rintro ⟨rfl,hp⟩
    exact ⟨_,[],pid,by simp,rfl,(),hp,rfl,rfl⟩
  · rintro ⟨_,_,_,rfl,rfl,-,hp,rfl,rfl⟩
    exact ⟨List.append_nil _,hp⟩

lemma decides_decodeSomePid : Decides decodeSomePid (fun enc o => ∃ pid, PidField enc pid ∧ o = some pid) := by
  refine (decides_decodePid.bind (fun pid => decides_pure (some pid))).congr (fun enc o => ?_)
  simp only [seq_result]

/-- The topic and, for a quality of service above 0, the packet identifier. -/
def Head (qos : QoS) (enc : Bytes) (x : TopicName T × Option UInt16) : Prop :=
  ∃ topic pid, enc = topic ++ pid ∧ TopicField topic x.1 ∧
    OptionalField (qos ≠ .atMostOnce) PidField pid x.2

lemma decides_decodeHead (qos : QoS) : Decides (decodeHead (T := T) qos) (Head qos) := by
  refine (decides_decodeTopic.bind (fun t =>
    (decides_optional (qos ≠ .atMostOnce) decides_decodeSomePid).bind (fun pid =>
      decides_pure (t,pid)))).congr (fun enc x => ?_)
  simp only [seq_result,seq_iff]
  constructor
  · rintro ⟨topic,pid,rfl,ht,hp⟩
    exact ⟨topic,pid,x.1,rfl,ht,x.2,hp,rfl⟩
  · rintro ⟨topic,pid,t,rfl,ht,p,hp,rfl⟩
    exact ⟨topic,pid,rfl,ht,hp⟩

section Frame

variable {w : ℕ} {p : PublishPacket T P}

lemma decodePayload_long {bytes : Bytes} {start r o : ℕ} (h : start+r > bytes.length) :
    decodePayload (P := P) bytes start r o = .err (.incompletePacket bytes.length) o := by
  rw [decodePayload,Proc.bind_apply,Proc.failIf_pos h]
  rfl

lemma decodePayload_short {bytes : Bytes} {start r o : ℕ} (h : start+r ≤ bytes.length)
    (ho : start+r < o) : decodePayload (P := P) bytes start r o = .abort .panic := by
  rw [decodePayload,Proc.bind_apply,Proc.failIf_neg (Nat.not_lt.mpr h),Outcome.andThen_ok,
    Proc.bind_apply,Proc.get_apply,Outcome.andThen_ok,Proc.bind_apply,slice_panics ho]
  rfl

/-- Inside the frame the payload is what is left of it, and the last check always passes. -/
lemma decodePayload_eq {bytes payload rest : Bytes} {start o : ℕ} (hs : start ≤ o)
    (ho : o ≤ bytes.length) (h : bytes.drop o = payload ++ rest) :
    decodePayload (P := P) bytes start (o-start+payload.length) o =
      (Proc.okOr (.payloadTooLarge P payload.length) (HeaplessVec.collect payload) :
        Reader ProtocolError _) o := by
  have hl := congrArg List.length h
  rw [List.length_drop,List.length_append] at hl
  have hend : ¬ start+(o-start+payload.length) > bytes.length := by omega
  have hsum : start+(o-start+payload.length) = o+payload.length := by omega
  have hlen : ¬ o-start+payload.length ≠ o-start+payload.length := not_not_intro rfl
  rw [decodePayload,Proc.bind_apply,Proc.failIf_neg hend,Outcome.andThen_ok,Proc.bind_apply,
    Proc.get_apply,Outcome.andThen_ok,Proc.bind_apply,hsum,slice_drop h ho,Outcome.andThen_ok,
    collectBytes_eq,Proc.bind_apply]
  cases HeaplessVec.collect payload with
  | none => rfl
  | some v =>
    rw [Proc.okOr_some,Outcome.andThen_ok,Proc.bind_apply,Proc.failIf_neg hlen]
    rfl

/-- The payload was neither refused nor cut from behind the offset. -/
lemma decodePayload_eq_ok {bytes : Bytes} {start r o o' : ℕ} {v : HeaplessVec UInt8 P}
    (hs : start ≤ o) (ho : o ≤ bytes.length) :
    decodePayload bytes start r o = .ok v o' ↔ o' = o ∧ ∃ payload rest,
      bytes.drop o = payload ++ rest ∧ r = o-start+payload.length ∧
      HeaplessVec.collect payload = some v := by
  constructor
  · intro h
    have hlong : ¬ start+r > bytes.length := by
      intro hc
      rw [decodePayload_long hc] at h
      cases h
    have hshort : ¬ start+r < o := by
      intro hc
      rw [decodePayload_short (by omega) hc] at h
      cases h
    have hp := (List.take_append_drop (start+r-o) (bytes.drop o)).symm
    have hr : r = o-start+((bytes.drop o).take (start+r-o)).length := by
      rw [List.length_take,List.length_drop]
      omega
    rw [hr,decodePayload_eq hs ho hp] at h
    obtain ⟨hv,ho'⟩ := Proc.okOr_eq_ok.mp h
    exact ⟨ho'.symm,_,_,hp,hr,hv⟩
  · rintro ⟨rfl,payload,rest,hp,rfl,hv⟩
    rw [decodePayload_eq hs ho hp,hv]
    rfl

/-- The quality of service that a header byte names. -/
def qosOf (header : UInt8) : Option QoS := QoS.fromU8 (((header &&& 0x0F) >>> 1) &&& 0b11)

lemma fromNibble_apply (header : UInt8) (o : ℕ) :
    (PublishFlags.fromNibble (header &&& 0x0F) : Reader ProtocolError PublishFlags) o =
      match qosOf header with
      | some qos => .ok ⟨(header &&& 0x0F) &&& 0b1000 != 0,qos,(header &&& 0x0F) &&& 0b0001 != 0⟩ o
      | none => .err (.invalidQosLevel (((header &&& 0x0F) >>> 1) &&& 0b11)) o := by
  rw [PublishFlags.fromNibble,Proc.bind_apply,QoS.decode,qosOf]
  cases QoS.fromU8 (((header &&& 0x0F) >>> 1) &&& 0b11) <;> rfl

/-- The header byte is one of PUBLISH, and its flags are legal. -/
def HeaderOf (header : UInt8) (flags : PublishFlags) : Prop :=
  (header >>> 4) &&& 0x0F = PacketType.publish.toU8 ∧ qosOf header = some flags.qos ∧
    flags.dup = ((header &&& 0x0F) &&& 0b1000 != 0) ∧
    flags.retain = ((header &&& 0x0F) &&& 0b0001 != 0)

lemma decodeFrame_cons (w : ℕ) (first : UInt8) (tail : Bytes) :
    decodeFrame (T := T) (P := P) w (first::tail) 0 =
      if (first >>> 4) &&& 0x0F ≠ PacketType.publish.toU8 then
        .err (.invalidPacketType ((first >>> 4) &&& 0x0F)) 1
      else match qosOf first with
      | none => .err (.invalidQosLevel (((first &&& 0x0F) >>> 1) &&& 0b11)) 1
      | some qos => ((readVariableLength w tail).mapState (fun _ => 1)).andThen (fun x => do
          Proc.modify (·+x.2)
          let startOffset ← Proc.get
          let head ← decodeHead qos (first::tail)
          let payload ← decodePayload (first::tail) startOffset x.1
          pure ⟨head.1,head.2,payload,qos,(first &&& 0x0F) &&& 0b1000 != 0,
            (first &&& 0x0F) &&& 0b0001 != 0⟩) := by
  rw [decodeFrame,Proc.bind_apply,nextByte_fits (by simp),Outcome.andThen_ok,checkPacketType,
    Proc.bind_apply]
  by_cases ht : (first >>> 4) &&& 0x0F ≠ PacketType.publish.toU8
  · rw [if_pos ht]
    simp only [List.getElem_cons_zero]
    rw [Proc.failIf_pos ht]
    rfl
  · rw [if_neg ht]
    simp only [List.getElem_cons_zero]
    rw [Proc.failIf_neg ht,Outcome.andThen_ok,Proc.bind_apply,fromNibble_apply]
    cases qosOf first with
    | none => rfl
    | some qos => rw [Outcome.andThen_ok,Proc.bind_apply,readRemainingLength_cons]

/-- The body of a PUBLISH: its head, then the payload. -/
def Body (body : Bytes) (p : PublishPacket T P) : Prop :=
  ∃ head payload, body = head ++ payload ∧ Head p.qos head (p.topicName,p.packetId) ∧
    HeaplessVec.collect payload = some p.payload

/-- The head and the payload share the announced bytes between them. -/
lemma decodeHead_decodePayload_eq_ok {bytes : Bytes} {start r o : ℕ} {qos : QoS}
    {x : TopicName T × Option UInt16} {v : HeaplessVec UInt8 P} (hs : start ≤ bytes.length) :
    (∃ m, decodeHead qos bytes start = .ok x m ∧ decodePayload bytes start r m = .ok v o) ↔
      ∃ head payload rest, bytes.drop start = head ++ (payload ++ rest) ∧
        r = head.length+payload.length ∧ Head qos head x ∧ HeaplessVec.collect payload = some v ∧
        o = start+head.length := by
  constructor
  · rintro ⟨m,hx,hv⟩
    obtain ⟨head,hb,hd,rfl⟩ := (decides_decodeHead qos).parses hx
    have hl := congrArg List.length hd
    simp only [List.length_drop,List.length_append] at hl
    obtain ⟨rfl,payload,rest,hp,hr,hv⟩ := (decodePayload_eq_ok (by omega) (by omega)).mp hv
    rw [hp] at hd
    exact ⟨head,payload,rest,hd,by omega,hb,hv,rfl⟩
  · rintro ⟨head,payload,rest,hd,hr,hb,hv,rfl⟩
    have hl := congrArg List.length hd
    simp only [List.length_drop,List.length_append] at hl
    refine ⟨start+head.length,(decides_decodeHead qos).reads hb hd,?_⟩
    exact (decodePayload_eq_ok (by omega) (by omega)).mpr
      ⟨rfl,payload,rest,drop_add_of_drop hd,by omega,hv⟩

/-- PUBLISH is accepted exactly when the slice starts with a frame of its type whose body spells
the packet; the offset then stands behind the head, and the payload is what is left of the frame. -/
lemma decodeFrame_eq_ok (hw : 32 ≤ w) {bytes : Bytes} {o : ℕ} : decodeFrame w bytes 0 = .ok p o ↔
    ∃ header k head payload, FrameAt bytes header k (head ++ payload) ∧ HeaderOf header p.flags ∧
      Head p.qos head (p.topicName,p.packetId) ∧ HeaplessVec.collect payload = some p.payload ∧
      o = 1+k+head.length := by
  constructor
  · intro h
    cases bytes with
    | nil => cases h
    | cons first tail =>
      rw [decodeFrame_cons] at h
      split at h
      · cases h
      rename_i ht
      cases hq : qosOf first with
      | none =>
        rw [hq] at h
        cases h
      | some qos =>
        rw [hq] at h
        obtain ⟨⟨r,k⟩,s,hr,h⟩ := Outcome.andThen_eq_ok.mp h
        obtain ⟨hlen,rfl⟩ := Proc.call_eq_ok.mp hr
        have hk : lengthField tail = .complete r k := (readVariableLength_eq_ok hw).mp hlen
        have hkl := (lengthField_complete hk).2.2
        simp only [Proc.bind_apply,Proc.modify_apply,Proc.get_apply,Outcome.andThen_ok] at h
        obtain ⟨x,m,hx,h⟩ := Outcome.andThen_eq_ok.mp h
        obtain ⟨v,_,hv,h⟩ := Outcome.andThen_eq_ok.mp h
        cases h
        obtain ⟨head,payload,rest,hd,rfl,hb,hp,rfl⟩ := (decodeHead_decodePayload_eq_ok
          (by rw [List.length_cons]; omega)).mp ⟨m,hx,hv⟩
        rw [drop_one_add,← List.append_assoc] at hd
        rw [← List.length_append] at hk
        exact ⟨first,k,head,payload,⟨tail,rest,rfl,hk,hd⟩,⟨not_ne_iff.mp ht,hq,rfl,rfl⟩,hb,hp,rfl⟩
  · rintro ⟨header,k,head,payload,⟨tail,rest,rfl,hk,hd⟩,⟨ht,hq,hdup,hretain⟩,hb,hv,rfl⟩
    have hkl := (lengthField_complete hk).2.2
    rw [← drop_one_add header,List.append_assoc] at hd
    obtain ⟨m,hx,hv⟩ := (decodeHead_decodePayload_eq_ok
      (by rw [List.length_cons]; omega)).mpr ⟨head,payload,rest,hd,List.length_append,hb,hv,rfl⟩
    rw [decodeFrame_cons,if_neg (not_not_intro ht),hq]
    simp only [(readVariableLength_eq_ok hw).mpr hk,Outcome.mapState_ok,Outcome.andThen_ok,
      Proc.bind_apply,Proc.modify_apply,Proc.get_apply]
    change (decodeHead p.qos (header::tail) (1+k)).andThen _ = _
    rw [hx,Outcome.andThen_ok,Proc.bind_apply,hv,Outcome.andThen_ok,← hdup,← hretain]
    rfl

/-- PUBLISH is accepted exactly when the slice starts with a frame of its type whose body spells
the packet. -/
theorem decode_eq_ok (hw : 32 ≤ w) {bytes : Bytes} : decode w bytes = .ok p () ↔
    ∃ header k body, FrameAt bytes header k body ∧ HeaderOf header p.flags ∧ Body body p := by
  rw [decode,Proc.eval_eq_ok]
  constructor
  · rintro ⟨o,h⟩
    obtain ⟨header,k,head,payload,hf,hh,hb,hv,-⟩ := (decodeFrame_eq_ok hw).mp h
    exact ⟨header,k,_,hf,hh,head,payload,rfl,hb,hv⟩
  · rintro ⟨header,k,_,hf,hh,head,payload,rfl,hb,hv⟩
    exact ⟨_,(decodeFrame_eq_ok hw).mpr ⟨header,k,head,payload,hf,hh,hb,hv,rfl⟩⟩

/-- What stands before the payload: a legal topic and, where one is due, a legal packet
identifier. -/
def HeadBytes (T : ℕ) (qos : QoS) (head : Bytes) : Prop :=
  ∃ topic id, head = field topic ++ id ∧ topic ≠ [] ∧ topic.length ≤ T ∧
    topic.length < 65536 ∧ validUtf8 topic = true ∧
    if qos = .atMostOnce then id = [] else ∃ pid, pid ≠ 0 ∧ id = toBeBytes pid

lemma head_iff {qos : QoS} {head : Bytes} :
    (∃ x : TopicName T × Option UInt16, Head qos head x) ↔ HeadBytes T qos head := by
  constructor
  · rintro ⟨⟨t,pid⟩,topic,id,rfl,⟨s,⟨rfl,hs,hv⟩,hne,ht⟩,hp⟩
    have hsT : s.length ≤ T := by
      by_contra hc
      rw [HeaplessString.tryFrom,dif_neg hc] at ht
      cases ht
    refine ⟨s,id,rfl,hne,hsT,hs,hv,?_⟩
    cases pid with
    | none =>
      rw [if_pos (not_ne_iff.mp hp.1)]
      exact hp.2
    | some pid =>
      rw [if_neg hp.1]
      exact ⟨pid,hp.2.2,hp.2.1⟩
  · rintro ⟨s,id,rfl,hne,hsT,hs,hv,hid⟩
    obtain ⟨t,ht⟩ : ∃ t : TopicName T, HeaplessString.tryFrom s = some t :=
      ⟨_,dif_pos hsT⟩
    by_cases hq : qos = .atMostOnce
    · rw [if_pos hq] at hid
      exact ⟨(t,none),field s,id,rfl,⟨s,⟨rfl,hs,hv⟩,hne,ht⟩,not_not_intro hq,hid⟩
    · rw [if_neg hq] at hid
      obtain ⟨pid,hp,rfl⟩ := hid
      exact ⟨(t,some pid),field s,_,rfl,⟨s,⟨rfl,hs,hv⟩,hne,ht⟩,hq,rfl,hp⟩

/-- The announced frame ends before its own topic and packet identifier do. -/
def EndsInHead (T : ℕ) (qos : QoS) (tail : Bytes) : Prop :=
  ∃ r k head rest, lengthField tail = .complete r k ∧ tail.drop k = head ++ rest ∧
    HeadBytes T qos head ∧ r < head.length

/-- A payload that starts inside the frame is read without a panic. -/
lemma decodePayload_returns {bytes : Bytes} {start r o : ℕ} (hs : start ≤ o)
    (ho : o ≤ bytes.length) (hr : start+r ≤ bytes.length → o ≤ start+r) :
    (decodePayload (P := P) bytes start r o).Returns := by
  by_cases hlong : start+r > bytes.length
  · rw [decodePayload_long hlong]
    exact Outcome.returns_err _ _
  · have hle := hr (Nat.not_lt.mp hlong)
    have hp := (List.take_append_drop (start+r-o) (bytes.drop o)).symm
    have hl : ((bytes.drop o).take (start+r-o)).length = start+r-o := by
      rw [List.length_take,List.length_drop]
      omega
    have h := decodePayload_eq (P := P) hs ho hp
    rw [hl,show o-start+(start+r-o) = r by omega] at h
    rw [h]
    exact Proc.okOr_returns _ _ _

lemma decodeRest_returns {first : UInt8} {tail : Bytes} {qos : QoS} {r k : ℕ} {α : Type}
    (f : TopicName T × Option UInt16 → HeaplessVec UInt8 P → α)
    (hk : lengthField tail = .complete r k) :
    ((decodeHead qos (first::tail) >>= fun head =>
      decodePayload (first::tail) (1+k) r >>= fun payload =>
        pure (f head payload) : Reader ProtocolError α) (1+k)).Returns ↔
      ¬ EndsInHead T qos tail := by
  have hkl := (lengthField_complete hk).2.2
  rw [Proc.bind_apply,Outcome.returns_andThen_iff]
  constructor
  · rintro ⟨-,h⟩ ⟨r',k',head,rest,hk',hd,hh,hr⟩
    rw [hk,LengthField.complete.injEq] at hk'
    obtain ⟨rfl,rfl⟩ := hk'
    obtain ⟨x,hx⟩ := head_iff.mpr hh
    have hdrop : (first::tail).drop (1+k) = head ++ rest := by
      rw [drop_one_add,hd]
    have hl := congrArg List.length hd
    rw [List.length_drop,List.length_append] at hl
    have hret := h x _ ((decides_decodeHead qos).reads hx hdrop)
    rw [Proc.bind_apply,decodePayload_short (by rw [List.length_cons]; omega) (by omega)] at hret
    exact Outcome.not_returns_abort _ hret
  · intro h
    refine ⟨(decides_decodeHead qos).total _ _,fun x o ho => ?_⟩
    obtain ⟨head,hx,hd,rfl⟩ := (decides_decodeHead qos).parses ho
    rw [drop_one_add] at hd
    have hl := congrArg List.length hd
    rw [List.length_drop,List.length_append,List.length_drop,List.length_cons] at hl
    refine Proc.returns_bind (decodePayload_returns (by omega) (by rw [List.length_cons]; omega)
      (fun _ => ?_)) (fun v o _ => Outcome.returns_ok _ _)
    by_contra hc
    exact h ⟨r,k,head,_,hk,hd,head_iff.mp ⟨x,hx⟩,by omega⟩

/-- The decoder panics on a remaining length that overflows the word, and on a frame that ends
inside its head: the payload slice then ends before it starts. -/
theorem decode_returns (hw : 32 ≤ w) {first : UInt8} {tail : Bytes} :
    (decode w (first::tail) : Outcome Unit ProtocolError (PublishPacket T P)).Returns ↔
      ¬ ((first >>> 4) &&& 0x0F = PacketType.publish.toU8 ∧ ∃ qos, qosOf first = some qos ∧
        ((∃ fifth, lengthField tail = .overlong fifth ∧ OverflowsWord w fifth) ∨
          EndsInHead T qos tail)) := by
  rw [decode,Proc.eval_returns,decodeFrame_cons]
  by_cases ht : (first >>> 4) &&& 0x0F = PacketType.publish.toU8
  · rw [if_neg (not_not_intro ht)]
    cases hq : qosOf first with
    | none =>
      refine ⟨?_,fun _ => Outcome.returns_err _ _⟩
      rintro - ⟨-,_,⟨⟩,-⟩
    | some qos =>
      have hcond : ((first >>> 4) &&& 0x0F = PacketType.publish.toU8 ∧ ∃ q, some qos = some q ∧
          ((∃ fifth, lengthField tail = .overlong fifth ∧ OverflowsWord w fifth) ∨
            EndsInHead T q tail)) ↔
          (∃ fifth, lengthField tail = .overlong fifth ∧ OverflowsWord w fifth) ∨
            EndsInHead T qos tail := by simp [ht]
      have hspec := readVariableLength_spec hw tail
      rw [hcond]
      cases hf : lengthField tail with
      | complete r k =>
        simp only [hf] at hspec
        simp only [hspec,Outcome.mapState_ok,Outcome.andThen_ok]
        rw [Proc.bind_apply,Proc.modify_apply,Outcome.andThen_ok,Proc.bind_apply,Proc.get_apply,
          Outcome.andThen_ok,decodeRest_returns _ hf]
        simp
      | cut =>
        simp only [hf] at hspec
        simp [hspec,EndsInHead,hf]
      | overlong fifth =>
        simp only [hf] at hspec
        split at hspec
        · rename_i hover
          simp [hspec,hover]
        · rename_i hover
          obtain ⟨e,he⟩ := hspec
          simp [he,hover,EndsInHead,hf]
  · rw [if_pos ht]
    exact ⟨fun _ h => ht h.1,fun _ => Outcome.returns_err _ _⟩

end Frame

end PublishPacket

/-! ### Contents, and what can be encoded -/

namespace PublishPacket
open Rust.Cursor

/-- What a PUBLISH packet says. -/
structure Contents where
  topicName : Bytes
  packetId : Option UInt16
  payload : Bytes
  qos : QoS
  dup : Bool
  retain : Bool
  deriving DecidableEq, Repr

/-- The bytes of an optional packet identifier. -/
def optionPid : Option UInt16 → Bytes
  | some pid => toBeBytes pid
  | none => []

def Contents.body (c : Contents) : Bytes := field c.topicName ++ (optionPid c.packetId ++ c.payload)

def Contents.wire (c : Contents) : Bytes :=
  frame (PublishFlags.mk c.dup c.qos c.retain).publishHeaderByte c.body

def contents (p : PublishPacket T P) : Contents :=
  ⟨p.topicName.bytes,p.packetId,p.payload.asSlice,p.qos,p.dup,p.retain⟩

/-- A non-empty topic, and a packet identifier exactly for a quality of service above 0. -/
structure WellFormed (p : PublishPacket T P) : Prop where
  topicName : p.topicName.Utf8
  nonempty : p.topicName.bytes ≠ []
  packetId : p.packetId.isSome = true ↔ p.qos ≠ .atMostOnce
  nonzero : ∀ pid ∈ p.packetId, pid ≠ 0

variable {p : PublishPacket T P}

lemma headerOf_publishHeaderByte (f : PublishFlags) : HeaderOf f.publishHeaderByte f := by
  obtain ⟨dup,qos,retain⟩ := f
  cases dup <;> cases qos <;> cases retain <;> exact ⟨by decide,by decide,by decide,by decide⟩

lemma Body.sound (hT : T ≤ 255) (hP : P ≤ 65535) {body : Bytes} (h : Body body p) :
    p.WellFormed ∧ body = p.contents.body := by
  obtain ⟨_,payload,rfl,⟨topic,pid,rfl,ht,hp⟩,hv⟩ := h
  obtain ⟨rfl,hu⟩ := ht.stringField.spec hT
  constructor
  · exact {
      topicName := hu
      nonempty := ht.ne_nil hT
      packetId := hp.isSome_iff
      nonzero := fun q hq => (hp.of_mem hq).2 }
  · rw [contents,Contents.body,HeaplessVec.asSlice_of_collect hP hv,List.append_assoc]
    congr 2
    cases hq : p.packetId with
    | none => rw [hq] at hp; exact hp.2
    | some q => rw [hq] at hp; exact hp.2.1

lemma WellFormed.complete (hT : T ≤ 255) (hP : P ≤ 65535) (h : p.WellFormed) :
    ∃ q : PublishPacket T P, q.qos = p.qos ∧ Body p.contents.body q ∧ q.contents = p.contents := by
  obtain ⟨t,ht,htb⟩ := topicField_of hT h.topicName h.nonempty
  obtain ⟨v,hv,hvb⟩ := HeaplessVec.collect_eq_some hP
    (p.payload.asSlice_length.trans_le p.payload.length_le)
  refine ⟨⟨t,p.packetId,v,p.qos,p.dup,p.retain⟩,rfl,⟨_,_,(List.append_assoc _ _ _).symm,
    ⟨_,_,rfl,ht,?_⟩,hv⟩,?_⟩
  · have hsome := h.packetId
    have hzero := h.nonzero
    cases hq : p.packetId with
    | none =>
      rw [hq] at hsome
      exact ⟨by simpa using hsome,by simp [contents,optionPid,hq]⟩
    | some pid =>
      rw [hq] at hsome
      exact ⟨hsome.mp rfl,by simp [contents,optionPid,hq],hzero pid hq⟩
  · simp only [contents,htb,hvb]

lemma WellFormed.remainingLength (h : p.WellFormed) :
    p.remainingLength = p.contents.body.length := by
  have hid := h.packetId
  rw [PublishPacket.remainingLength,contents,Contents.body,List.length_append,List.length_append,
    field_length,HeaplessString.bytes_length,HeaplessVec.asSlice_length,HeaplessString.len,
    HeaplessVec.len]
  cases hq : p.packetId with
  | none =>
    rw [hq] at hid
    rw [if_neg (by simpa using hid)]
    simp [optionPid]
  | some pid =>
    rw [hq] at hid
    rw [if_pos (hid.mp rfl)]
    simp only [optionPid,toBeBytes_length]
    omega

lemma body_length_le (hT : T ≤ 255) (hP : P ≤ 65535) (p : PublishPacket T P) :
    p.contents.body.length ≤ maxVariableLength := by
  have ht := p.topicName.length_le
  have hv := p.payload.length_le
  have hid : (optionPid p.packetId).length ≤ 2 := by cases p.packetId <;> simp [optionPid]
  simp only [contents,Contents.body,List.length_append,field_length,HeaplessString.bytes_length,
    HeaplessVec.asSlice_length,maxVariableLength]
  omega

lemma WellFormed.fills_putPacketId (h : p.WellFormed) :
    Fills p.putPacketId (optionPid p.packetId) := by
  have hid := h.packetId
  rw [putPacketId]
  cases hq : p.packetId with
  | none =>
    rw [hq] at hid
    rw [if_neg (by simpa using hid)]
    exact fills_pure
  | some pid =>
    rw [hq] at hid
    rw [if_pos (hid.mp rfl)]
    exact fills_putU16Checked pid

lemma fills_putPayload (p : PublishPacket T P) : Fills p.putPayload p.payload.asSlice := by
  refine fills_checked (writes_putSlice p.payload.asSlice) (fun c => ?_)
  rw [HeaplessVec.asSlice_length]
  rfl

lemma WellFormed.fills (hT : T ≤ 255) (hP : P ≤ 65535) (h : p.WellFormed) :
    Fills p.encodeFields p.contents.wire := by
  have hl := fills_putVariableLength (body_length_le hT hP p)
  rw [← h.remainingLength] at hl
  have hp : Fills p.encodeFields _ := (fills_putByteChecked _).bind (hl.bind
    ((ConnectPacket.fills_writeStr h.topicName).bind (h.fills_putPacketId.bind
      (fills_putPayload p))))
  rw [h.remainingLength] at hp
  simpa [Contents.wire,frame,Contents.body,contents,flags] using hp

end PublishPacket

end Picobroker
