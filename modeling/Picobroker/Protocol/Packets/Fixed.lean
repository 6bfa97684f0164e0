import Picobroker.Protocol.Utils

/-! The packets of fixed layout: the checks of the packet traits, the nine packets of fixed size,
and SUBACK. -/
namespace Picobroker
open Rust

variable {σ : Type}

/-! ### The packet traits -/

/-- `PacketTypeConst::validate_packet_type`. -/
def validatePacketType (packetType : PacketType) (headerFirstByte : UInt8) :
    Proc σ ProtocolError Unit :=
  Proc.failIf (PacketType.from' (headerFirstByte >>> 4) ≠ packetType)
    (.invalidPacketType (headerFirstByte >>> 4))

/-- `PacketHeader::header_first_byte`. -/
def headerFirstByte (packetType : PacketType) (flags : UInt8) : UInt8 :=
  packetType.toU8 <<< 4 ||| (flags &&& 0x0F)

/-- `PacketFixedSize::validate_buffer_size`. -/
def validateBufferSize (packetSize bufferSize : ℕ) : Proc σ ProtocolError Unit :=
  Proc.failIf (bufferSize < packetSize) (.bufferTooSmall bufferSize)

/-- `PacketFixedSize::validate_remaining_length`, with the unsigned subtraction
`PACKET_SIZE - int_length - 1`. -/
def validateRemainingLength (packetSize remainingLength : ℕ) : Proc σ ProtocolError Unit := do
  let intLength := variableLengthLength remainingLength
  let difference ← checkedSub packetSize intLength
  let expectedRemainingLength ← checkedSub difference 1
  Proc.failIf (remainingLength ≠ expectedRemainingLength)
    (.invalidPacketLength packetSize (remainingLength+intLength+1))

/-- The checks with which every decoder of fixed size begins. -/
def decodeHeader (w : ℕ) (packetType : PacketType) (packetSize : ℕ) (bytes : Bytes) :
    Proc Unit ProtocolError Unit := do
  validateBufferSize packetSize bytes.length
  let first ← index bytes 0
  validatePacketType packetType first
  let (remainingLength,_) ← readRemainingLength w bytes
  validateRemainingLength packetSize remainingLength

/-- The body of the decoders that carry a packet identifier and nothing else. -/
def decodePacketId (w : ℕ) (packetType : PacketType) (bytes : Bytes) :
    Proc Unit ProtocolError UInt16 := do
  decodeHeader w packetType 4 bytes
  let hi ← index bytes 2
  let lo ← index bytes 3
  pure (fromBeBytes hi lo)

/-- The body of the matching encoders. -/
def encodePacketId (packetType : PacketType) (flags : UInt8) (packetId : UInt16) :
    Proc Bytes ProtocolError ℕ := do
  let buffer ← Proc.get
  validateBufferSize 4 buffer.length
  setByte 0 (headerFirstByte packetType flags)
  setByte 1 2
  setByte 2 (UInt8.ofNat (packetId.toNat/256))
  setByte 3 (UInt8.ofNat (packetId.toNat%256))
  pure 4

/-- The body of the encoders of the packets without fields. -/
def encodeEmpty (packetType : PacketType) (flags : UInt8) : Proc Bytes ProtocolError ℕ := do
  let buffer ← Proc.get
  validateBufferSize 2 buffer.length
  setByte 0 (headerFirstByte packetType flags)
  setByte 1 0
  pure 2

/-! ### The packets -/

inductive ConnectReturnCode
  | accepted
  | unacceptableProtocolVersion
  | identifierRejected
  | serverUnavailable
  | badUserNameOrPassword
  | notAuthorized
  deriving DecidableEq, Repr

namespace ConnectReturnCode

def toU8 : ConnectReturnCode → UInt8
  | accepted => 0
  | unacceptableProtocolVersion => 1
  | identifierRejected => 2
  | serverUnavailable => 3
  | badUserNameOrPassword => 4
  | notAuthorized => 5

def tryFrom : UInt8 → Option ConnectReturnCode
  | 0 => some accepted
  | 1 => some unacceptableProtocolVersion
  | 2 => some identifierRejected
  | 3 => some serverUnavailable
  | 4 => some badUserNameOrPassword
  | 5 => some notAuthorized
  | _ => none

@[simp] lemma tryFrom_toU8 (c : ConnectReturnCode) : tryFrom c.toU8 = some c := by
  cases c <;> decide

end ConnectReturnCode

structure ConnAckPacket where
  sessionPresent : Bool
  returnCode : ConnectReturnCode
  deriving DecidableEq, Repr

namespace ConnAckPacket

/-- `ConnAckPacket::default()`. -/
def default : ConnAckPacket := ⟨false,.accepted⟩

def encode (p : ConnAckPacket) : Proc Bytes ProtocolError ℕ := do
  let buffer ← Proc.get
  validateBufferSize 4 buffer.length
  setByte 0 (headerFirstByte .connAck 0)
  setByte 1 2
  setByte 2 (if p.sessionPresent then 1 else 0)
  setByte 3 p.returnCode.toU8
  pure 4

/-- The two legal values of the flags byte. -/
def sessionPresentOf : UInt8 → Option Bool
  | 0 => some false
  | 1 => some true
  | _ => none

def decode (w : ℕ) (bytes : Bytes) : Proc Unit ProtocolError ConnAckPacket := do
  decodeHeader w .connAck 4 bytes
  let sessionPresentByte ← index bytes 2
  let sessionPresent ← Proc.okOr (.invalidSessionPresentFlag sessionPresentByte)
    (sessionPresentOf sessionPresentByte)
  let code ← index bytes 3
  let returnCode ← Proc.okOr (.invalidConnectReturnCode code) (ConnectReturnCode.tryFrom code)
  pure ⟨sessionPresent,returnCode⟩

end ConnAckPacket

structure PubAckPacket where
  packetId : UInt16
  deriving DecidableEq, Repr

def PubAckPacket.encode (p : PubAckPacket) : Proc Bytes ProtocolError ℕ :=
  encodePacketId .pubAck 0 p.packetId
def PubAckPacket.decode (w : ℕ) (bytes : Bytes) : Proc Unit ProtocolError PubAckPacket := do
  let packetId ← decodePacketId w .pubAck bytes
  pure ⟨packetId⟩

structure PubRecPacket where
  packetId : UInt16
  deriving DecidableEq, Repr

def PubRecPacket.encode (p : PubRecPacket) : Proc Bytes ProtocolError ℕ :=
  encodePacketId .pubRec 0 p.packetId
def PubRecPacket.decode (w : ℕ) (bytes : Bytes) : Proc Unit ProtocolError PubRecPacket := do
  let packetId ← decodePacketId w .pubRec bytes
  pure ⟨packetId⟩

structure PubRelPacket where
  packetId : UInt16
  deriving DecidableEq, Repr

def PubRelPacket.encode (p : PubRelPacket) : Proc Bytes ProtocolError ℕ :=
  encodePacketId .pubRel 0b0010 p.packetId
def PubRelPacket.decode (w : ℕ) (bytes : Bytes) : Proc Unit ProtocolError PubRelPacket := do
  let packetId ← decodePacketId w .pubRel bytes
  pure ⟨packetId⟩

structure PubCompPacket where
  packetId : UInt16
  deriving DecidableEq, Repr

def PubCompPacket.encode (p : PubCompPacket) : Proc Bytes ProtocolError ℕ :=
  encodePacketId .pubComp 0 p.packetId
def PubCompPacket.decode (w : ℕ) (bytes : Bytes) : Proc Unit ProtocolError PubCompPacket := do
  let packetId ← decodePacketId w .pubComp bytes
  pure ⟨packetId⟩

structure UnsubAckPacket where
  packetId : UInt16
  deriving DecidableEq, Repr

def UnsubAckPacket.encode (p : UnsubAckPacket) : Proc Bytes ProtocolError ℕ :=
  encodePacketId .unsubAck 0 p.packetId
def UnsubAckPacket.decode (w : ℕ) (bytes : Bytes) : Proc Unit ProtocolError UnsubAckPacket := do
  let packetId ← decodePacketId w .unsubAck bytes
  pure ⟨packetId⟩

structure PingReqPacket where
  deriving DecidableEq, Repr

def PingReqPacket.encode (_ : PingReqPacket) : Proc Bytes ProtocolError ℕ := encodeEmpty .pingReq 0
def PingReqPacket.decode (w : ℕ) (bytes : Bytes) : Proc Unit ProtocolError PingReqPacket := do
  decodeHeader w .pingReq 2 bytes
  pure {}

structure PingRespPacket where
  deriving DecidableEq, Repr

def PingRespPacket.encode (_ : PingRespPacket) : Proc Bytes ProtocolError ℕ :=
  encodeEmpty .pingResp 0
def PingRespPacket.decode (w : ℕ) (bytes : Bytes) : Proc Unit ProtocolError PingRespPacket := do
  decodeHeader w .pingResp 2 bytes
  pure {}

structure DisconnectPacket where
  deriving DecidableEq, Repr

def DisconnectPacket.encode (_ : DisconnectPacket) : Proc Bytes ProtocolError ℕ :=
  encodeEmpty .disconnect 0
def DisconnectPacket.decode (w : ℕ) (bytes : Bytes) :
    Proc Unit ProtocolError DisconnectPacket := do
  decodeHeader w .disconnect 2 bytes
  pure {}

structure SubAckPacket where
  packetId : UInt16
  grantedQos : QoS
  deriving DecidableEq, Repr

/-- SUBACK has five bytes and compares the remaining length directly. -/
def SubAckPacket.encode (p : SubAckPacket) : Proc Bytes ProtocolError ℕ := do
  let buffer ← Proc.get
  Proc.failIf (buffer.length < 5) (.bufferTooSmall buffer.length)
  setByte 0 (headerFirstByte .subAck 0)
  setByte 1 3
  setByte 2 (UInt8.ofNat (p.packetId.toNat/256))
  setByte 3 (UInt8.ofNat (p.packetId.toNat%256))
  setByte 4 p.grantedQos.toU8
  pure 5

def SubAckPacket.decode (w : ℕ) (bytes : Bytes) : Proc Unit ProtocolError SubAckPacket := do
  Proc.failIf (bytes.length < 5) (.incompletePacket bytes.length)
  let first ← index bytes 0
  validatePacketType .subAck first
  let (remainingLength,_) ← readRemainingLength w bytes
  Proc.failIf (remainingLength ≠ 3) (.invalidPacketLength 3 remainingLength)
  let hi ← index bytes 2
  let lo ← index bytes 3
  let qosValue ← index bytes 4
  let grantedQos ← QoS.decode qosValue
  pure ⟨fromBeBytes hi lo,grantedQos⟩

/-! ### The unsigned subtraction -/

/-- The announced length leaves room for its own digits and the type byte. -/
def FitsPacketSize (packetSize remainingLength : ℕ) : Prop :=
  variableLengthLength remainingLength+1 ≤ packetSize

instance (packetSize remainingLength : ℕ) : Decidable (FitsPacketSize packetSize remainingLength) :=
  inferInstanceAs (Decidable (_ ≤ _))

lemma fitsPacketSize_four {r : ℕ} : FitsPacketSize 4 r ↔ r < 2097152 := by
  unfold FitsPacketSize variableLengthLength
  split_ifs <;> omega

lemma fitsPacketSize_two {r : ℕ} : FitsPacketSize 2 r ↔ r < 128 := by
  unfold FitsPacketSize variableLengthLength
  split_ifs <;> omega

lemma validateRemainingLength_returns {packetSize r : ℕ} (s : σ) :
    (validateRemainingLength packetSize r s).Returns ↔ FitsPacketSize packetSize r := by
  unfold FitsPacketSize
  by_cases h : variableLengthLength r ≤ packetSize
  · by_cases h' : 1 ≤ packetSize-variableLengthLength r
    · have hr := Proc.failIf_returns (r ≠ packetSize-variableLengthLength r-1)
        (ProtocolError.invalidPacketLength packetSize (r+variableLengthLength r+1)) s
      simp only [validateRemainingLength,Proc.bind_apply,checkedSub_eq h,checkedSub_eq h',
        Outcome.andThen_ok]
      exact ⟨fun _ => by omega,fun _ => hr⟩
    · simp only [validateRemainingLength,Proc.bind_apply,checkedSub_eq h,
        checkedSub_panics (Nat.not_le.mp h'),Outcome.andThen_ok,Outcome.andThen_abort]
      exact ⟨fun hr => absurd hr (Outcome.not_returns_abort _),fun hr => by omega⟩
  · simp only [validateRemainingLength,Proc.bind_apply,checkedSub_panics (Nat.not_le.mp h),
      Outcome.andThen_abort]
    exact ⟨fun hr => absurd hr (Outcome.not_returns_abort _),fun hr => by omega⟩

/-- What stands in the place of the remaining length brings the checks to a panic: a length that
does not fit, or a fifth byte that overflows the word. -/
def LengthPanics (w packetSize : ℕ) (tail : Bytes) : Prop :=
  match lengthField tail with
  | .complete r _ => ¬ FitsPacketSize packetSize r
  | .cut => False
  | .overlong fifth => OverflowsWord w fifth

instance (w packetSize : ℕ) (tail : Bytes) : Decidable (LengthPanics w packetSize tail) := by
  unfold LengthPanics
  cases lengthField tail <;> infer_instance

section Header

variable {w packetSize : ℕ} {packetType : PacketType} {bytes : Bytes}

lemma decodeHeader_short (h : bytes.length < packetSize) :
    decodeHeader w packetType packetSize bytes () = .err (.bufferTooSmall bytes.length) () := by
  rw [decodeHeader,validateBufferSize,Proc.bind_apply,Proc.failIf_pos h]
  rfl

lemma length_of_decodeHeader {u : Unit} {s : Unit}
    (h : decodeHeader w packetType packetSize bytes () = .ok u s) : packetSize ≤ bytes.length := by
  by_contra hlen
  rw [decodeHeader_short (Nat.not_le.mp hlen)] at h
  cases h

lemma decodeHeader_cons {first : UInt8} {tail : Bytes} (h : ¬ (first::tail).length < packetSize) :
    decodeHeader w packetType packetSize (first::tail) () =
      if PacketType.from' (first >>> 4) ≠ packetType then .err (.invalidPacketType (first >>> 4)) ()
      else (readVariableLength w tail).andThen
        (fun x => validateRemainingLength packetSize x.1) := by
  rw [decodeHeader,validateBufferSize,Proc.bind_apply,Proc.failIf_neg h,Outcome.andThen_ok,
    Proc.bind_apply,index_zero,Outcome.andThen_ok,validatePacketType,Proc.bind_apply]
  by_cases ht : PacketType.from' (first >>> 4) ≠ packetType
  · rw [if_pos ht,Proc.failIf_pos ht]
    rfl
  · rw [if_neg ht,Proc.failIf_neg ht,Outcome.andThen_ok,Proc.bind_apply,readRemainingLength_cons]
    cases readVariableLength w tail <;> rfl

/-- The checks panic exactly on a frame of this type and sufficient size whose remaining length
makes them. -/
lemma decodeHeader_returns (hw : 32 ≤ w) (hsize : 0 < packetSize) :
    (decodeHeader w packetType packetSize bytes ()).Returns ↔
      ¬ (packetSize ≤ bytes.length ∧ ∃ first tail, bytes = first::tail ∧
        PacketType.from' (first >>> 4) = packetType ∧ LengthPanics w packetSize tail) := by
  by_cases hlen : bytes.length < packetSize
  · rw [decodeHeader_short hlen]
    exact ⟨fun _ h => by omega,fun _ => Outcome.returns_err _ _⟩
  obtain ⟨first,tail,rfl⟩ : ∃ first tail, bytes = first::tail :=
    List.exists_cons_of_length_pos (by omega)
  have hhere : (packetSize ≤ (first::tail).length ∧ ∃ f t, first::tail = f::t ∧
      PacketType.from' (f >>> 4) = packetType ∧ LengthPanics w packetSize t) ↔
      PacketType.from' (first >>> 4) = packetType ∧ LengthPanics w packetSize tail := by
    constructor
    · rintro ⟨-,_,_,h,ht,hp⟩
      cases h
      exact ⟨ht,hp⟩
    · exact fun ⟨ht,hp⟩ => ⟨Nat.not_lt.mp hlen,first,tail,rfl,ht,hp⟩
  rw [hhere,decodeHeader_cons hlen]
  by_cases ht : PacketType.from' (first >>> 4) ≠ packetType
  · rw [if_pos ht]
    exact ⟨fun _ h => ht h.1,fun _ => Outcome.returns_err _ _⟩
  have hspec := readVariableLength_spec hw tail
  rw [if_neg ht]
  rw [not_ne_iff] at ht
  simp only [ht,true_and,LengthPanics]
  cases hf : lengthField tail with
  | complete r k =>
    simp only [hf] at hspec
    rw [hspec,Outcome.andThen_ok,validateRemainingLength_returns,not_not]
  | cut =>
    simp only [hf] at hspec
    rw [hspec]
    simp
  | overlong fifth =>
    simp only [hf] at hspec
    split at hspec
    · rename_i hover
      rw [hspec]
      simp [hover]
    · rename_i hover
      obtain ⟨e,he⟩ := hspec
      rw [he]
      simp [hover]

/-- A packet of fixed size has one remaining length. -/
lemma validateRemainingLength_eq_ok (hsize : packetSize = 2 ∨ packetSize = 4) (r : ℕ) :
    validateRemainingLength packetSize r () = .ok () () ↔ r = packetSize-2 := by
  have hv : variableLengthLength r = 1 ∧ r < 128 ∨ variableLengthLength r ≤ 4 ∧
      variableLengthLength r ≠ 1 ∧ 128 ≤ r := by
    unfold variableLengthLength
    split_ifs <;> omega
  by_cases hfit : FitsPacketSize packetSize r
  · unfold FitsPacketSize at hfit
    rw [validateRemainingLength,Proc.bind_apply,checkedSub_eq (by omega),Outcome.andThen_ok,
      Proc.bind_apply,checkedSub_eq (by omega),Outcome.andThen_ok,Proc.failIf_eq_ok,
      not_ne_iff,and_iff_left rfl]
    omega
  · have hr := mt (validateRemainingLength_returns ()).mp hfit
    unfold FitsPacketSize at hfit
    constructor
    · intro h
      rw [h] at hr
      exact absurd (Outcome.returns_ok _ _) hr
    · omega

/-- The frames that pass: the one remaining length that the size leaves. -/
lemma decodeHeader_eq_ok (hw : 32 ≤ w) (hsize : packetSize = 2 ∨ packetSize = 4) :
    decodeHeader w packetType packetSize bytes () = .ok () () ↔
      packetSize ≤ bytes.length ∧ ∃ first tail k, bytes = first::tail ∧
        PacketType.from' (first >>> 4) = packetType ∧
        lengthField tail = .complete (packetSize-2) k := by
  by_cases hlen : bytes.length < packetSize
  · rw [decodeHeader_short hlen]
    exact ⟨(fun h => nomatch h),fun h => by omega⟩
  obtain ⟨first,tail,rfl⟩ : ∃ first tail, bytes = first::tail :=
    List.exists_cons_of_length_pos (by omega)
  rw [decodeHeader_cons hlen]
  by_cases ht : PacketType.from' (first >>> 4) ≠ packetType
  · rw [if_pos ht]
    constructor
    · intro h
      cases h
    · rintro ⟨-,_,_,_,h,ht',-⟩
      cases h
      exact absurd ht' ht
  rw [if_neg ht,Outcome.andThen_eq_ok]
  constructor
  · rintro ⟨⟨r,k⟩,⟨⟩,hr,hv⟩
    exact ⟨Nat.not_lt.mp hlen,first,tail,k,rfl,not_ne_iff.mp ht,
      (readVariableLength_eq_ok hw).mp ((validateRemainingLength_eq_ok hsize r).mp hv ▸ hr)⟩
  · rintro ⟨-,_,_,k,h,-,hk⟩
    cases h
    exact ⟨_,(),(readVariableLength_eq_ok hw).mpr hk,(validateRemainingLength_eq_ok hsize _).mpr rfl⟩

/-- Behind the checks the packet identifier is read at a fixed place. -/
lemma decodePacketId_eq (h : decodeHeader w packetType 4 bytes () = .ok () ())
    (hl : 4 ≤ bytes.length) : decodePacketId w packetType bytes () =
      .ok (fromBeBytes bytes[2] bytes[3]) () := by
  rw [decodePacketId,Proc.bind_apply,h,Outcome.andThen_ok,Proc.bind_apply,
    index_eq (show 2 < bytes.length by omega),Outcome.andThen_ok,Proc.bind_apply,
    index_eq (show 3 < bytes.length by omega)]
  rfl

lemma decodePacketId_returns : (decodePacketId w packetType bytes ()).Returns ↔
    (decodeHeader w packetType 4 bytes ()).Returns := by
  cases h : decodeHeader w packetType 4 bytes () with
  | ok u s =>
    rw [decodePacketId_eq h (length_of_decodeHeader h)]
    simp
  | err e s => rw [decodePacketId,Proc.bind_apply,h]; simp
  | abort why => rw [decodePacketId,Proc.bind_apply,h]; simp

lemma connAck_decode_returns : (ConnAckPacket.decode w bytes ()).Returns ↔
    (decodeHeader w .connAck 4 bytes ()).Returns := by
  cases h : decodeHeader w .connAck 4 bytes () with
  | ok u s =>
    have hl := length_of_decodeHeader h
    refine ⟨fun _ => Outcome.returns_ok _ _,fun _ => ?_⟩
    rw [ConnAckPacket.decode,Proc.bind_apply,h,Outcome.andThen_ok,Proc.bind_apply,
      index_eq (show 2 < bytes.length by omega),Outcome.andThen_ok]
    refine Proc.returns_bind (Proc.okOr_returns _ _ _) (fun _ s _ => ?_)
    rw [Proc.bind_apply,index_eq (show 3 < bytes.length by omega),Outcome.andThen_ok]
    exact Proc.returns_bind (Proc.okOr_returns _ _ _) (fun _ s _ => Outcome.returns_ok _ _)
  | err e s => rw [ConnAckPacket.decode,Proc.bind_apply,h]; simp
  | abort why => rw [ConnAckPacket.decode,Proc.bind_apply,h]; simp

end Header

/-! ### What is written, and how it is read back -/

section Wire

variable {w : ℕ} {packetType : PacketType} {flags : UInt8}

lemma exists_two {buffer : Bytes} (h : 2 ≤ buffer.length) :
    ∃ b₀ b₁ rest, buffer = b₀::b₁::rest := by
  obtain ⟨b₀,buffer,rfl⟩ := List.exists_cons_of_length_pos (show 0 < buffer.length by omega)
  rw [List.length_cons] at h
  obtain ⟨b₁,buffer,rfl⟩ := List.exists_cons_of_length_pos (show 0 < buffer.length by omega)
  exact ⟨b₀,b₁,buffer,rfl⟩

lemma exists_four {buffer : Bytes} (h : 4 ≤ buffer.length) :
    ∃ b₀ b₁ b₂ b₃ rest, buffer = b₀::b₁::b₂::b₃::rest := by
  obtain ⟨b₀,b₁,buffer,rfl⟩ := exists_two (show 2 ≤ buffer.length by omega)
  simp only [List.length_cons] at h
  obtain ⟨b₂,b₃,buffer,rfl⟩ := exists_two (show 2 ≤ buffer.length by omega)
  exact ⟨b₀,b₁,b₂,b₃,buffer,rfl⟩

/-- The four bytes of a packet with a body of two. -/
lemma frame_two (header b₂ b₃ : UInt8) : frame header [b₂,b₃] = [header,2,b₂,b₃] := by
  rw [frame,variableLengthBytes_small (by simp)]
  rfl

lemma frame_nil (header : UInt8) : frame header [] = [header,0] := by
  rw [frame,variableLengthBytes_small (by decide)]
  rfl

lemma encodePacketId_eq (packetId : UInt16) {buffer : Bytes} (h : 4 ≤ buffer.length) :
    encodePacketId packetType flags packetId buffer =
      .ok 4 (frame (headerFirstByte packetType flags) (toBeBytes packetId) ++ buffer.drop 4) := by
  obtain ⟨b₀,b₁,b₂,b₃,rest,rfl⟩ := exists_four h
  rw [toBeBytes,frame_two]
  simp [encodePacketId,validateBufferSize,setByte]

lemma encodeEmpty_eq {buffer : Bytes} (h : 2 ≤ buffer.length) :
    encodeEmpty packetType flags buffer =
      .ok 2 (frame (headerFirstByte packetType flags) [] ++ buffer.drop 2) := by
  obtain ⟨b₀,b₁,rest,rfl⟩ := exists_two h
  rw [frame_nil]
  simp [encodeEmpty,validateBufferSize,setByte]

/-- What a CONNACK carries. -/
def ConnAckPacket.body (p : ConnAckPacket) : Bytes :=
  [if p.sessionPresent then 1 else 0,p.returnCode.toU8]

lemma ConnAckPacket.encode_eq (p : ConnAckPacket) {buffer : Bytes} (h : 4 ≤ buffer.length) :
    p.encode buffer = .ok 4 (frame (headerFirstByte .connAck 0) p.body ++ buffer.drop 4) := by
  obtain ⟨b₀,b₁,b₂,b₃,rest,rfl⟩ := exists_four h
  rw [ConnAckPacket.body,frame_two]
  simp [ConnAckPacket.encode,validateBufferSize,setByte]

def SubAckPacket.body (p : SubAckPacket) : Bytes := toBeBytes p.packetId ++ [p.grantedQos.toU8]

lemma frame_three (header b₄ : UInt8) (x : UInt16) : frame header (toBeBytes x ++ [b₄]) =
    [header,3,UInt8.ofNat (x.toNat/256),UInt8.ofNat (x.toNat%256),b₄] := by
  rw [frame,variableLengthBytes_small (by simp)]
  rfl

lemma SubAckPacket.encode_eq (p : SubAckPacket) {buffer : Bytes} (h : 5 ≤ buffer.length) :
    p.encode buffer = .ok 5 (frame (headerFirstByte .subAck 0) p.body ++ buffer.drop 5) := by
  obtain ⟨b₀,b₁,b₂,b₃,buffer,rfl⟩ := exists_four (show 4 ≤ buffer.length by omega)
  simp only [List.length_cons] at h
  obtain ⟨b₄,rest,rfl⟩ := List.exists_cons_of_length_pos (show 0 < buffer.length by omega)
  rw [SubAckPacket.body,frame_three]
  simp [SubAckPacket.encode,setByte]

end Wire

end Picobroker
