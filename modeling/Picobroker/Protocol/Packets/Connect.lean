import Picobroker.Protocol.Heapless
import Picobroker.Protocol.Packets.Fixed

/-! CONNECT: a fixed protocol header, then the fields that the flag byte announces. -/
namespace Picobroker
open Rust

variable {T P : ℕ}

/-- The bytes of `"MQTT"`. -/
def mqttProtocolName : Bytes := [0x4D,0x51,0x54,0x54]
def mqtt311ProtocolLevel : UInt8 := 4

structure ConnectFlags where
  bits : UInt8
  deriving DecidableEq, Repr

namespace ConnectFlags

def reserved : ConnectFlags := ⟨0b00000001⟩
def cleanSession : ConnectFlags := ⟨0b00000010⟩
def willFlag : ConnectFlags := ⟨0b00000100⟩
def willQos1 : ConnectFlags := ⟨0b00001000⟩
def willQos2 : ConnectFlags := ⟨0b00010000⟩
def willRetain : ConnectFlags := ⟨0b00100000⟩
def password : ConnectFlags := ⟨0b01000000⟩
def username : ConnectFlags := ⟨0b10000000⟩

def contains (self other : ConnectFlags) : Bool := self.bits &&& other.bits == other.bits

end ConnectFlags

/-- `ConnectPacket<MAX_TOPIC_NAME_LENGTH, MAX_PAYLOAD_SIZE>`. -/
structure ConnectPacket (T P : ℕ) where
  connectFlags : ConnectFlags
  keepAlive : UInt16
  clientId : ClientId
  willTopic : Option (TopicName T)
  willPayload : Option (HeaplessVec UInt8 P)
  username : Option (HeaplessString T)
  password : Option (HeaplessVec UInt8 T)
  deriving DecidableEq, Repr

/-- `let mut v = HeaplessVec::new(); v.extend_from_slice(bytes).map_err(|_| e)?`. -/
def collectBytes {σ : Type} {N : ℕ} (e : ProtocolError) (bytes : Bytes) :
    Proc σ ProtocolError (HeaplessVec UInt8 N) :=
  ⟨fun s => match HeaplessVec.extendFromSlice bytes HeaplessVec.new with
    | .ok _ v => .ok v s
    | .err _ _ => .err e s
    | .abort w => .abort w⟩

namespace ConnectPacket

/-- `if let Some(field) = &self.field { write(field)?; }`. -/
def putOption {α : Type} (put : α → Proc Cursor ProtocolError Unit) :
    Option α → Proc Cursor ProtocolError Unit
  | some a => put a
  | none => pure ()

/-- The bytes an optional length-prefixed field adds to the remaining length. -/
def optionLength {α : Type} (len : α → ℕ) : Option α → ℕ
  | some a => 2+len a
  | none => 0

def remainingLength (p : ConnectPacket T P) : ℕ :=
  2+mqttProtocolName.length+1+1+2+(2+p.clientId.len)+
    optionLength (fun t => t.asStr.length) p.willTopic+
    optionLength (fun v => v.len) p.willPayload+
    optionLength (fun u => u.len) p.username+
    optionLength (fun v => v.len) p.password

/-- The writes of `encode`, in order: the variable header, the payload, and all of them. -/
def putHeader (p : ConnectPacket T P) : Proc Cursor ProtocolError Unit := do
  writeString mqttProtocolName
  Cursor.putByte mqtt311ProtocolLevel
  Cursor.putByte p.connectFlags.bits
  Cursor.putSlice (toBeBytes p.keepAlive)

def putPayload (p : ConnectPacket T P) : Proc Cursor ProtocolError Unit := do
  writeString p.clientId.asStr
  putOption (fun t => writeString t.asStr) p.willTopic
  putOption (fun v => writeBinary v.asSlice) p.willPayload
  putOption (fun u => writeString u.asStr) p.username
  putOption (fun v => writeBinary v.asSlice) p.password

def encodeFields (p : ConnectPacket T P) : Proc Cursor ProtocolError Unit := do
  Cursor.putByte (headerFirstByte .connect 0)
  putVariableLength p.remainingLength
  p.putHeader
  p.putPayload

/-- The optional will: its topic and its payload. -/
def decodeWill (bytes : Bytes) :
    Reader ProtocolError (Option (TopicName T) × Option (HeaplessVec UInt8 P)) := do
  let willTopicStr ← readString bytes
  Proc.failIf (willTopicStr = []) .topicEmpty
  let willTopic ← Proc.okOr (.topicNameLengthExceeded T willTopicStr.length)
    (HeaplessString.tryFrom willTopicStr)
  let willPayloadBytes ← readBinary bytes
  Proc.failIf (willPayloadBytes.length > P) (.payloadTooLarge P willPayloadBytes.length)
  let willPayload ← collectBytes (.payloadTooLarge P willPayloadBytes.length) willPayloadBytes
  pure (some willTopic,some willPayload)

def decodeUsername (bytes : Bytes) : Reader ProtocolError (Option (HeaplessString T)) := do
  let usernameStr ← readString bytes
  let username ← Proc.okOr (.usernameLengthExceeded T usernameStr.length)
    (HeaplessString.tryFrom usernameStr)
  pure (some username)

def decodePassword (bytes : Bytes) : Reader ProtocolError (Option (HeaplessVec UInt8 T)) := do
  let passwordBytes ← readBinary bytes
  let password ← collectBytes (.passwordLengthExceeded T passwordBytes.length) passwordBytes
  pure (some password)

/-- The variable header: protocol name and level, flags, keep-alive. -/
def decodeHeader (bytes : Bytes) : Reader ProtocolError (ConnectFlags × UInt16) := do
  let protocolName ← readString bytes
  Proc.failIf (protocolName ≠ mqttProtocolName) .invalidProtocolName
  let protocolLevel ← nextByte bytes
  Proc.failIf (protocolLevel ≠ mqtt311ProtocolLevel) (.unsupportedProtocolLevel protocolLevel)
  let connectFlagsByte ← nextByte bytes
  let connectFlags : ConnectFlags := ⟨connectFlagsByte⟩
  Proc.failIf (connectFlags.contains .reserved = true) (.invalidConnectFlags connectFlagsByte)
  let keepAlive ← nextU16 bytes
  pure (connectFlags,keepAlive)

/-- The client identifier; the limit reported for a long one is the topic limit, while the capacity
is 23. -/
def decodeClientId (connectFlags : ConnectFlags) (bytes : Bytes) :
    Reader ProtocolError ClientId := do
  let clientId ← readString bytes
  Proc.failIf (clientId = [] ∧ connectFlags.contains .cleanSession = false) .clientIdEmpty
  Proc.okOr (.clientIdLengthExceeded T clientId.length) (HeaplessString.tryFrom clientId)

def decodeFields (bytes : Bytes) : Reader ProtocolError (ConnectPacket T P) := do
  let header ← decodeHeader bytes
  let clientId ← decodeClientId (T := T) header.1 bytes
  let will ← (if header.1.contains .willFlag = true then decodeWill bytes else pure (none,none))
  let username ← (if header.1.contains .username = true then decodeUsername bytes else pure none)
  let password ← (if header.1.contains .password = true then decodePassword bytes else pure none)
  pure ⟨header.1,header.2,clientId,will.1,will.2,username,password⟩

def decodeFrame (w : ℕ) (bytes : Bytes) : Reader ProtocolError (ConnectPacket T P) := do
  let first ← index bytes 0
  validatePacketType .connect first
  let (remainingLength,intLength) ← readRemainingLength w bytes
  Proc.modify (fun _ => 1+intLength)
  Proc.failIf (1+intLength ≥ bytes.length) (.incompletePacket bytes.length)
  let packet ← decodeFields bytes
  let offset ← Proc.get
  Proc.failIf (offset-1-intLength ≠ remainingLength)
    (.invalidPacketLength remainingLength (offset-1-intLength))
  pure packet

def decode (w : ℕ) (bytes : Bytes) : Outcome Unit ProtocolError (ConnectPacket T P) :=
  (decodeFrame w bytes).eval 0

def encode (p : ConnectPacket T P) : Proc Bytes ProtocolError ℕ := encodeWith p.encodeFields

end ConnectPacket

/-! ### What the fields spell -/

section Grammar
open Reader

variable {N : ℕ}

lemma collectBytes_eq {σ : Type} (e : ProtocolError) (bytes : Bytes) :
    (collectBytes e bytes : Proc σ ProtocolError (HeaplessVec UInt8 N)) =
      Proc.okOr e (HeaplessVec.collect bytes) := by
  have hr := HeaplessVec.extendFromSlice_new (N := N) bytes
  rw [collectBytes,HeaplessVec.collect]
  cases h : HeaplessVec.extendFromSlice bytes (HeaplessVec.new : HeaplessVec UInt8 N) with
  | ok u v => rfl
  | err e' v => rfl
  | abort why => rw [h] at hr; exact absurd hr (Outcome.not_returns_abort why)

lemma decides_collectBytes (e : ProtocolError) (bytes : Bytes) :
    Decides (fun _ => (collectBytes e bytes : Reader ProtocolError (HeaplessVec UInt8 N)))
      (fun enc v => enc = [] ∧ HeaplessVec.collect bytes = some v) := by
  rw [collectBytes_eq]
  exact decides_okOr e _

/-- The field of a string that a decoder stores. -/
def StringField (enc : Bytes) (t : HeaplessString N) : Prop :=
  ∃ s, (enc = field s ∧ s.length < 65536 ∧ validUtf8 s = true) ∧ HeaplessString.tryFrom s = some t

/-- The field of a topic name or filter. -/
def TopicField (enc : Bytes) (t : HeaplessString N) : Prop :=
  ∃ s, (enc = field s ∧ s.length < 65536 ∧ validUtf8 s = true) ∧ s ≠ [] ∧
    HeaplessString.tryFrom s = some t

def BinaryField (enc : Bytes) (v : HeaplessVec UInt8 N) : Prop :=
  ∃ d, (enc = field d ∧ d.length < 65536) ∧ HeaplessVec.collect d = some v

section Contents

lemma StringField.spec (hN : N ≤ 255) {enc : Bytes} {t : HeaplessString N}
    (h : StringField enc t) : enc = field t.bytes ∧ t.Utf8 := by
  obtain ⟨s,⟨rfl,-,hv⟩,ht⟩ := h
  have hb := HeaplessString.bytes_of_tryFrom hN ht
  exact ⟨by rw [hb],by rwa [HeaplessString.Utf8,hb]⟩

lemma TopicField.stringField {enc : Bytes} {t : HeaplessString N} (h : TopicField enc t) :
    StringField enc t := by
  obtain ⟨s,hs,-,ht⟩ := h
  exact ⟨s,hs,ht⟩

lemma TopicField.ne_nil (hN : N ≤ 255) {enc : Bytes} {t : HeaplessString N}
    (h : TopicField enc t) : t.bytes ≠ [] := by
  obtain ⟨s,-,hne,ht⟩ := h
  rwa [HeaplessString.bytes_of_tryFrom hN ht]

lemma BinaryField.spec (hN : N ≤ 65535) {enc : Bytes} {v : HeaplessVec UInt8 N}
    (h : BinaryField enc v) : enc = field v.asSlice := by
  obtain ⟨d,⟨rfl,-⟩,hv⟩ := h
  rw [HeaplessVec.asSlice_of_collect hN hv]

/-- Text is stored again as the same text. -/
lemma stringField_of (hN : N ≤ 255) {t : HeaplessString N} (ht : t.Utf8) :
    ∃ u : HeaplessString N, StringField (field t.bytes) u ∧ u.bytes = t.bytes := by
  have hl := t.length_le
  have hlt := t.length_lt
  obtain ⟨u,hu,hb⟩ := HeaplessString.tryFrom_eq_some hN (by rwa [t.bytes_length])
  exact ⟨u,⟨t.bytes,⟨rfl,by rw [t.bytes_length]; omega,ht⟩,hu⟩,hb⟩

lemma topicField_of (hN : N ≤ 255) {t : HeaplessString N} (ht : t.Utf8) (hne : t.bytes ≠ []) :
    ∃ u : HeaplessString N, TopicField (field t.bytes) u ∧ u.bytes = t.bytes := by
  obtain ⟨u,⟨s,hs,hu⟩,hb⟩ := stringField_of hN ht
  have hsb : s = u.bytes := (HeaplessString.bytes_of_tryFrom hN hu).symm
  exact ⟨u,⟨s,hs,by rwa [hsb,hb],hu⟩,hb⟩

lemma binaryField_of (hN : N ≤ 65535) (v : HeaplessVec UInt8 N) :
    ∃ u : HeaplessVec UInt8 N, BinaryField (field v.asSlice) u ∧ u.asSlice = v.asSlice := by
  obtain ⟨u,hu,hb⟩ := HeaplessVec.collect_eq_some hN
    (by rw [v.asSlice_length]; exact v.length_le)
  exact ⟨u,⟨v.asSlice,⟨rfl,by rw [v.asSlice_length]; exact v.length_lt⟩,hu⟩,hb⟩

end Contents

/-- A field that is there exactly when its flag is set. -/
def OptionalField {α : Type} (present : Prop) (G : Bytes → α → Prop) (enc : Bytes) :
    Option α → Prop
  | none => ¬ present ∧ enc = []
  | some a => present ∧ G enc a

/-- The bytes of an optional field. -/
def optionField : Option Bytes → Bytes
  | some data => field data
  | none => []

section Optional

variable {α : Type} {present : Prop} {G : Bytes → α → Prop} {enc : Bytes}
  {o : Option α}

lemma OptionalField.isSome_iff (h : OptionalField present G enc o) :
    o.isSome = true ↔ present := by
  cases o with
  | none => simp [h.1]
  | some a => simp [h.1]

lemma OptionalField.of_mem (h : OptionalField present G enc o) {a : α} (ha : a ∈ o) : G enc a := by
  cases ha
  exact h.2

lemma OptionalField.eq (view : α → Bytes) (hG : ∀ a, G enc a → enc = field (view a))
    (h : OptionalField present G enc o) : enc = optionField (o.map view) := by
  cases o with
  | none => exact h.2
  | some a => exact hG a h.2

lemma optionalField_of (view : α → Bytes) (ho : o.isSome = true ↔ present)
    (hG : ∀ a ∈ o, ∃ b, G (field (view a)) b ∧ view b = view a) :
    ∃ q, OptionalField present G (optionField (o.map view)) q ∧ q.map view = o.map view := by
  cases o with
  | none => exact ⟨none,⟨by simpa using ho,rfl⟩,rfl⟩
  | some a =>
    obtain ⟨b,hb,hv⟩ := hG a rfl
    exact ⟨some b,⟨by simpa using ho,hb⟩,by rw [Option.map_some,Option.map_some,hv]⟩

end Optional

lemma decides_optional {α : Type} (present : Prop) [Decidable present]
    {r : Bytes → Reader ProtocolError (Option α)} {G : Bytes → α → Prop}
    (hr : Decides r (fun enc o => ∃ a, G enc a ∧ o = some a)) :
    Decides (fun bytes => if present then r bytes else pure none)
      (OptionalField present G) := by
  refine (hr.ite (decides_pure none)).congr (fun enc o => ?_)
  cases o with
  | none => by_cases h : present <;> simp [OptionalField,h]
  | some a => by_cases h : present <;> simp [OptionalField,h]

end Grammar

namespace ConnectPacket
open Reader

lemma decides_decodeWill : Decides (decodeWill (T := T) (P := P))
    (fun enc x => ∃ e₁ e₂ t v, enc = e₁ ++ e₂ ∧ TopicField e₁ t ∧ BinaryField e₂ v ∧
      x = (some t,some v)) := by
  refine (decides_readString.bind (fun s => (decides_failIf (s = []) _).bind (fun _ =>
    (decides_okOr _ (HeaplessString.tryFrom s)).bind (fun t => decides_readBinary.bind (fun d =>
      (decides_failIf (d.length > P) _).bind (fun _ => (decides_collectBytes _ d).bind (fun v =>
        decides_pure (some t,some v)))))))).congr (fun enc x => ?_)
  simp only [seq_value,seq_result,seq_iff]
  constructor
  · rintro ⟨e₁,e₂,t,v,rfl,⟨s,hs,hne,ht⟩,⟨d,hd,hv⟩,rfl⟩
    have hP := HeaplessVec.length_le_of_collect hv
    exact ⟨e₁,e₂,s,rfl,hs,(),hne,t,ht,e₂,[],d,by simp,hd,(),by omega,v,⟨rfl,hv⟩,rfl⟩
  · rintro ⟨e₁,e₂,s,rfl,hs,-,hne,t,ht,e₃,_,d,rfl,hd,-,-,v,⟨rfl,hv⟩,rfl⟩
    exact ⟨e₁,e₃ ++ [],t,v,rfl,⟨s,hs,hne,ht⟩,⟨d,by simpa using hd,hv⟩,rfl⟩

lemma decides_decodeUsername : Decides (decodeUsername (T := T))
    (fun enc o => ∃ u, StringField enc u ∧ o = some u) := by
  refine (decides_readString.bind (fun s =>
    (decides_okOr _ (HeaplessString.tryFrom s)).bind (fun u => decides_pure (some u)))).congr
      (fun enc o => ?_)
  simp only [seq_result,seq_iff]
  constructor
  · rintro ⟨u,⟨s,hs,hu⟩,rfl⟩
    exact ⟨enc,[],s,by simp,hs,u,⟨rfl,hu⟩,rfl⟩
  · rintro ⟨e,_,s,rfl,hs,u,⟨rfl,hu⟩,rfl⟩
    exact ⟨u,⟨s,by simpa using hs,hu⟩,rfl⟩

lemma decides_decodePassword : Decides (decodePassword (T := T))
    (fun enc o => ∃ v, BinaryField enc v ∧ o = some v) := by
  refine (decides_readBinary.bind (fun d =>
    (decides_collectBytes _ d).bind (fun v => decides_pure (some v)))).congr (fun enc o => ?_)
  simp only [seq_result,seq_iff]
  constructor
  · rintro ⟨v,⟨d,hd,hv⟩,rfl⟩
    exact ⟨enc,[],d,by simp,hd,v,⟨rfl,hv⟩,rfl⟩
  · rintro ⟨e,_,d,rfl,hd,v,⟨rfl,hv⟩,rfl⟩
    exact ⟨v,⟨d,by simpa using hd,hv⟩,rfl⟩

/-- The bytes of the variable header. -/
def header (flags : ConnectFlags) (keepAlive : UInt16) : Bytes :=
  field mqttProtocolName ++ (mqtt311ProtocolLevel :: flags.bits :: toBeBytes keepAlive)

lemma decides_decodeHeader : Decides decodeHeader
    (fun enc x => enc = header x.1 x.2 ∧ x.1.contains .reserved = false) := by
  refine (decides_readString.bind (fun name => (decides_failIf (name ≠ mqttProtocolName) _).bind
    (fun _ => decides_nextByte.bind (fun level =>
    (decides_failIf (level ≠ mqtt311ProtocolLevel) _).bind (fun _ =>
    decides_nextByte.bind (fun flags =>
    (decides_failIf ((ConnectFlags.mk flags).contains .reserved = true) _).bind (fun _ =>
    decides_nextU16.bind (fun keepAlive => decides_pure (_,_))))))))).congr (fun enc x => ?_)
  simp only [seq_value,seq_result,seq_iff]
  constructor
  · rintro ⟨rfl,hr⟩
    exact ⟨_,_,mqttProtocolName,rfl,⟨rfl,by decide,by decide⟩,(),by simp,_,_,_,rfl,rfl,(),by simp,
      _,_,_,rfl,rfl,(),by simp [hr],x.2,rfl,rfl⟩
  · rintro ⟨_,_,name,rfl,⟨rfl,-,-⟩,-,hn,_,_,level,rfl,rfl,-,hl,_,_,flags,rfl,rfl,-,hr,keepAlive,
      rfl,rfl⟩
    rw [not_ne_iff] at hn hl
    subst hn hl
    exact ⟨rfl,by simpa using hr⟩

/-- The client identifier may be empty for a clean session only. -/
def ClientIdField (flags : ConnectFlags) (enc : Bytes) (c : ClientId) : Prop :=
  ∃ s, (enc = field s ∧ s.length < 65536 ∧ validUtf8 s = true) ∧
    (s = [] → flags.contains .cleanSession = true) ∧ HeaplessString.tryFrom s = some c

lemma decides_decodeClientId (flags : ConnectFlags) :
    Decides (decodeClientId (T := T) flags) (ClientIdField flags) := by
  refine (decides_readString.bind (fun s =>
    (decides_failIf (s = [] ∧ flags.contains .cleanSession = false) _).bind (fun _ =>
    decides_okOr _ (HeaplessString.tryFrom s)))).congr (fun enc c => ?_)
  simp only [seq_value,seq_iff]
  constructor
  · rintro ⟨s,hs,hc,ht⟩
    refine ⟨enc,[],s,by simp,hs,(),?_,rfl,ht⟩
    rintro ⟨he,hf⟩
    rw [hc he] at hf
    cases hf
  · rintro ⟨e,_,s,rfl,hs,-,hc,rfl,ht⟩
    exact ⟨s,by simpa using hs,fun he => by simpa [he] using hc,ht⟩

/-- The two fields of a will, or nothing. -/
def WillField (present : Prop) (enc : Bytes) :
    Option (TopicName T) × Option (HeaplessVec UInt8 P) → Prop
  | (none,none) => ¬ present ∧ enc = []
  | (some t,some v) => present ∧ ∃ e₁ e₂, enc = e₁ ++ e₂ ∧ TopicField e₁ t ∧ BinaryField e₂ v
  | _ => False

lemma decides_will (present : Prop) [Decidable present] :
    Decides (fun bytes => if present then decodeWill (T := T) (P := P) bytes else pure (none,none))
      (WillField present) := by
  refine (decides_decodeWill.ite (decides_pure (none,none))).congr (fun enc x => ?_)
  obtain ⟨_ | t,_ | v⟩ := x <;> by_cases h : present <;> simp [WillField,h]

/-- What a CONNECT packet says. -/
structure Contents where
  connectFlags : ConnectFlags
  keepAlive : UInt16
  clientId : Bytes
  willTopic : Option Bytes
  willPayload : Option Bytes
  username : Option Bytes
  password : Option Bytes
  deriving DecidableEq, Repr

def Contents.body (c : Contents) : Bytes :=
  header c.connectFlags c.keepAlive ++ (field c.clientId ++
    (optionField c.willTopic ++ optionField c.willPayload ++
      (optionField c.username ++ optionField c.password)))

/-- The fields as they follow each other on the wire. -/
def Body (body : Bytes) (p : ConnectPacket T P) : Prop :=
  ∃ client will user pass,
    body = header p.connectFlags p.keepAlive ++ (client ++ (will ++ (user ++ pass))) ∧
    p.connectFlags.contains .reserved = false ∧
    ClientIdField p.connectFlags client p.clientId ∧
    WillField (p.connectFlags.contains .willFlag = true) will (p.willTopic,p.willPayload) ∧
    OptionalField (p.connectFlags.contains .username = true) StringField user p.username ∧
    OptionalField (p.connectFlags.contains .password = true) BinaryField pass p.password

lemma decides_decodeFields : Decides (decodeFields (T := T) (P := P)) Body := by
  refine (decides_decodeHeader.bind (fun x => (decides_decodeClientId x.1).bind (fun clientId =>
    (decides_will (x.1.contains .willFlag = true)).bind (fun will =>
    (decides_optional (x.1.contains .username = true) decides_decodeUsername).bind (fun username =>
    (decides_optional (x.1.contains .password = true) decides_decodePassword).bind (fun password =>
    decides_pure (ConnectPacket.mk x.1 x.2 clientId will.1 will.2 username password))))))).congr
      (fun body p => ?_)
  simp only [seq_result,seq_iff]
  constructor
  · rintro ⟨client,will,user,pass,rfl,hr,hc,hw,hu,hp⟩
    exact ⟨_,_,(p.connectFlags,p.keepAlive),rfl,⟨rfl,hr⟩,client,_,p.clientId,rfl,hc,will,_,
      (p.willTopic,p.willPayload),rfl,hw,user,pass,p.username,rfl,hu,p.password,hp,rfl⟩
  · rintro ⟨_,_,x,rfl,⟨rfl,hr⟩,client,_,clientId,rfl,hc,will,_,w,rfl,hw,user,_,username,rfl,hu,
      password,hp,rfl⟩
    exact ⟨client,will,user,_,rfl,hr,hc,hw,hu,hp⟩

/-- What makes a CONNECT representable on the wire: every optional field is there exactly when
its flag says so, strings are text, and an identifier is missing for clean sessions only. -/
structure WellFormed (p : ConnectPacket T P) : Prop where
  reserved : p.connectFlags.contains .reserved = false
  clientId : p.clientId.Utf8
  clean : p.clientId.bytes = [] → p.connectFlags.contains .cleanSession = true
  will : p.willTopic.isSome = true ↔ p.connectFlags.contains .willFlag = true
  willPayload : p.willPayload.isSome = true ↔ p.connectFlags.contains .willFlag = true
  willTopic : ∀ t ∈ p.willTopic, t.Utf8 ∧ t.bytes ≠ []
  username : p.username.isSome = true ↔ p.connectFlags.contains .username = true
  usernameText : ∀ u ∈ p.username, u.Utf8
  password : p.password.isSome = true ↔ p.connectFlags.contains .password = true

/-- The visible contents, without the slots behind the lengths. -/
def contents (p : ConnectPacket T P) : Contents :=
  ⟨p.connectFlags,p.keepAlive,p.clientId.bytes,p.willTopic.map (·.bytes),
    p.willPayload.map (·.asSlice),p.username.map (·.bytes),p.password.map (·.asSlice)⟩

lemma WillField.spec (hT : T ≤ 255) (hP : P ≤ 65535) {present : Prop} {enc : Bytes}
    {x : Option (TopicName T) × Option (HeaplessVec UInt8 P)} (h : WillField present enc x) :
    (x.1.isSome = true ↔ present) ∧ (x.2.isSome = true ↔ present) ∧
    (∀ t ∈ x.1, t.Utf8 ∧ t.bytes ≠ []) ∧
    enc = optionField (x.1.map (·.bytes)) ++ optionField (x.2.map (·.asSlice)) := by
  obtain ⟨_ | t,_ | v⟩ := x
  · obtain ⟨hc,rfl⟩ := h
    simp [hc,optionField]
  · exact h.elim
  · exact h.elim
  · obtain ⟨hc,e₁,e₂,rfl,ht,hv⟩ := h
    obtain ⟨rfl,hu⟩ := ht.stringField.spec hT
    refine ⟨by simp [hc],by simp [hc],?_,?_⟩
    · rintro _ ⟨⟩
      exact ⟨hu,ht.ne_nil hT⟩
    · rw [hv.spec hP]
      rfl

lemma willField_of (hT : T ≤ 255) (hP : P ≤ 65535) {present : Prop} {wt : Option (TopicName T)}
    {wp : Option (HeaplessVec UInt8 P)} (ht : wt.isSome = true ↔ present)
    (hp : wp.isSome = true ↔ present) (hw : ∀ t ∈ wt, t.Utf8 ∧ t.bytes ≠ []) :
    ∃ x : Option (TopicName T) × Option (HeaplessVec UInt8 P),
      WillField present
        (optionField (wt.map (·.bytes)) ++ optionField (wp.map (·.asSlice))) x ∧
      x.1.map (·.bytes) = wt.map (·.bytes) ∧ x.2.map (·.asSlice) = wp.map (·.asSlice) := by
  cases wt with
  | none => cases wp with
    | none => exact ⟨(none,none),⟨by simpa using ht,rfl⟩,rfl,rfl⟩
    | some v =>
      exact absurd (ht.mpr (hp.mp rfl)) (by simp)
  | some t => cases wp with
    | none => exact absurd (hp.mpr (ht.mp rfl)) (by simp)
    | some v =>
      obtain ⟨u,hu,hub⟩ := topicField_of hT (hw t rfl).1 (hw t rfl).2
      obtain ⟨z,hz,hzb⟩ := binaryField_of hP v
      exact ⟨(some u,some z),⟨ht.mp rfl,_,_,rfl,hu,hz⟩,by simp [hub],by simp [hzb]⟩

lemma Body.sound (hT : T ≤ 255) (hP : P ≤ 65535) {body : Bytes} {p : ConnectPacket T P}
    (h : Body body p) : p.WellFormed ∧ body = p.contents.body := by
  obtain ⟨client,will,user,pass,rfl,hr,⟨s,⟨rfl,hs,hv⟩,hc,ht⟩,hw,hu,hp⟩ := h
  have hb := HeaplessString.bytes_of_tryFrom (by decide) ht
  subst hb
  obtain ⟨hw₁,hw₂,hw₃,rfl⟩ := hw.spec hT hP
  constructor
  · exact {
      reserved := hr
      clientId := hv
      clean := hc
      will := hw₁
      willPayload := hw₂
      willTopic := hw₃
      username := hu.isSome_iff
      usernameText := fun u hm => ((hu.of_mem hm).spec hT).2
      password := hp.isSome_iff }
  · rw [hu.eq (·.bytes) (fun u h => (h.spec hT).1),
      hp.eq (·.asSlice) (fun v h => h.spec (by omega))]
    rfl

lemma WellFormed.complete (hT : T ≤ 255) (hP : P ≤ 65535) {p : ConnectPacket T P}
    (h : p.WellFormed) : ∃ q : ConnectPacket T P, Body p.contents.body q ∧
      q.contents = p.contents := by
  obtain ⟨c,⟨s,hs,hc⟩,hcb⟩ := stringField_of (by decide) h.clientId
  have hsb : s = c.bytes := (HeaplessString.bytes_of_tryFrom (by decide) hc).symm
  obtain ⟨x,hx,hx₁,hx₂⟩ := willField_of hT hP h.will h.willPayload h.willTopic
  obtain ⟨u,hu,hub⟩ := optionalField_of (·.bytes) h.username
    (fun t ht => stringField_of hT (h.usernameText t ht))
  obtain ⟨v,hv,hvb⟩ := optionalField_of (·.asSlice) h.password
    (fun t _ => binaryField_of (by omega) t)
  refine ⟨⟨p.connectFlags,p.keepAlive,c,x.1,x.2,u,v⟩,⟨_,_,_,_,rfl,h.reserved,⟨s,hs,?_,hc⟩,hx,hu,hv⟩,?_⟩
  · rw [hsb,hcb]
    exact h.clean
  · simp only [contents,hcb,hx₁,hx₂,hub,hvb]

section Encode
open Rust.Cursor

/-- The whole CONNECT frame. -/
def Contents.wire (c : Contents) : Bytes := frame (headerFirstByte .connect 0) c.body

lemma fills_putOption {α : Type} {put : α → Proc Cursor ProtocolError Unit} (view : α → Bytes)
    {o : Option α} (h : ∀ a ∈ o, Fills (put a) (field (view a))) :
    Fills (putOption put o) (optionField (o.map view)) := by
  cases o with
  | none => exact fills_pure
  | some a => exact h a rfl

/-- The bytes of a valid text are written as they are. -/
lemma fills_writeStr {N : ℕ} {s : HeaplessString N} (h : s.Utf8) :
    Fills (writeString s.asStr) (field s.bytes) := by
  rw [HeaplessString.asStr_eq h]
  exact fills_writeString s.bytes

lemma optionLength_eq {α : Type} {len : α → ℕ} (view : α → Bytes) {o : Option α}
    (h : ∀ a ∈ o, len a = (view a).length) :
    optionLength len o = (optionField (o.map view)).length := by
  cases o with
  | none => rfl
  | some a => rw [optionLength,h a rfl,Option.map_some,optionField,field_length]

variable {p : ConnectPacket T P}

lemma WellFormed.remainingLength (h : p.WellFormed) :
    p.remainingLength = p.contents.body.length := by
  rw [ConnectPacket.remainingLength,optionLength_eq (·.bytes) (o := p.willTopic),
    optionLength_eq (·.asSlice) (o := p.willPayload),optionLength_eq (·.bytes) (o := p.username),
    optionLength_eq (·.asSlice) (o := p.password)]
  · simp only [contents,Contents.body,header,List.length_append,field_length,List.length_cons,
      toBeBytes_length,HeaplessString.bytes_length,HeaplessString.len]
    omega
  · exact fun v _ => v.asSlice_length.symm
  · exact fun u _ => u.bytes_length.symm
  · exact fun v _ => v.asSlice_length.symm
  · exact fun t ht => by rw [HeaplessString.asStr_eq (h.willTopic t ht).1]

lemma optionField_length_le {o : Option Bytes} {n : ℕ} (h : ∀ d ∈ o, d.length ≤ n) :
    (optionField o).length ≤ 2+n := by
  cases o with
  | none => exact Nat.zero_le _
  | some d =>
    rw [optionField,field_length]
    exact Nat.add_le_add_left (h d rfl) 2

lemma body_length_le (hT : T ≤ 255) (hP : P ≤ 65535) (p : ConnectPacket T P) :
    p.contents.body.length ≤ maxVariableLength := by
  have hc := p.clientId.length_le
  have ht : (optionField (p.willTopic.map (·.bytes))).length ≤ 2+T := by
    refine optionField_length_le (fun d hd => ?_)
    obtain ⟨t,-,rfl⟩ := Option.mem_map.mp hd
    exact t.bytes_length.trans_le t.length_le
  have hv : (optionField (p.willPayload.map (·.asSlice))).length ≤ 2+P := by
    refine optionField_length_le (fun d hd => ?_)
    obtain ⟨v,-,rfl⟩ := Option.mem_map.mp hd
    exact v.asSlice_length.trans_le v.length_le
  have hu : (optionField (p.username.map (·.bytes))).length ≤ 2+T := by
    refine optionField_length_le (fun d hd => ?_)
    obtain ⟨t,-,rfl⟩ := Option.mem_map.mp hd
    exact t.bytes_length.trans_le t.length_le
  have hp : (optionField (p.password.map (·.asSlice))).length ≤ 2+T := by
    refine optionField_length_le (fun d hd => ?_)
    obtain ⟨v,-,rfl⟩ := Option.mem_map.mp hd
    exact v.asSlice_length.trans_le v.length_le
  have hn : mqttProtocolName.length = 4 := rfl
  simp only [contents,Contents.body,header,List.length_append,field_length,List.length_cons,
    toBeBytes_length,HeaplessString.bytes_length,hn,maxVariableLength]
  omega

lemma writes_putHeader : Writes p.putHeader (header p.connectFlags p.keepAlive) () :=
  (fills_writeString _).writes.bind ((writes_putByte _).bind ((writes_putByte _).bind
    (writes_putSlice _)))

lemma WellFormed.fills_putPayload (h : p.WellFormed) :
    Fills p.putPayload (field p.clientId.bytes ++ (optionField (p.willTopic.map (·.bytes)) ++
      (optionField (p.willPayload.map (·.asSlice)) ++ (optionField (p.username.map (·.bytes)) ++
        optionField (p.password.map (·.asSlice)))))) := by
  have hc := fills_writeStr h.clientId
  have hw := fills_putOption HeaplessString.bytes (fun t ht => fills_writeStr (h.willTopic t ht).1)
  have hv := fills_putOption (o := p.willPayload) (·.asSlice) (fun v _ => fills_writeBinary _)
  have hu := fills_putOption HeaplessString.bytes (fun u hu => fills_writeStr (h.usernameText u hu))
  have hp := fills_putOption (o := p.password) (·.asSlice) (fun v _ => fills_writeBinary _)
  exact hc.bind (hw.bind (hv.bind (hu.bind hp)))

lemma WellFormed.writes (hT : T ≤ 255) (hP : P ≤ 65535) (h : p.WellFormed) :
    Writes p.encodeFields p.contents.wire () := by
  have hl := (fills_putVariableLength (body_length_le hT hP p)).writes
  rw [← h.remainingLength] at hl
  have hw : Writes p.encodeFields _ () :=
    (writes_putByte _).bind (hl.bind (writes_putHeader.bind h.fills_putPayload.writes))
  rw [h.remainingLength] at hw
  simpa [Contents.wire,frame,Contents.body,contents] using hw

end Encode

section Frame

variable {w : ℕ} {bytes : Bytes} {p : ConnectPacket T P}

/-- The turn from the header byte to the fields. -/
lemma decodeFrame_cons (w : ℕ) (first : UInt8) (tail : Bytes) :
    decodeFrame (T := T) (P := P) w (first::tail) 0 =
      if PacketType.from' (first >>> 4) ≠ .connect then .err (.invalidPacketType (first >>> 4)) 0
      else ((readVariableLength w tail).mapState (fun _ => 0)).andThen (fun x => do
        Proc.modify (fun _ => 1+x.2)
        Proc.failIf (1+x.2 ≥ (first::tail).length) (.incompletePacket (first::tail).length)
        let packet ← decodeFields (first::tail)
        let offset ← Proc.get
        Proc.failIf (offset-1-x.2 ≠ x.1) (.invalidPacketLength x.1 (offset-1-x.2))
        pure packet) := by
  rw [decodeFrame,Proc.bind_apply,index_zero,Outcome.andThen_ok,validatePacketType,Proc.bind_apply]
  by_cases ht : PacketType.from' (first >>> 4) ≠ .connect
  · rw [if_pos ht,Proc.failIf_pos ht]
    rfl
  · rw [if_neg ht,Proc.failIf_neg ht,Outcome.andThen_ok,Proc.bind_apply,readRemainingLength_cons]

lemma Body.ne_nil {body : Bytes} (h : Body body p) : body ≠ [] := by
  obtain ⟨_,_,_,_,rfl,-⟩ := h
  simp [header,field,toBeBytes]

/-- CONNECT is accepted exactly when the slice starts with a frame of its type whose body spells
the packet, and the offset then stands at the end of that frame. -/
lemma decodeFrame_eq_ok (hw : 32 ≤ w) {o : ℕ} : decodeFrame w bytes 0 = .ok p o ↔
    ∃ header k body, FrameAt bytes header k body ∧
      PacketType.from' (header >>> 4) = .connect ∧ Body body p ∧ o = 1+k+body.length := by
  constructor
  · intro h
    cases bytes with
    | nil => cases h
    | cons first tail =>
      rw [decodeFrame_cons] at h
      split at h
      · cases h
      · rename_i ht
        obtain ⟨⟨r,k⟩,s,hr,h⟩ := Outcome.andThen_eq_ok.mp h
        obtain ⟨_,_,hm,h⟩ := Proc.bind_eq_ok.mp h
        obtain ⟨_,_,hlt,h⟩ := Proc.bind_eq_ok.mp h
        obtain ⟨q,o',hq,h⟩ := Proc.bind_eq_ok.mp h
        obtain ⟨_,_,ho,h⟩ := Proc.bind_eq_ok.mp h
        obtain ⟨_,_,hlen,h⟩ := Proc.bind_eq_ok.mp h
        cases h
        cases ho
        simp only [Proc.modify_apply,Outcome.ok.injEq,true_and] at hm
        subst hm
        obtain ⟨-,rfl⟩ := Proc.failIf_eq_ok.mp hlt
        obtain ⟨hlen,rfl⟩ := Proc.failIf_eq_ok.mp hlen
        obtain ⟨body,hb,hd,rfl⟩ := decides_decodeFields.parses hq
        have hk : lengthField tail = .complete r k :=
          (readVariableLength_eq_ok hw).mp (Proc.call_eq_ok.mp hr).1
        have hr : r = body.length := by omega
        subst hr
        exact ⟨first,k,body,⟨tail,_,rfl,hk,by rwa [drop_one_add] at hd⟩,
          not_ne_iff.mp ht,hb,rfl⟩
  · rintro ⟨header,k,body,hf,ht,hb,rfl⟩
    have hl := hf.length_le
    have hpos := List.length_pos_iff.mpr hb.ne_nil
    obtain ⟨tail,rest,rfl,hk,hd⟩ := hf
    have hdrop : (header::tail).drop (1+k) = body ++ rest := by
      rw [drop_one_add,hd]
    have hlt : ¬ 1+k ≥ (header::tail).length := by omega
    have hend : ¬ 1+k+body.length-1-k ≠ body.length := by omega
    rw [decodeFrame_cons,if_neg (not_not_intro ht),(readVariableLength_eq_ok hw).mpr hk]
    simp only [Outcome.mapState_ok,Outcome.andThen_ok,Proc.bind_apply,Proc.modify_apply,
      Proc.failIf_neg hlt,decides_decodeFields.reads hb hdrop,Proc.get_apply,Proc.failIf_neg hend,
      Proc.pure_apply]

/-- CONNECT is accepted exactly when the slice starts with a frame of its type whose body spells
the packet. -/
theorem decode_eq_ok (hw : 32 ≤ w) : decode w bytes = .ok p () ↔
    ∃ header k body, FrameAt bytes header k body ∧
      PacketType.from' (header >>> 4) = .connect ∧ Body body p := by
  rw [decode,Proc.eval_eq_ok]
  constructor
  · rintro ⟨o,h⟩
    obtain ⟨header,k,body,hf,ht,hb,-⟩ := (decodeFrame_eq_ok hw).mp h
    exact ⟨header,k,body,hf,ht,hb⟩
  · rintro ⟨header,k,body,hf,ht,hb⟩
    exact ⟨_,(decodeFrame_eq_ok hw).mpr ⟨header,k,body,hf,ht,hb,rfl⟩⟩

/-- Its decoder panics on the empty slice, and on a remaining length that overflows the word. -/
theorem decode_returns (hw : 32 ≤ w) {first : UInt8} {tail : Bytes} :
    (decode w (first::tail) : Outcome Unit ProtocolError (ConnectPacket T P)).Returns ↔
      ¬ (PacketType.from' (first >>> 4) = .connect ∧
        ∃ fifth, lengthField tail = .overlong fifth ∧ OverflowsWord w fifth) := by
  rw [decode,Proc.eval_returns,decodeFrame_cons]
  by_cases ht : PacketType.from' (first >>> 4) = .connect
  · rw [if_neg (not_not_intro ht),Outcome.returns_andThen_iff,Outcome.returns_mapState,
      readVariableLength_returns hw]
    constructor
    · rintro ⟨h,-⟩ ⟨-,fifth,hf,ho⟩
      exact h fifth hf ho
    · intro h
      refine ⟨fun fifth hf ho => h ⟨ht,fifth,hf,ho⟩,fun x o _ => ?_⟩
      refine Proc.returns_bind (Outcome.returns_ok _ _) (fun _ o _ => ?_)
      refine Proc.returns_bind (Proc.failIf_returns _ _ _) (fun _ o _ => ?_)
      refine Proc.returns_bind (decides_decodeFields.total _ _) (fun q o _ => ?_)
      refine Proc.returns_bind (Outcome.returns_ok _ _) (fun _ o _ => ?_)
      exact Proc.returns_bind (Proc.failIf_returns _ _ _) (fun _ o _ => Outcome.returns_ok _ _)
  · rw [if_pos ht]
    exact ⟨fun _ h => ht h.1,fun _ => Outcome.returns_err _ _⟩

end Frame

end ConnectPacket

end Picobroker
