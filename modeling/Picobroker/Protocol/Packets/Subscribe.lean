import Picobroker.Protocol.Packets.Publish

/-! SUBSCRIBE and UNSUBSCRIBE: a packet identifier and one topic filter. -/
namespace Picobroker
open Rust

variable {T : ℕ}

structure SubscribePacket (T : ℕ) where
  packetId : UInt16
  topicFilter : TopicName T
  requestedQos : QoS
  deriving DecidableEq, Repr

structure UnsubscribePacket (T : ℕ) where
  packetId : UInt16
  topicFilter : TopicName T
  deriving DecidableEq, Repr

/-- The frame that both decoders share: header byte, remaining length, a body, and the check that
the body consumed exactly the announced bytes. -/
def decodeBody {α : Type} (w : ℕ) (packetType : PacketType) (bytes : Bytes)
    (body : Reader ProtocolError α) : Reader ProtocolError α := do
  let headerByte ← nextByte bytes
  checkPacketType packetType headerByte
  let (remainingLength,varLenBytes) ← readRemainingLength w bytes
  Proc.modify (·+varLenBytes)
  let startOffset ← Proc.get
  let a ← body
  let offset ← Proc.get
  Proc.failIf (offset-startOffset ≠ remainingLength)
    (.invalidPacketLength remainingLength (offset-startOffset))
  pure a

namespace SubscribePacket

def encodeFields (p : SubscribePacket T) : Proc Cursor ProtocolError Unit := do
  putByteChecked ((PacketType.subscribe.toU8 <<< 4) ||| 0b0010)
  putVariableLength (2+2+p.topicFilter.len+1)
  putU16Checked p.packetId
  writeString p.topicFilter.asStr
  putByteChecked p.requestedQos.toU8

def encode (p : SubscribePacket T) : Proc Bytes ProtocolError ℕ := encodeWith p.encodeFields

def decodeFields (bytes : Bytes) : Reader ProtocolError (SubscribePacket T) := do
  let packetId ← PublishPacket.decodePid bytes
  let topicFilter ← PublishPacket.decodeTopic bytes
  let requestedQosByte ← nextByte bytes
  let requestedQos ← QoS.decode requestedQosByte
  pure ⟨packetId,topicFilter,requestedQos⟩

def decode (w : ℕ) (bytes : Bytes) : Outcome Unit ProtocolError (SubscribePacket T) :=
  (decodeBody w .subscribe bytes (decodeFields bytes)).eval 0

end SubscribePacket

namespace UnsubscribePacket

def encodeFields (p : UnsubscribePacket T) : Proc Cursor ProtocolError Unit := do
  putByteChecked ((PacketType.unsubscribe.toU8 <<< 4) ||| 0b0010)
  putVariableLength (2+2+p.topicFilter.len)
  putU16Checked p.packetId
  writeString p.topicFilter.asStr

def encode (p : UnsubscribePacket T) : Proc Bytes ProtocolError ℕ := encodeWith p.encodeFields

def decodeFields (bytes : Bytes) : Reader ProtocolError (UnsubscribePacket T) := do
  let packetId ← PublishPacket.decodePid bytes
  let topicFilter ← PublishPacket.decodeTopic bytes
  pure ⟨packetId,topicFilter⟩

def decode (w : ℕ) (bytes : Bytes) : Outcome Unit ProtocolError (UnsubscribePacket T) :=
  (decodeBody w .unsubscribe bytes (decodeFields bytes)).eval 0

end UnsubscribePacket

/-! ### The shared frame -/

section Body
open Reader

variable {α : Type} {w : ℕ} {packetType : PacketType} {bytes : Bytes}
  {body : Bytes → Reader ProtocolError α} {G : Bytes → α → Prop}

lemma decodeBody_cons (w : ℕ) (first : UInt8) (tail : Bytes) (r : Reader ProtocolError α) :
    decodeBody w packetType (first::tail) r 0 =
      if (first >>> 4) &&& 0x0F ≠ packetType.toU8 then
        .err (.invalidPacketType ((first >>> 4) &&& 0x0F)) 1
      else ((readVariableLength w tail).mapState (fun _ => 1)).andThen (fun x => do
        Proc.modify (·+x.2)
        let startOffset ← Proc.get
        let a ← r
        let offset ← Proc.get
        Proc.failIf (offset-startOffset ≠ x.1) (.invalidPacketLength x.1 (offset-startOffset))
        pure a) := by
  rw [decodeBody,Proc.bind_apply,nextByte_fits (by simp),Outcome.andThen_ok,checkPacketType,
    Proc.bind_apply]
  simp only [List.getElem_cons_zero]
  by_cases ht : (first >>> 4) &&& 0x0F ≠ packetType.toU8
  · rw [if_pos ht,Proc.failIf_pos ht]
    rfl
  · rw [if_neg ht,Proc.failIf_neg ht,Outcome.andThen_ok,Proc.bind_apply,readRemainingLength_cons]

/-- The frame is accepted when its body is read to the announced end, where the offset then stands. -/
lemma decodeBody_apply_eq_ok (hw : 32 ≤ w) (hb : Decides body G) {a : α} {o : ℕ} :
    decodeBody w packetType bytes (body bytes) 0 = .ok a o ↔
      ∃ header k enc, FrameAt bytes header k enc ∧
        (header >>> 4) &&& 0x0F = packetType.toU8 ∧ G enc a ∧ o = 1+k+enc.length := by
  constructor
  · intro h
    cases bytes with
    | nil => cases h
    | cons first tail =>
      rw [decodeBody_cons] at h
      split at h
      · cases h
      rename_i ht
      obtain ⟨⟨r,k⟩,s,hr,h⟩ := Outcome.andThen_eq_ok.mp h
      obtain ⟨hlen,rfl⟩ := Proc.call_eq_ok.mp hr
      simp only [Proc.bind_apply,Proc.modify_apply,Proc.get_apply,Outcome.andThen_ok] at h
      obtain ⟨b,_,hbody,h⟩ := Outcome.andThen_eq_ok.mp h
      obtain ⟨_,_,hcheck,h⟩ := Outcome.andThen_eq_ok.mp h
      cases h
      obtain ⟨hsize,rfl⟩ := Proc.failIf_eq_ok.mp hcheck
      obtain ⟨enc,henc,hd,rfl⟩ := hb.parses hbody
      have hr : r = enc.length := by omega
      subst hr
      exact ⟨first,k,enc,⟨tail,_,rfl,(readVariableLength_eq_ok hw).mp hlen,
        by rwa [drop_one_add] at hd⟩,not_ne_iff.mp ht,henc,rfl⟩
  · rintro ⟨header,k,enc,⟨tail,rest,rfl,hk,hd⟩,ht,henc,rfl⟩
    have hdrop : (header::tail).drop (1+k) = enc ++ rest := by
      rw [drop_one_add,hd]
    have hsize : ¬ 1+k+enc.length-(1+k) ≠ enc.length := by omega
    rw [decodeBody_cons,if_neg (not_not_intro ht),(readVariableLength_eq_ok hw).mpr hk]
    simp only [Outcome.mapState_ok,Outcome.andThen_ok,Proc.bind_apply,Proc.modify_apply,
      Proc.get_apply,hb.reads henc hdrop,Proc.failIf_neg hsize,Proc.pure_apply]

lemma decodeBody_eq_ok (hw : 32 ≤ w) (hb : Decides body G) {a : α} :
    (decodeBody w packetType bytes (body bytes)).eval 0 = .ok a () ↔
      ∃ header k enc, FrameAt bytes header k enc ∧
        (header >>> 4) &&& 0x0F = packetType.toU8 ∧ G enc a := by
  rw [Proc.eval_eq_ok]
  constructor
  · rintro ⟨o,h⟩
    obtain ⟨header,k,enc,hf,ht,ha,-⟩ := (decodeBody_apply_eq_ok hw hb).mp h
    exact ⟨header,k,enc,hf,ht,ha⟩
  · rintro ⟨header,k,enc,hf,ht,ha⟩
    exact ⟨_,(decodeBody_apply_eq_ok hw hb).mpr ⟨header,k,enc,hf,ht,ha,rfl⟩⟩

/-- The shared frame panics on a remaining length that overflows the word, and on nothing else. -/
lemma decodeBody_returns (hw : 32 ≤ w) (hb : Decides body G) {first : UInt8} {tail : Bytes} :
    ((decodeBody w packetType (first::tail) (body (first::tail))).eval 0).Returns ↔
      ¬ ((first >>> 4) &&& 0x0F = packetType.toU8 ∧
        ∃ fifth, lengthField tail = .overlong fifth ∧ OverflowsWord w fifth) := by
  rw [Proc.eval_returns,decodeBody_cons]
  by_cases ht : (first >>> 4) &&& 0x0F = packetType.toU8
  · rw [if_neg (not_not_intro ht),Outcome.returns_andThen_iff,Outcome.returns_mapState,
      readVariableLength_returns hw]
    constructor
    · rintro ⟨h,-⟩ ⟨-,fifth,hf,ho⟩
      exact h fifth hf ho
    · intro h
      refine ⟨fun fifth hf ho => h ⟨ht,fifth,hf,ho⟩,fun x o _ => ?_⟩
      refine Proc.returns_bind (Outcome.returns_ok _ _) (fun _ o _ => ?_)
      refine Proc.returns_bind (Outcome.returns_ok _ _) (fun _ o _ => ?_)
      refine Proc.returns_bind (hb.total _ _) (fun a o _ => ?_)
      refine Proc.returns_bind (Outcome.returns_ok _ _) (fun _ o _ => ?_)
      exact Proc.returns_bind (Proc.failIf_returns _ _ _) (fun _ o _ => Outcome.returns_ok _ _)
  · rw [if_pos ht]
    exact ⟨fun _ h => ht h.1,fun _ => Outcome.returns_err _ _⟩

end Body

/-! ### Contents, and what can be encoded -/

namespace SubscribePacket
open Reader Rust.Cursor

/-- What a SUBSCRIBE packet says. -/
structure Contents where
  packetId : UInt16
  topicFilter : Bytes
  requestedQos : QoS
  deriving DecidableEq, Repr

def Contents.body (c : Contents) : Bytes :=
  toBeBytes c.packetId ++ (field c.topicFilter ++ [c.requestedQos.toU8])

def Contents.wire (c : Contents) : Bytes :=
  frame ((PacketType.subscribe.toU8 <<< 4) ||| 0b0010) c.body

def contents (p : SubscribePacket T) : Contents := ⟨p.packetId,p.topicFilter.bytes,p.requestedQos⟩

structure WellFormed (p : SubscribePacket T) : Prop where
  packetId : p.packetId ≠ 0
  topicFilter : p.topicFilter.Utf8
  nonempty : p.topicFilter.bytes ≠ []

def Body (body : Bytes) (p : SubscribePacket T) : Prop :=
  ∃ pid filter, body = pid ++ (filter ++ [p.requestedQos.toU8]) ∧
    PublishPacket.PidField pid p.packetId ∧ TopicField filter p.topicFilter

lemma decides_decodeFields : Decides (decodeFields (T := T)) Body := by
  refine (PublishPacket.decides_decodePid.bind (fun pid =>
    PublishPacket.decides_decodeTopic.bind (fun filter => decides_nextByte.bind (fun b =>
      (decides_okOr _ (QoS.fromU8 b)).bind (fun q =>
        decides_pure (SubscribePacket.mk pid filter q)))))).congr (fun enc p => ?_)
  simp only [seq_result,seq_iff]
  constructor
  · rintro ⟨pid,filter,rfl,hp,hf⟩
    exact ⟨pid,_,_,rfl,hp,filter,_,_,rfl,hf,_,[],_,by simp,rfl,_,⟨rfl,QoS.fromU8_toU8 _⟩,rfl⟩
  · rintro ⟨pid,_,_,rfl,hp,filter,_,_,rfl,hf,_,_,b,rfl,rfl,q,⟨rfl,hq⟩,rfl⟩
    rw [QoS.fromU8_eq_some] at hq
    exact ⟨pid,filter,by simp [hq],hp,hf⟩

variable {p : SubscribePacket T}

lemma Body.sound (hT : T ≤ 255) {body : Bytes} (h : Body body p) :
    p.WellFormed ∧ body = p.contents.body := by
  obtain ⟨_,filter,rfl,⟨rfl,hp⟩,hf⟩ := h
  obtain ⟨rfl,hu⟩ := hf.stringField.spec hT
  exact ⟨⟨hp,hu,hf.ne_nil hT⟩,rfl⟩

lemma WellFormed.complete (hT : T ≤ 255) (h : p.WellFormed) :
    ∃ q : SubscribePacket T, Body p.contents.body q ∧ q.contents = p.contents := by
  obtain ⟨t,ht,htb⟩ := topicField_of hT h.topicFilter h.nonempty
  exact ⟨⟨p.packetId,t,p.requestedQos⟩,⟨_,_,rfl,⟨rfl,h.packetId⟩,ht⟩,by simp [contents,htb]⟩

lemma body_length (p : SubscribePacket T) :
    p.contents.body.length = 2+2+p.topicFilter.len+1 := by
  simp only [contents,Contents.body,List.length_append,toBeBytes_length,field_length,
    HeaplessString.bytes_length,HeaplessString.len,List.length_singleton]
  omega

lemma body_length_le (hT : T ≤ 255) (p : SubscribePacket T) :
    p.contents.body.length ≤ maxVariableLength := by
  have h := p.topicFilter.length_le
  rw [body_length,HeaplessString.len,maxVariableLength]
  omega

lemma WellFormed.fills (hT : T ≤ 255) (h : p.WellFormed) :
    Fills p.encodeFields p.contents.wire := by
  have hl := fills_putVariableLength (body_length_le hT p)
  rw [body_length] at hl
  have ht := ConnectPacket.fills_writeStr h.topicFilter
  have hp : Fills p.encodeFields _ := (fills_putByteChecked _).bind (hl.bind
    ((fills_putU16Checked _).bind (ht.bind (fills_putByteChecked _))))
  rw [← body_length] at hp
  simpa [Contents.wire,frame,Contents.body,contents] using hp

end SubscribePacket

namespace UnsubscribePacket
open Reader Rust.Cursor

/-- What an UNSUBSCRIBE packet says. -/
structure Contents where
  packetId : UInt16
  topicFilter : Bytes
  deriving DecidableEq, Repr

def Contents.body (c : Contents) : Bytes := toBeBytes c.packetId ++ field c.topicFilter

def Contents.wire (c : Contents) : Bytes :=
  frame ((PacketType.unsubscribe.toU8 <<< 4) ||| 0b0010) c.body

def contents (p : UnsubscribePacket T) : Contents := ⟨p.packetId,p.topicFilter.bytes⟩

structure WellFormed (p : UnsubscribePacket T) : Prop where
  packetId : p.packetId ≠ 0
  topicFilter : p.topicFilter.Utf8
  nonempty : p.topicFilter.bytes ≠ []

def Body (body : Bytes) (p : UnsubscribePacket T) : Prop :=
  ∃ pid filter, body = pid ++ filter ∧
    PublishPacket.PidField pid p.packetId ∧ TopicField filter p.topicFilter

lemma decides_decodeFields : Decides (decodeFields (T := T)) Body := by
  refine (PublishPacket.decides_decodePid.bind (fun pid =>
    PublishPacket.decides_decodeTopic.bind (fun filter =>
      decides_pure (UnsubscribePacket.mk pid filter)))).congr (fun enc p => ?_)
  simp only [seq_result,seq_iff]
  constructor
  · rintro ⟨pid,filter,rfl,hp,hf⟩
    exact ⟨pid,filter,_,rfl,hp,_,hf,rfl⟩
  · rintro ⟨pid,filter,_,rfl,hp,_,hf,rfl⟩
    exact ⟨pid,filter,rfl,hp,hf⟩

variable {p : UnsubscribePacket T}

lemma Body.sound (hT : T ≤ 255) {body : Bytes} (h : Body body p) :
    p.WellFormed ∧ body = p.contents.body := by
  obtain ⟨_,filter,rfl,⟨rfl,hp⟩,hf⟩ := h
  obtain ⟨rfl,hu⟩ := hf.stringField.spec hT
  exact ⟨⟨hp,hu,hf.ne_nil hT⟩,rfl⟩

lemma WellFormed.complete (hT : T ≤ 255) (h : p.WellFormed) :
    ∃ q : UnsubscribePacket T, Body p.contents.body q ∧ q.contents = p.contents := by
  obtain ⟨t,ht,htb⟩ := topicField_of hT h.topicFilter h.nonempty
  exact ⟨⟨p.packetId,t⟩,⟨_,_,rfl,⟨rfl,h.packetId⟩,ht⟩,by simp [contents,htb]⟩

lemma body_length (p : UnsubscribePacket T) : p.contents.body.length = 2+2+p.topicFilter.len := by
  simp only [contents,Contents.body,List.length_append,toBeBytes_length,field_length,
    HeaplessString.bytes_length,HeaplessString.len]
  omega

lemma body_length_le (hT : T ≤ 255) (p : UnsubscribePacket T) :
    p.contents.body.length ≤ maxVariableLength := by
  have h := p.topicFilter.length_le
  rw [body_length,HeaplessString.len,maxVariableLength]
  omega

lemma WellFormed.fills (hT : T ≤ 255) (h : p.WellFormed) :
    Fills p.encodeFields p.contents.wire := by
  have hl := fills_putVariableLength (body_length_le hT p)
  rw [body_length] at hl
  have ht := ConnectPacket.fills_writeStr h.topicFilter
  have hp : Fills p.encodeFields _ :=
    (fills_putByteChecked _).bind (hl.bind ((fills_putU16Checked _).bind ht))
  rw [← body_length] at hp
  simpa [Contents.wire,frame,Contents.body,contents] using hp

end UnsubscribePacket

end Picobroker
