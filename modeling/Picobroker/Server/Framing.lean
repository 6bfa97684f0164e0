import Picobroker.Protocol.Packets.Accepted
import Picobroker.Protocol.VariableLength

/-! The servers cut the bytes of a connection into frames with a reader of remaining lengths of their
own, and hand each frame to the decoders. -/
namespace Picobroker
open Rust

variable {T P w : ℕ}

/-- The loop of `parse_remaining_length` from `buffer[idx]` on, the same text in both servers. -/
def parseRemainingLengthLoop (w available : ℕ) :
    Bytes → (idx multiplier value : ℕ) → Proc Unit ProtocolError (ℕ × ℕ)
  | [],_,_,_ => Proc.fail (.incompletePacket available)
  | byte::rest,idx,multiplier,value => do
    let idx := idx+1
    let product ← checkedMul w (byte.toNat &&& 0x7F) multiplier
    let value ← checkedAdd w value product
    if byte.toNat &&& 0x80 = 0 then pure (value,idx-1)
    else do
      let multiplier ← checkedMul w multiplier 128
      Proc.failIf (multiplier > 128*128*128) (.invalidPacketLength 4 5)
      parseRemainingLengthLoop w available rest idx multiplier value

def parseRemainingLengthFrom (w : ℕ) (buffer : Bytes) : Outcome Unit ProtocolError (ℕ × ℕ) :=
  parseRemainingLengthLoop w buffer.length (buffer.drop 1) 1 1 0 ()

/-- `tokio_mqtt_server::io::parse_remaining_length`. -/
def TokioServer.parseRemainingLength (w : ℕ) (buffer : Bytes) :
    Outcome Unit ProtocolError (ℕ × ℕ) := parseRemainingLengthFrom w buffer

/-- `rp2040_mqtt_server::io::parse_remaining_length`. -/
def Rp2040Server.parseRemainingLength (w : ℕ) (buffer : Bytes) :
    Outcome Unit ProtocolError (ℕ × ℕ) := parseRemainingLengthFrom w buffer

/-! ### The length of a frame -/

/-- One turn: a last byte ends the loop, a fourth one that announces another is refused. -/
lemma parseRemainingLengthLoop_cons (hw : 32 ≤ w) (available : ℕ) {k value : ℕ} (byte : UInt8)
    (rest : Bytes) (hk : k < 4) (hv : value < 128^k) :
    parseRemainingLengthLoop w available (byte::rest) (k+1) (128^k) value () =
      if byte.toNat < 128 then .ok (value+byte.toNat%128*128^k,k+1) ()
      else if k = 3 then .err (.invalidPacketLength 4 5) ()
      else parseRemainingLengthLoop w available rest (k+2) (128^(k+1))
        (value+byte.toNat%128*128^k) () := by
  have hd : byte.toNat%128 < 128 := Nat.mod_lt _ (by decide)
  have hstep : value+byte.toNat%128*128^k < 128^(k+1) := by
    rw [pow_succ]
    nlinarith
  have hword : 128^(k+1) < 2^w := by
    calc 128^(k+1) ≤ 128^4 := Nat.pow_le_pow_right (by decide) (by omega)
      _ < 2^32 := by norm_num
      _ ≤ 2^w := Nat.pow_le_pow_right (by decide) hw
  have hmul : byte.toNat%128*128^k < 2^w := by omega
  have hadd : value+byte.toNat%128*128^k < 2^w := by omega
  have hmul' : 128^k*128 < 2^w := by rwa [← pow_succ]
  have hlong : 128^k*128 > 128*128*128 ↔ k = 3 := by
    obtain rfl | rfl | rfl | rfl : k = 0 ∨ k = 1 ∨ k = 2 ∨ k = 3 := by omega
    all_goals norm_num
  simp only [parseRemainingLengthLoop,Proc.bind_apply,and_0x7F,checkedMul_eq hmul,
    checkedAdd_eq hadd,Outcome.andThen_ok,and_0x80_eq_zero]
  by_cases hb : byte.toNat < 128
  · rw [if_pos hb,if_pos hb]
    rfl
  · rw [if_neg hb,if_neg hb,Proc.bind_apply,checkedMul_eq hmul',Outcome.andThen_ok,
      Proc.bind_apply]
    by_cases h₃ : k = 3
    · rw [if_pos h₃,Proc.failIf_pos (hlong.mpr h₃)]
      rfl
    · rw [if_neg h₃,Proc.failIf_neg (mt hlong.mp h₃),Outcome.andThen_ok,pow_succ]

/-- After `k` bytes the loop reads what is left of the field, and refuses everything else. -/
lemma parseRemainingLengthLoop_spec (hw : 32 ≤ w) (available : ℕ) (bytes : Bytes) (j k value : ℕ)
    (hj : 0 < j) (hjk : j+k = 4) (hv : value < 128^k) :
    match lengthFieldWithin j bytes with
    | .complete v n => parseRemainingLengthLoop w available bytes (k+1) (128^k) value () =
        .ok (value+v*128^k,k+n) ()
    | _ => ∃ e, parseRemainingLengthLoop w available bytes (k+1) (128^k) value () = .err e () := by
  induction bytes generalizing j k value with
  | nil =>
    obtain ⟨i,rfl⟩ : ∃ i, j = i+1 := ⟨j-1,by omega⟩
    exact ⟨_,rfl⟩
  | cons byte rest ih =>
    obtain ⟨i,rfl⟩ : ∃ i, j = i+1 := ⟨j-1,by omega⟩
    rw [parseRemainingLengthLoop_cons hw available byte rest (by omega) hv]
    by_cases hb : byte.toNat < 128
    · simp only [lengthFieldWithin,if_pos hb,Nat.mod_eq_of_lt hb]
    · by_cases hlast : k = 3
      · -- this server refuses the field before it looks for a fifth byte
        subst hlast
        obtain rfl : i = 0 := by omega
        simp only [lengthFieldWithin,if_neg hb]
        cases rest with
        | nil => exact ⟨_,rfl⟩
        | cons next more => exact ⟨_,rfl⟩
      · have hd : byte.toNat%128 < 128 := Nat.mod_lt _ (by decide)
        have hstep : value+byte.toNat%128*128^k < 128^(k+1) := by
          rw [pow_succ]
          nlinarith
        have h := ih i (k+1) _ (by omega) (by omega) hstep
        simp only [lengthFieldWithin,if_neg hb,if_neg hlast]
        cases hf : lengthFieldWithin i rest with
        | complete v n =>
          simp only [hf] at h ⊢
          rw [h,pow_succ]
          congr 2
          · ring
          · omega
        | cut => simpa only [hf] using h
        | overlong fifth => simpa only [hf] using h

section Parse

variable {buffer : Bytes} {r k : ℕ}

lemma parseRemainingLengthFrom_spec (hw : 32 ≤ w) (first : UInt8) (tail : Bytes) :
    match lengthField tail with
    | .complete v n => parseRemainingLengthFrom w (first::tail) = .ok (v,n) ()
    | _ => ∃ e, parseRemainingLengthFrom w (first::tail) = .err e () := by
  have h := parseRemainingLengthLoop_spec hw (first::tail).length tail 4 0 0 (by decide) rfl
    (by decide)
  rw [show lengthFieldWithin 4 tail = lengthField tail from rfl] at h
  cases hf : lengthField tail <;> simp only [hf] at h ⊢ <;> simpa [parseRemainingLengthFrom] using h

lemma parseRemainingLengthFrom_eq_ok (hw : 32 ≤ w) (hne : buffer ≠ []) :
    parseRemainingLengthFrom w buffer = .ok (r,k) () ↔
      lengthField buffer.tail = .complete r k := by
  obtain ⟨first,tail,rfl⟩ := List.exists_cons_of_ne_nil hne
  have h := parseRemainingLengthFrom_spec hw first tail
  rw [List.tail_cons]
  cases hf : lengthField tail with
  | complete v n =>
    simp only [hf] at h
    simp [h]
  | cut =>
    simp only [hf] at h
    obtain ⟨e,h⟩ := h
    simp [h]
  | overlong fifth =>
    simp only [hf] at h
    obtain ⟨e,h⟩ := h
    simp [h]

/-- More bytes do not change a length that can be read. -/
lemma parseRemainingLengthFrom_append (hw : 32 ≤ w) {u : Unit}
    (h : parseRemainingLengthFrom w buffer = .ok (r,k) u) (bytes : Bytes) :
    parseRemainingLengthFrom w (buffer ++ bytes) = .ok (r,k) () := by
  cases buffer with
  | nil => cases h
  | cons first tail =>
    have hk : lengthField tail = .complete r k :=
      (parseRemainingLengthFrom_eq_ok hw (List.cons_ne_nil first tail)).mp h
    rw [List.cons_append,parseRemainingLengthFrom_eq_ok hw (List.cons_ne_nil _ _),List.tail_cons,
      lengthField_append bytes (by rw [hk]; simp),hk]

/-- The servers' reader of remaining lengths never panics, even on 32 bits. -/
theorem parseRemainingLengthFrom_returns (hw : 32 ≤ w) (buffer : Bytes) :
    (parseRemainingLengthFrom w buffer).Returns := by
  cases buffer with
  | nil => exact Outcome.returns_err _ _
  | cons first tail =>
    have h := parseRemainingLengthFrom_spec hw first tail
    cases hf : lengthField tail with
    | complete v n =>
      simp only [hf] at h
      rw [h]
      exact Outcome.returns_ok _ _
    | cut | overlong fifth =>
      simp only [hf] at h
      obtain ⟨e,h⟩ := h
      rw [h]
      exact Outcome.returns_err _ _

end Parse

/-! ### A frame that was cut out -/

/-- A decoder that is handed this frame never indexes or slices out of range, and when it accepts,
the fields it read end with the frame. PUBLISH leaves its offset in front of the payload, which is
then all the bytes from there on. -/
structure DecodesWhole (T P w : ℕ) (frame : Bytes) : Prop where
  connect : (ConnectPacket.decode w frame : Outcome Unit ProtocolError (ConnectPacket T P)).Returns
  connectEnd : ∀ (p : ConnectPacket T P) (o : ℕ),
    ConnectPacket.decodeFrame w frame 0 = .ok p o → o = frame.length
  publish : (PublishPacket.decode w frame : Outcome Unit ProtocolError (PublishPacket T P)).Returns
  publishEnd : ∀ (p : PublishPacket T P) (o : ℕ),
    PublishPacket.decodeFrame w frame 0 = .ok p o →
      o ≤ frame.length ∧ HeaplessVec.collect (frame.drop o) = some p.payload
  subscribe : (SubscribePacket.decode w frame : Outcome Unit ProtocolError (SubscribePacket T)).Returns
  subscribeEnd : ∀ (p : SubscribePacket T) (o : ℕ),
    decodeBody w .subscribe frame (SubscribePacket.decodeFields frame) 0 = .ok p o →
      o = frame.length
  unsubscribe :
    (UnsubscribePacket.decode w frame : Outcome Unit ProtocolError (UnsubscribePacket T)).Returns
  unsubscribeEnd : ∀ (p : UnsubscribePacket T) (o : ℕ),
    decodeBody w .unsubscribe frame (UnsubscribePacket.decodeFields frame) 0 = .ok p o →
      o = frame.length

section Whole

variable {first : UInt8} {tail : Bytes} {r k : ℕ}

/-- In an exact frame the body is what is left behind the length field. -/
lemma FrameAt.exact {header : UInt8} {k' : ℕ} {body : Bytes} (hf : FrameAt (first::tail) header k' body)
    (hk : lengthField tail = .complete r k) (hlen : tail.length = k+r) :
    1+k'+body.length = (first::tail).length ∧ (first::tail).drop (1+k') = body := by
  obtain ⟨_,rest,heq,hk',hd⟩ := hf
  cases heq
  rw [hk,LengthField.complete.injEq] at hk'
  obtain ⟨rfl,rfl⟩ := hk'
  have hl := congrArg List.length hd
  rw [List.length_drop,List.length_append] at hl
  have hrest : rest = [] := List.eq_nil_of_length_eq_zero (by omega)
  rw [List.length_cons,Nat.add_comm 1 k,List.drop_succ_cons,hd,hrest,List.append_nil]
  exact ⟨by omega,rfl⟩

/-- A topic and a packet identifier that stand in the slice of an exact frame stand in the frame. -/
lemma not_endsInHead {qos : QoS} (hk : lengthField tail = .complete r k)
    (hlen : tail.length = k+r) : ¬ PublishPacket.EndsInHead T qos tail := by
  rintro ⟨r',k',head,rest,hk',hd,-,hr⟩
  rw [hk,LengthField.complete.injEq] at hk'
  obtain ⟨rfl,rfl⟩ := hk'
  have hl := congrArg List.length hd
  rw [List.length_drop,List.length_append] at hl
  omega

lemma decodesWhole (hw : 32 ≤ w) (hk : lengthField tail = .complete r k)
    (hlen : tail.length = k+r) : DecodesWhole T P w (first::tail) where
  connect := by
    rw [ConnectPacket.decode_returns hw,hk]
    rintro ⟨-,_,⟨⟩,-⟩
  connectEnd := by
    intro p o h
    obtain ⟨header,k',body,hf,-,-,rfl⟩ := (ConnectPacket.decodeFrame_eq_ok hw).mp h
    exact (hf.exact hk hlen).1
  publish := by
    rw [PublishPacket.decode_returns hw,hk]
    rintro ⟨-,qos,-,⟨_,⟨⟩,-⟩ | he⟩
    exact not_endsInHead hk hlen he
  publishEnd := by
    intro p o h
    obtain ⟨header,k',head,payload,hf,-,-,hv,rfl⟩ := (PublishPacket.decodeFrame_eq_ok hw).mp h
    obtain ⟨hl,hd⟩ := hf.exact hk hlen
    rw [List.length_append] at hl
    rw [← List.drop_drop,hd,List.drop_left]
    exact ⟨by omega,hv⟩
  subscribe := by
    rw [SubscribePacket.decode,decodeBody_returns hw SubscribePacket.decides_decodeFields,hk]
    rintro ⟨-,_,⟨⟩,-⟩
  subscribeEnd := by
    intro p o h
    obtain ⟨header,k',body,hf,-,-,rfl⟩ :=
      (decodeBody_apply_eq_ok hw SubscribePacket.decides_decodeFields).mp h
    exact (hf.exact hk hlen).1
  unsubscribe := by
    rw [UnsubscribePacket.decode,decodeBody_returns hw UnsubscribePacket.decides_decodeFields,hk]
    rintro ⟨-,_,⟨⟩,-⟩
  unsubscribeEnd := by
    intro p o h
    obtain ⟨header,k',body,hf,-,-,rfl⟩ :=
      (decodeBody_apply_eq_ok hw UnsubscribePacket.decides_decodeFields).mp h
    exact (hf.exact hk hlen).1

end Whole

/-- The servers read the length of a frame exactly as the library does, and a frame cut out of a
buffer at that length is decoded without a panic and to its end. -/
theorem framing_safe (T P : ℕ) (buffer : Bytes) (hne : buffer ≠ []) (r k : ℕ) :
    (TokioServer.parseRemainingLength 64 buffer = .ok (r,k) () ↔
      readVariableLength 64 buffer.tail = .ok (r,k) ()) ∧
    (Rp2040Server.parseRemainingLength 64 buffer = .ok (r,k) () ↔
      readVariableLength 64 buffer.tail = .ok (r,k) ()) ∧
    (readVariableLength 64 buffer.tail = .ok (r,k) () → 1+k+r ≤ buffer.length →
      DecodesWhole T P 64 (buffer.take (1+k+r))) := by
  have hw : 32 ≤ 64 := by decide
  have hparse : parseRemainingLengthFrom 64 buffer = .ok (r,k) () ↔
      readVariableLength 64 buffer.tail = .ok (r,k) () := by
    rw [parseRemainingLengthFrom_eq_ok hw hne,readVariableLength_eq_ok hw]
  refine ⟨hparse,hparse,fun hr hle => ?_⟩
  rw [readVariableLength_eq_ok hw] at hr
  obtain ⟨first,tail,rfl⟩ := List.exists_cons_of_ne_nil hne
  rw [List.tail_cons] at hr
  rw [List.length_cons] at hle
  rw [show 1+k+r = k+r+1 by omega,List.take_succ_cons]
  apply decodesWhole hw (lengthField_take hr (Nat.le_add_right k r))
  rw [List.length_take]
  omega

/-- A PUBLISH of two bytes of payload, with the start of the next frame behind it. -/
theorem framing_safe_publish : DecodesWhole 30 128 64 [0x30,0x05,0x00,0x01,0x61,0x68,0x69] :=
  (framing_safe 30 128 [0x30,0x05,0x00,0x01,0x61,0x68,0x69,0xC0] (by decide) 5 1).2.2
    (by decide) (by decide)

end Picobroker
