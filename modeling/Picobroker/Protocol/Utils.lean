import Picobroker.Protocol.Basic
import Picobroker.Rust.Cursor

/-! The remaining-length integer and the length-prefixed fields. `w` is the number of bits of a
`usize`; offsets stay within a slice and never reach the word limit, so only the arithmetic on
announced lengths is checked against it. -/
namespace Picobroker
open Rust

def variableLengthLength (value : ℕ) : ℕ :=
  if value < 128 then 1 else if value < 16384 then 2 else if value < 2097152 then 3 else 4

def maxVariableLength : ℕ := 268435455

/-- The loop of `read_variable_length` from `bytes[bytes_read]` on. -/
def readVariableLengthLoop (w available : ℕ) :
    Bytes → (multiplier value bytesRead : ℕ) → Proc Unit ProtocolError (ℕ × ℕ)
  | [],_,_,_ => Proc.fail (.incompletePacket available)
  | byte::rest,multiplier,value,bytesRead => do
    let product ← checkedMul w (byte.toNat &&& 0x7F) multiplier
    let value ← checkedAdd w value product
    Proc.failIf (value > maxVariableLength) (.invalidPacketLength maxVariableLength value)
    let multiplier ← checkedMul w multiplier 128
    Proc.failIf (multiplier > 128*128*128*128) (.invalidPacketLength maxVariableLength value)
    if byte.toNat &&& 0x80 = 0 then pure (value,bytesRead+1)
    else readVariableLengthLoop w available rest multiplier value (bytesRead+1)

def readVariableLength (w : ℕ) (bytes : Bytes) : Outcome Unit ProtocolError (ℕ × ℕ) :=
  readVariableLengthLoop w bytes.length bytes 1 0 0 ()

/-- The call `read_variable_length(&bytes[1..])` behind the header byte. -/
def readRemainingLength {σ : Type} (w : ℕ) (bytes : Bytes) : Proc σ ProtocolError (ℕ × ℕ) := do
  let tail ← slice bytes 1 bytes.length
  Proc.call (readVariableLength w tail)

/-- The loop of `write_variable_length` over `buffer[bytes_written..]`. -/
def writeVariableLengthLoop (size : ℕ) :
    (buffer : Bytes) → (encoded bytesWritten : ℕ) → Outcome Bytes ProtocolError ℕ
  | [],_,_ => .err (.bufferTooSmall size) []
  | _::rest,encoded,bytesWritten =>
    let byte := UInt8.ofNat (encoded &&& 0x7F)
    let encoded := encoded >>> 7
    if encoded > 0 then
      (writeVariableLengthLoop size rest encoded (bytesWritten+1)).mapState ((byte ||| 0x80)::·)
    else .ok (bytesWritten+1) (byte::rest)

def writeVariableLength (value : ℕ) : Proc Bytes ProtocolError ℕ := do
  Proc.failIf (value > maxVariableLength) (.invalidPacketLength maxVariableLength value)
  ⟨fun buffer => writeVariableLengthLoop buffer.length buffer value 0⟩

/-- `write_variable_length(value, &mut buffer[offset..])?`, then `offset` moves past it. -/
def putVariableLength (value : ℕ) : Proc Cursor ProtocolError Unit := ⟨fun c =>
  if c.offset ≤ c.buffer.length then
    match writeVariableLength value (c.buffer.drop c.offset) with
    | .ok n tail => .ok () ⟨c.buffer.take c.offset ++ tail,c.offset+n⟩
    | .err e tail => .err e ⟨c.buffer.take c.offset ++ tail,c.offset⟩
    | .abort why => .abort why
  else .abort .panic⟩

/-- The bounds check, read and advance that the decoders repeat for one byte. -/
def nextByte (bytes : Bytes) : Reader ProtocolError UInt8 := do
  let offset ← Proc.get
  Proc.failIf (offset ≥ bytes.length) (.incompletePacket bytes.length)
  let byte ← index bytes offset
  Proc.modify (·+1)
  pure byte

/-- The same for a big-endian 16-bit field. -/
def nextU16 (bytes : Bytes) : Reader ProtocolError UInt16 := do
  let offset ← Proc.get
  Proc.failIf (offset+2 > bytes.length) (.incompletePacket bytes.length)
  let hi ← index bytes offset
  let lo ← index bytes (offset+1)
  Proc.modify (·+2)
  pure (fromBeBytes hi lo)

def readBinary (bytes : Bytes) : Reader ProtocolError Bytes := do
  let len ← nextU16 bytes
  let offset ← Proc.get
  Proc.failIf (offset+len.toNat > bytes.length) (.incompletePacket bytes.length)
  let binBytes ← slice bytes offset (offset+len.toNat)
  Proc.modify (·+len.toNat)
  pure binBytes

/-- `read_string` reads the same field and then checks that it is UTF-8. -/
def readString (bytes : Bytes) : Reader ProtocolError Bytes := do
  let strBytes ← readBinary bytes
  Proc.failIf (validUtf8 strBytes = false) .invalidUtf8String
  pure strBytes

/-- The length is narrowed to 16 bits after the room check. -/
def writeBinary (data : Bytes) : Proc Cursor ProtocolError Unit := do
  let c ← Proc.get
  Proc.failIf (c.offset+2+data.length > c.buffer.length) (.bufferTooSmall c.buffer.length)
  Cursor.putSlice (toBeBytes (UInt16.ofNat data.length))
  Cursor.putSlice data

/-- `write_string` writes the bytes of the string in the same way. -/
def writeString (s : Bytes) : Proc Cursor ProtocolError Unit := writeBinary s

/-! ### The variable-length integer -/

lemma and_0x7F (n : ℕ) : n &&& 0x7F = n % 128 := Nat.and_two_pow_sub_one_eq_mod n 7

lemma and_0x80_eq_zero (b : UInt8) : b.toNat &&& 0x80 = 0 ↔ b.toNat < 128 := by
  have h : ∀ n : Fin 256, (n.val &&& 0x80 = 0 ↔ n.val < 128) := by decide +kernel
  exact h ⟨b.toNat,b.toNat_lt⟩

/-- The base-128 digits of a remaining length, least significant first. -/
def variableLengthBytes (value : ℕ) : Bytes :=
  if value < 128 then [UInt8.ofNat value]
  else UInt8.ofNat (value%128+128) :: variableLengthBytes (value/128)

lemma variableLengthBytes_small {value : ℕ} (h : value < 128) :
    variableLengthBytes value = [UInt8.ofNat value] := by rw [variableLengthBytes,if_pos h]

lemma variableLengthBytes_large {value : ℕ} (h : 128 ≤ value) :
    variableLengthBytes value =
      UInt8.ofNat (value%128+128) :: variableLengthBytes (value/128) := by
  rw [variableLengthBytes,if_neg (by omega)]

lemma variableLengthBytes_length_le (value k : ℕ) (h : value < 128^(k+1)) :
    (variableLengthBytes value).length ≤ k+1 := by
  induction k generalizing value with
  | zero => rw [variableLengthBytes_small (by simpa using h)]; rfl
  | succ k ih =>
    by_cases hv : value < 128
    · rw [variableLengthBytes_small hv]; simp
    · rw [variableLengthBytes_large (by omega),List.length_cons]
      exact Nat.succ_le_succ (ih _ (Nat.div_lt_of_lt_mul (by rwa [pow_succ,Nat.mul_comm] at h)))

/-- One turn of the reading loop, when nothing overflows and the value stays in range. -/
lemma readVariableLengthLoop_cons {w : ℕ} (hw : 32 ≤ w) (available k value bytesRead : ℕ)
    (byte : UInt8) (rest : Bytes) (hk : k < 4)
    (hv : value+byte.toNat%128*128^k ≤ maxVariableLength) :
    readVariableLengthLoop w available (byte::rest) (128^k) value bytesRead () =
      if byte.toNat < 128 then .ok (value+byte.toNat%128*128^k,bytesRead+1) ()
      else readVariableLengthLoop w available rest (128^(k+1))
        (value+byte.toNat%128*128^k) (bytesRead+1) () := by
  have hword : 2^32 ≤ 2^w := Nat.pow_le_pow_right (by decide) hw
  have hpow : 128^k*128 ≤ 128*128*128*128 := by
    rw [← pow_succ]
    calc 128^(k+1) ≤ 128^4 := Nat.pow_le_pow_right (by decide) (by omega)
      _ = 128*128*128*128 := by norm_num
  have hmax : maxVariableLength < 2^32 := by decide
  have hmul : byte.toNat%128*128^k < 2^w := by omega
  have hadd : value+byte.toNat%128*128^k < 2^w := by omega
  have hmul' : 128^k*128 < 2^w := by omega
  have hnext : ¬ 128^k*128 > 128*128*128*128 := by omega
  simp only [readVariableLengthLoop,Proc.bind_apply,and_0x7F,checkedMul_eq hmul,checkedAdd_eq hadd,
    checkedMul_eq hmul',Proc.failIf_neg (Nat.not_lt.mpr hv),Proc.failIf_neg hnext,
    Outcome.andThen_ok,and_0x80_eq_zero]
  by_cases hb : byte.toNat < 128
  · rw [if_pos hb,if_pos hb]
    rfl
  · rw [if_neg hb,if_neg hb,pow_succ]

/-- What stands at the head of a slice in the place of a remaining length: a complete integer and
the number of its bytes, nothing but continuation bytes, or a fifth byte. -/
inductive LengthField
  | complete (value bytesRead : ℕ)
  | cut
  | overlong (fifth : UInt8)
  deriving DecidableEq, Repr

/-- The integer at the head of a slice, in at most `k` bytes. -/
def lengthFieldWithin : ℕ → Bytes → LengthField
  | _,[] => .cut
  | 0,byte::_ => .overlong byte
  | k+1,byte::rest =>
    if byte.toNat < 128 then .complete byte.toNat 1
    else match lengthFieldWithin k rest with
      | .complete value n => .complete (byte.toNat%128+128*value) (n+1)
      | other => other

def lengthField (bytes : Bytes) : LengthField := lengthFieldWithin 4 bytes

/-- A fifth byte after four continuation bytes brings the product, or else the next multiplier,
out of a word of `w` bits. -/
def OverflowsWord (w : ℕ) (fifth : UInt8) : Prop :=
  2^w ≤ fifth.toNat%128*128^4 ∨ fifth.toNat%128 = 0 ∧ 2^w ≤ 128^4*128

instance (w : ℕ) (fifth : UInt8) : Decidable (OverflowsWord w fifth) :=
  inferInstanceAs (Decidable (_ ∨ _))

lemma not_overflowsWord {w : ℕ} (hw : 36 ≤ w) (fifth : UInt8) : ¬ OverflowsWord w fifth := by
  have hword : 2^36 ≤ 2^w := Nat.pow_le_pow_right (by decide) hw
  have hd : fifth.toNat%128 < 128 := Nat.mod_lt _ (by decide)
  unfold OverflowsWord
  omega

section Turn

variable {w multiplier value : ℕ} {byte : UInt8} (available bytesRead : ℕ) (rest : Bytes)

/-! A turn that does not accept its byte, by the step that refuses it. -/

lemma readVariableLengthLoop_product (h : ¬ byte.toNat%128*multiplier < 2^w) :
    readVariableLengthLoop w available (byte::rest) multiplier value bytesRead () =
      .abort .panic := by
  rw [readVariableLengthLoop,Proc.bind_apply,and_0x7F,checkedMul_panics h]
  rfl

variable (hmul : byte.toNat%128*multiplier < 2^w)
  (hadd : value+byte.toNat%128*multiplier < 2^w)
include hmul hadd

lemma readVariableLengthLoop_large (h : value+byte.toNat%128*multiplier > maxVariableLength) :
    ∃ e, readVariableLengthLoop w available (byte::rest) multiplier value bytesRead () =
      .err e () := by
  rw [readVariableLengthLoop,Proc.bind_apply,and_0x7F,checkedMul_eq hmul,Outcome.andThen_ok,
    Proc.bind_apply,checkedAdd_eq hadd,Outcome.andThen_ok,Proc.bind_apply,Proc.failIf_pos h]
  exact ⟨_,rfl⟩

variable (hle : ¬ value+byte.toNat%128*multiplier > maxVariableLength)
include hle

lemma readVariableLengthLoop_multiplier (h : ¬ multiplier*128 < 2^w) :
    readVariableLengthLoop w available (byte::rest) multiplier value bytesRead () =
      .abort .panic := by
  rw [readVariableLengthLoop,Proc.bind_apply,and_0x7F,checkedMul_eq hmul,Outcome.andThen_ok,
    Proc.bind_apply,checkedAdd_eq hadd,Outcome.andThen_ok,Proc.bind_apply,Proc.failIf_neg hle,
    Outcome.andThen_ok,Proc.bind_apply,checkedMul_panics h]
  rfl

lemma readVariableLengthLoop_long (hnext : multiplier*128 < 2^w)
    (h : multiplier*128 > 128*128*128*128) :
    ∃ e, readVariableLengthLoop w available (byte::rest) multiplier value bytesRead () =
      .err e () := by
  rw [readVariableLengthLoop,Proc.bind_apply,and_0x7F,checkedMul_eq hmul,Outcome.andThen_ok,
    Proc.bind_apply,checkedAdd_eq hadd,Outcome.andThen_ok,Proc.bind_apply,Proc.failIf_neg hle,
    Outcome.andThen_ok,Proc.bind_apply,checkedMul_eq hnext,Outcome.andThen_ok,Proc.bind_apply,
    Proc.failIf_pos h]
  exact ⟨_,rfl⟩

end Turn

/-- The turn for a fifth byte never accepts. -/
lemma readVariableLengthLoop_fifth {w : ℕ} (hw : 32 ≤ w) (available value bytesRead : ℕ)
    (byte : UInt8) (rest : Bytes) (hv : value < 128^4) :
    if OverflowsWord w byte then
      readVariableLengthLoop w available (byte::rest) (128^4) value bytesRead () = .abort .panic
    else ∃ e,
      readVariableLengthLoop w available (byte::rest) (128^4) value bytesRead () = .err e () := by
  have hmax : maxVariableLength+1 = 128^4 := by decide
  have hlong : 128^4*128 > 128*128*128*128 := by norm_num
  have hword : 2^w = 128^4*2^(w-28) := by
    rw [show (128^4 : ℕ) = 2^28 by norm_num,← pow_add]
    congr 1
    omega
  have hover : OverflowsWord w byte ↔ 2^w ≤ byte.toNat%128*128^4 ∨
    byte.toNat%128 = 0 ∧ 2^w ≤ 128^4*128 := Iff.rfl
  -- from here on the multiplier is a variable, so that nothing evaluates it
  generalize 128^4 = M at *
  by_cases hmul : byte.toNat%128*M < 2^w
  · have hadd : value+byte.toNat%128*M < 2^w := by
      have hq : byte.toNat%128 < 2^(w-28) := by
        rw [hword,Nat.mul_comm _ M] at hmul
        exact Nat.lt_of_mul_lt_mul_left hmul
      have hm : (byte.toNat%128+1)*M ≤ 2^(w-28)*M := Nat.mul_le_mul_right M hq
      rw [hword,Nat.mul_comm M]
      rw [Nat.succ_mul] at hm
      omega
    by_cases hzero : byte.toNat%128 = 0
    · have hle : ¬ value+byte.toNat%128*M > maxVariableLength := by rw [hzero]; omega
      by_cases hnext : M*128 < 2^w
      · rw [if_neg (by rw [hover]; omega)]
        exact readVariableLengthLoop_long available bytesRead rest hmul hadd hle hnext hlong
      · rw [if_pos (hover.mpr (.inr ⟨hzero,Nat.not_lt.mp hnext⟩))]
        exact readVariableLengthLoop_multiplier available bytesRead rest hmul hadd hle hnext
    · have hone : 1*M ≤ byte.toNat%128*M := Nat.mul_le_mul_right M (by omega)
      rw [if_neg (by rw [hover]; omega)]
      exact readVariableLengthLoop_large available bytesRead rest hmul hadd (by omega)
  · rw [if_pos (hover.mpr (.inl (Nat.not_lt.mp hmul)))]
    exact readVariableLengthLoop_product available bytesRead rest hmul

/-- What the loop does with each kind of field, after `k` bytes with value below `128^k`. -/
lemma readVariableLengthLoop_spec {w : ℕ} (hw : 32 ≤ w) (available : ℕ) (bytes : Bytes)
    (j k value : ℕ) (hjk : j+k = 4) (hv : value < 128^k) :
    match lengthFieldWithin j bytes with
    | .complete v n => readVariableLengthLoop w available bytes (128^k) value k () =
        .ok (value+v*128^k,k+n) ()
    | .cut => readVariableLengthLoop w available bytes (128^k) value k () =
        .err (.incompletePacket available) ()
    | .overlong fifth => if OverflowsWord w fifth then
        readVariableLengthLoop w available bytes (128^k) value k () = .abort .panic
      else ∃ e, readVariableLengthLoop w available bytes (128^k) value k () = .err e () := by
  induction bytes generalizing j k value with
  | nil =>
    cases j <;> rfl
  | cons byte rest ih =>
    cases j with
    | zero =>
      have hk : k = 4 := by omega
      subst hk
      exact readVariableLengthLoop_fifth hw available value 4 byte rest hv
    | succ j =>
      have hd : byte.toNat%128 < 128 := Nat.mod_lt _ (by decide)
      have hstep : value+byte.toNat%128*128^k < 128^(k+1) := by
        rw [pow_succ]
        nlinarith
      have hbound : 128^(k+1) ≤ maxVariableLength+1 :=
        (Nat.pow_le_pow_right (by decide) (by omega)).trans_eq (by decide : 128^4 = _)
      rw [readVariableLengthLoop_cons hw available k value k byte rest (by omega) (by omega)]
      by_cases hb : byte.toNat < 128
      · simp only [lengthFieldWithin,if_pos hb,Nat.mod_eq_of_lt hb]
      · have h := ih j (k+1) _ (by omega) hstep
        simp only [lengthFieldWithin,if_neg hb]
        cases hf : lengthFieldWithin j rest with
        | complete v n =>
          simp only [hf] at h ⊢
          rw [h,pow_succ]
          congr 2
          · ring
          · omega
        | cut => simpa only [hf] using h
        | overlong fifth => simpa only [hf] using h

/-- The bytes of a length field that spells `value` with `n` digits of base 128, more of them than
needed allowed. -/
def lengthDigits : ℕ → ℕ → Bytes
  | 0,_ => []
  | 1,value => [UInt8.ofNat value]
  | n+2,value => UInt8.ofNat (value%128+128) :: lengthDigits (n+1) (value/128)

section Spec

variable {w v n : ℕ} {bytes : Bytes}

lemma readVariableLength_spec (hw : 32 ≤ w) (bytes : Bytes) :
    match lengthField bytes with
    | .complete v n => readVariableLength w bytes = .ok (v,n) ()
    | .cut => readVariableLength w bytes = .err (.incompletePacket bytes.length) ()
    | .overlong fifth => if OverflowsWord w fifth then readVariableLength w bytes = .abort .panic
      else ∃ e, readVariableLength w bytes = .err e () := by
  have h := readVariableLengthLoop_spec hw bytes.length bytes 4 0 0 rfl (by decide)
  rw [show lengthFieldWithin 4 bytes = lengthField bytes from rfl] at h
  cases hf : lengthField bytes <;> simp only [hf] at h ⊢ <;> simpa [readVariableLength] using h

theorem readVariableLength_eq_ok (hw : 32 ≤ w) :
    readVariableLength w bytes = .ok (v,n) () ↔ lengthField bytes = .complete v n := by
  have h := readVariableLength_spec hw bytes
  cases hf : lengthField bytes with
  | complete v' n' =>
    simp only [hf] at h
    simp [h]
  | cut =>
    simp only [hf] at h
    simp [h]
  | overlong fifth =>
    simp only [hf] at h
    split at h
    · simp [h]
    · obtain ⟨e,h⟩ := h
      simp [h]

/-- The loop panics on a fifth byte that overflows the word, and on nothing else. -/
theorem readVariableLength_returns (hw : 32 ≤ w) : (readVariableLength w bytes).Returns ↔
    ∀ fifth, lengthField bytes = .overlong fifth → ¬ OverflowsWord w fifth := by
  have h := readVariableLength_spec hw bytes
  cases hf : lengthField bytes with
  | complete v' n' =>
    simp only [hf] at h
    simp [h]
  | cut =>
    simp only [hf] at h
    simp [h]
  | overlong fifth =>
    simp only [hf] at h
    split at h
    · rename_i hover
      simp [h,hover]
    · rename_i hover
      obtain ⟨e,h⟩ := h
      simp [h,hover]

lemma lengthFieldWithin_complete {k : ℕ} (h : lengthFieldWithin k bytes = .complete v n) :
    v < 128^k ∧ 0 < n ∧ n ≤ bytes.length ∧ n ≤ k := by
  induction k generalizing bytes v n with
  | zero => cases bytes <;> simp [lengthFieldWithin] at h
  | succ k ih =>
    cases bytes with
    | nil => simp [lengthFieldWithin] at h
    | cons byte rest =>
      have hd : byte.toNat%128 < 128 := Nat.mod_lt _ (by decide)
      have hp : 1 ≤ 128^k := Nat.one_le_pow _ _ (by decide)
      rw [lengthFieldWithin] at h
      rw [List.length_cons,pow_succ]
      split at h
      · cases h
        omega
      · cases hf : lengthFieldWithin k rest with
        | complete v' n' =>
          obtain ⟨h₁,h₂,h₃,h₄⟩ := ih hf
          simp only [hf,LengthField.complete.injEq] at h
          omega
        | cut => simp [hf] at h
        | overlong fifth => simp [hf] at h

lemma lengthField_complete (h : lengthField bytes = .complete v n) :
    v ≤ maxVariableLength ∧ 0 < n ∧ n ≤ bytes.length := by
  have hmax : maxVariableLength+1 = 128^4 := by decide
  obtain ⟨h₁,h₂,h₃,-⟩ := lengthFieldWithin_complete h
  exact ⟨by omega,h₂,h₃⟩

lemma lengthFieldWithin_append {k : ℕ} (rest : Bytes) (h : lengthFieldWithin k bytes ≠ .cut) :
    lengthFieldWithin k (bytes ++ rest) = lengthFieldWithin k bytes := by
  induction k generalizing bytes with
  | zero => cases bytes with
    | nil => exact absurd rfl h
    | cons byte tail => rfl
  | succ k ih =>
    cases bytes with
    | nil => exact absurd rfl h
    | cons byte tail =>
      rw [List.cons_append,lengthFieldWithin,lengthFieldWithin]
      by_cases hb : byte.toNat < 128
      · rw [if_pos hb,if_pos hb]
      · have ht : lengthFieldWithin k tail ≠ .cut := by
          intro hc
          simp [lengthFieldWithin,hb,hc] at h
        rw [if_neg hb,if_neg hb,ih ht]

/-- A field that is not cut off is not changed by what follows. -/
lemma lengthField_append (rest : Bytes) (h : lengthField bytes ≠ .cut) :
    lengthField (bytes ++ rest) = lengthField bytes := lengthFieldWithin_append rest h

/-- A complete field is determined by its value and the number of its bytes. -/
lemma take_of_lengthFieldWithin {k : ℕ} (h : lengthFieldWithin k bytes = .complete v n) :
    bytes.take n = lengthDigits n v := by
  induction k generalizing bytes v n with
  | zero => cases bytes <;> simp [lengthFieldWithin] at h
  | succ k ih =>
    cases bytes with
    | nil => simp [lengthFieldWithin] at h
    | cons byte rest =>
      have hbyte := byte.toNat_lt
      rw [lengthFieldWithin] at h
      split at h
      · cases h
        rw [List.take_succ_cons,lengthDigits,UInt8.ofNat_toNat]
        rfl
      · cases hf : lengthFieldWithin k rest with
        | complete v' n' =>
          have hpos := (lengthFieldWithin_complete hf).2.1
          obtain ⟨m,rfl⟩ : ∃ m, n' = m+1 := ⟨n'-1,by omega⟩
          simp only [hf,LengthField.complete.injEq] at h
          obtain ⟨rfl,rfl⟩ := h
          have hdigit : (byte.toNat%128+128*v')%128+128 = byte.toNat := by omega
          have hrest : (byte.toNat%128+128*v')/128 = v' := by omega
          rw [List.take_succ_cons,ih hf,lengthDigits,hdigit,hrest,UInt8.ofNat_toNat]
        | cut => simp [hf] at h
        | overlong fifth => simp [hf] at h

lemma take_of_lengthField (h : lengthField bytes = .complete v n) :
    bytes.take n = lengthDigits n v := take_of_lengthFieldWithin h

lemma lengthFieldWithin_take {k m : ℕ} (h : lengthFieldWithin k bytes = .complete v n)
    (hm : n ≤ m) : lengthFieldWithin k (bytes.take m) = .complete v n := by
  induction k generalizing bytes v n m with
  | zero => cases bytes <;> simp [lengthFieldWithin] at h
  | succ k ih =>
    cases bytes with
    | nil => simp [lengthFieldWithin] at h
    | cons byte rest =>
      have hpos := (lengthFieldWithin_complete h).2.1
      obtain ⟨m,rfl⟩ : ∃ j, m = j+1 := ⟨m-1,by omega⟩
      rw [lengthFieldWithin] at h
      rw [List.take_succ_cons,lengthFieldWithin]
      by_cases hb : byte.toNat < 128
      · rw [if_pos hb] at h ⊢
        exact h
      · rw [if_neg hb] at h ⊢
        cases hf : lengthFieldWithin k rest with
        | complete v' n' =>
          simp only [hf,LengthField.complete.injEq] at h
          simp only [ih hf (show n' ≤ m by omega),h]
        | cut => simp [hf] at h
        | overlong fifth => simp [hf] at h

/-- A complete field is still complete in any part of the slice that holds it. -/
lemma lengthField_take {m : ℕ} (h : lengthField bytes = .complete v n) (hm : n ≤ m) :
    lengthField (bytes.take m) = .complete v n := lengthFieldWithin_take h hm

/-- With the number of bytes that `variable_length_length` gives, the digits are the shortest. -/
lemma lengthDigits_variableLengthLength (hv : v ≤ maxVariableLength) :
    lengthDigits (variableLengthLength v) v = variableLengthBytes v := by
  rw [maxVariableLength] at hv
  unfold variableLengthLength
  split_ifs with h₁ h₂ h₃
  · rw [variableLengthBytes_small h₁]
    rfl
  · rw [variableLengthBytes_large (by omega),variableLengthBytes_small (by omega)]
    rfl
  · rw [variableLengthBytes_large (by omega),variableLengthBytes_large (by omega),
      variableLengthBytes_small (by omega)]
    rfl
  · rw [variableLengthBytes_large (by omega),variableLengthBytes_large (by omega),
      variableLengthBytes_large (by omega),variableLengthBytes_small (by omega)]
    rfl

end Spec

lemma lengthFieldWithin_bytes (value k : ℕ) (rest : Bytes)
    (h : (variableLengthBytes value).length ≤ k) :
    lengthFieldWithin k (variableLengthBytes value ++ rest) =
      .complete value (variableLengthBytes value).length := by
  induction value using variableLengthBytes.induct generalizing k with
  | case1 value hv =>
    have hb : (UInt8.ofNat value).toNat = value := by rw [UInt8.toNat_ofNat']; omega
    rw [variableLengthBytes_small hv] at h ⊢
    obtain ⟨k,rfl⟩ : ∃ j, k = j+1 := ⟨k-1,by simp at h; omega⟩
    simp [lengthFieldWithin,hb,hv]
  | case2 value hv ih =>
    have hb : (UInt8.ofNat (value%128+128)).toNat = value%128+128 := by
      rw [UInt8.toNat_ofNat']; omega
    rw [variableLengthBytes_large (by omega)] at h ⊢
    obtain ⟨k,rfl⟩ : ∃ j, k = j+1 := ⟨k-1,by simp at h; omega⟩
    have hlt : ¬ value%128+128 < 128 := by omega
    rw [List.cons_append,lengthFieldWithin,hb,if_neg hlt,ih k (by simpa using h)]
    simp only [List.length_cons,LengthField.complete.injEq]
    exact ⟨by omega,trivial⟩

/-- A remaining length is read back from its digits, whatever follows. -/
lemma lengthField_bytes {value : ℕ} (hv : value ≤ maxVariableLength) (rest : Bytes) :
    lengthField (variableLengthBytes value ++ rest) =
      .complete value (variableLengthBytes value).length :=
  lengthFieldWithin_bytes value 4 rest
    (variableLengthBytes_length_le value 3 (by simp only [maxVariableLength] at hv; omega))

lemma readRemainingLength_cons {σ : Type} (w : ℕ) (first : UInt8) (tail : Bytes) (s : σ) :
    (readRemainingLength w (first::tail) : Proc σ ProtocolError (ℕ × ℕ)) s =
      (readVariableLength w tail).mapState (fun _ => s) := by
  rw [readRemainingLength,Proc.bind_apply,slice_eq (by simp) le_rfl,List.take_length]
  rfl

/-! ### Fields -/

/-- A length-prefixed field as it stands on the wire. -/
def field (data : Bytes) : Bytes := toBeBytes (UInt16.ofNat data.length) ++ data

@[simp] lemma field_length (data : Bytes) : (field data).length = 2+data.length := by
  rw [field,List.length_append,toBeBytes_length]

section Fields
open Reader

lemma nextByte_fits {bytes : Bytes} {o : ℕ} (h : o < bytes.length) :
    nextByte bytes o = .ok bytes[o] (o+1) := by
  simp [nextByte,Proc.failIf_neg (show ¬ o ≥ bytes.length by omega),index_eq h]

lemma nextByte_short {bytes : Bytes} {o : ℕ} (h : bytes.length ≤ o) :
    nextByte bytes o = .err (.incompletePacket bytes.length) o := by
  simp [nextByte,Proc.failIf_pos (show o ≥ bytes.length from h)]

lemma decides_nextByte : Decides nextByte (fun enc b => enc = [b]) where
  reads := by
    rintro bytes o _ b rest rfl h
    have hl : o+[b].length+rest.length = bytes.length := drop_length_le h (by simp)
    have hlt : o < bytes.length := by rw [List.length_singleton] at hl; omega
    have hb : bytes[o] = b := by
      have hd := (List.drop_eq_getElem_cons hlt).symm.trans h
      exact (List.cons.inj hd).1
    rw [nextByte_fits hlt,hb]
    rfl
  parses := by
    intro bytes o b o' h
    by_cases hlt : o < bytes.length
    · rw [nextByte_fits hlt] at h
      cases h
      exact ⟨_,rfl,List.drop_eq_getElem_cons hlt,rfl⟩
    · rw [nextByte_short (Nat.not_lt.mp hlt)] at h
      cases h
  total bytes o := by
    by_cases hlt : o < bytes.length
    · rw [nextByte_fits hlt]
      exact Outcome.returns_ok _ _
    · rw [nextByte_short (Nat.not_lt.mp hlt)]
      exact Outcome.returns_err _ _

lemma nextU16_fits {bytes : Bytes} {o : ℕ} (h : o+2 ≤ bytes.length) :
    nextU16 bytes o = .ok (fromBeBytes bytes[o] bytes[o+1]) (o+2) := by
  simp [nextU16,Proc.failIf_neg (show ¬ o+2 > bytes.length by omega),
    index_eq (show o < bytes.length by omega),index_eq (show o+1 < bytes.length by omega)]

lemma nextU16_short {bytes : Bytes} {o : ℕ} (h : bytes.length < o+2) :
    nextU16 bytes o = .err (.incompletePacket bytes.length) o := by
  simp [nextU16,Proc.failIf_pos (show o+2 > bytes.length from h)]

lemma drop_eq_two {bytes : Bytes} {o : ℕ} (h : o+2 ≤ bytes.length) :
    bytes.drop o = [bytes[o],bytes[o+1]] ++ bytes.drop (o+2) := by
  rw [List.drop_eq_getElem_cons (show o < bytes.length by omega),
    List.drop_eq_getElem_cons (show o+1 < bytes.length by omega)]
  rfl

lemma decides_nextU16 : Decides nextU16 (fun enc x => enc = toBeBytes x) where
  reads := by
    rintro bytes o _ x rest rfl h
    have hl := drop_length_le h (by simp [toBeBytes])
    rw [toBeBytes_length] at hl
    have hlt : o+2 ≤ bytes.length := by omega
    have hx : toBeBytes x = [bytes[o],bytes[o+1]] :=
      (List.append_inj ((drop_eq_two hlt).symm.trans h) (by simp)).1.symm
    simp only [toBeBytes,List.cons.injEq,and_true] at hx
    rw [nextU16_fits hlt,← hx.1,← hx.2,fromBeBytes_toBeBytes]
    rfl
  parses := by
    intro bytes o x o' h
    by_cases hlt : o+2 ≤ bytes.length
    · rw [nextU16_fits hlt] at h
      cases h
      refine ⟨_,rfl,?_,rfl⟩
      rw [toBeBytes_fromBeBytes]
      exact drop_eq_two hlt
    · rw [nextU16_short (Nat.not_le.mp hlt)] at h
      cases h
  total bytes o := by
    by_cases hlt : o+2 ≤ bytes.length
    · rw [nextU16_fits hlt]
      exact Outcome.returns_ok _ _
    · rw [nextU16_short (Nat.not_le.mp hlt)]
      exact Outcome.returns_err _ _

/-- The bytes of a field, once its length is known. -/
def takeBytes (len : ℕ) (bytes : Bytes) : Reader ProtocolError Bytes := do
  let offset ← Proc.get
  Proc.failIf (offset+len > bytes.length) (.incompletePacket bytes.length)
  let binBytes ← slice bytes offset (offset+len)
  Proc.modify (·+len)
  pure binBytes

lemma readBinary_eq (bytes : Bytes) :
    readBinary bytes = nextU16 bytes >>= fun len => takeBytes len.toNat bytes := rfl

lemma takeBytes_fits {bytes : Bytes} {o len : ℕ} (h : o+len ≤ bytes.length) :
    takeBytes len bytes o = .ok ((bytes.drop o).take len) (o+len) := by
  simp [takeBytes,Proc.failIf_neg (show ¬ o+len > bytes.length by omega),
    slice_eq (show o ≤ o+len by omega) h,List.drop_take]

lemma takeBytes_short {bytes : Bytes} {o len : ℕ} (h : bytes.length < o+len) :
    takeBytes len bytes o = .err (.incompletePacket bytes.length) o := by
  simp [takeBytes,Proc.failIf_pos (show o+len > bytes.length from h)]

/-- Within the slice, so that an empty read is not asked for behind its end. -/
lemma takeBytes_cases (len : ℕ) (bytes : Bytes) (o : ℕ) :
    (bytes.length < o+len ∧ takeBytes len bytes o = .err (.incompletePacket bytes.length) o) ∨
    ∃ data, data.length = len ∧ takeBytes len bytes o = .ok data (o+len) ∧
      bytes.drop o = data ++ bytes.drop (o+len) := by
  by_cases h : o+len ≤ bytes.length
  · refine .inr ⟨(bytes.drop o).take len,?_,takeBytes_fits h,?_⟩
    · rw [List.length_take,List.length_drop]
      omega
    · rw [← List.drop_drop,List.take_append_drop]
  · exact .inl ⟨Nat.not_le.mp h,takeBytes_short (Nat.not_le.mp h)⟩

lemma decides_readBinary :
    Decides readBinary (fun enc data => enc = field data ∧ data.length < 65536) where
  reads := by
    rintro bytes o _ data rest ⟨rfl,hd⟩ h
    have hx : (UInt16.ofNat data.length).toNat = data.length := by rw [UInt16.toNat_ofNat']; omega
    have hl := drop_length_le h (by simp [field,toBeBytes])
    rw [field,List.append_assoc] at h
    have h' : bytes.drop (o+2) = data ++ rest := drop_add_of_drop h
    rw [field_length] at hl
    rw [readBinary_eq,Proc.bind_apply,decides_nextU16.reads rfl h,Outcome.andThen_ok,hx,
      toBeBytes_length,takeBytes_fits (by omega),h',List.take_left,field_length,Nat.add_assoc]
  parses := by
    intro bytes o data o' h
    rw [readBinary_eq] at h
    obtain ⟨len,m,hm,hdata⟩ := Proc.bind_eq_ok.mp h
    obtain ⟨_,rfl,hdrop,rfl⟩ := decides_nextU16.parses hm
    rw [toBeBytes_length] at hdrop hdata
    obtain ⟨-,ht⟩ | ⟨data',hl,ht,hrest⟩ := takeBytes_cases len.toNat bytes (o+2)
    · rw [ht] at hdata; cases hdata
    · rw [ht] at hdata
      cases hdata
      have hlen : UInt16.ofNat data.length = len := by rw [hl,UInt16.ofNat_toNat]
      have hlt := len.toNat_lt
      refine ⟨field data,⟨rfl,by omega⟩,?_,?_⟩
      · rw [hdrop,hrest,field,hlen,List.append_assoc]
      · rw [field_length,hl,Nat.add_assoc]
  total bytes o := by
    rw [readBinary_eq]
    refine Outcome.returns_andThen_iff.mpr ⟨decides_nextU16.total bytes o,fun len m _ => ?_⟩
    obtain ⟨-,ht⟩ | ⟨data,-,ht,-⟩ := takeBytes_cases len.toNat bytes m
    · rw [ht]
      exact Outcome.returns_err _ _
    · rw [ht]
      exact Outcome.returns_ok _ _

lemma decides_readString : Decides readString
    (fun enc s => enc = field s ∧ s.length < 65536 ∧ validUtf8 s = true) := by
  refine (decides_readBinary.bind (fun s => (decides_failIf (validUtf8 s = false)
    .invalidUtf8String).bind (fun _ => decides_pure s))).congr (fun enc s => ?_)
  constructor
  · rintro ⟨rfl,hl,hv⟩
    exact ⟨field s,[],s,by simp,⟨rfl,hl⟩,by simp [hv]⟩
  · rintro ⟨e,_,s',rfl,⟨rfl,hl⟩,h⟩
    rw [seq_check] at h
    obtain ⟨hv,rfl,rfl⟩ := h
    exact ⟨by simp,hl,by simpa using hv⟩

end Fields

/-! ### Frames -/

/-- A frame with its remaining length in as few bytes as possible. -/
def frame (header : UInt8) (body : Bytes) : Bytes :=
  header :: (variableLengthBytes body.length ++ body)

/-- The slice starts with a frame of this header byte and body, the length taking `k` bytes. -/
def FrameAt (bytes : Bytes) (header : UInt8) (k : ℕ) (body : Bytes) : Prop :=
  ∃ tail rest, bytes = header::tail ∧ lengthField tail = .complete body.length k ∧
    tail.drop k = body ++ rest

lemma frameAt_frame {header : UInt8} {body : Bytes} (h : body.length ≤ maxVariableLength)
    (rest : Bytes) :
    FrameAt (frame header body ++ rest) header (variableLengthBytes body.length).length body := by
  refine ⟨variableLengthBytes body.length ++ (body ++ rest),rest,?_,lengthField_bytes h _,
    List.drop_left⟩
  rw [frame,List.cons_append,List.append_assoc]

lemma FrameAt.append {bytes : Bytes} {header : UInt8} {k : ℕ} {body : Bytes}
    (h : FrameAt bytes header k body) (rest : Bytes) : FrameAt (bytes ++ rest) header k body := by
  obtain ⟨tail,rest',rfl,hf,hd⟩ := h
  have hk := (lengthField_complete hf).2.2
  refine ⟨tail ++ rest,rest' ++ rest,rfl,?_,?_⟩
  · rw [lengthField_append rest (by rw [hf]; simp),hf]
  · rw [List.drop_append_of_le_length hk,hd,List.append_assoc]

lemma FrameAt.unique {bytes : Bytes} {header header' : UInt8} {k k' : ℕ} {body body' : Bytes}
    (h : FrameAt bytes header k body) (h' : FrameAt bytes header' k' body') :
    header = header' ∧ k = k' ∧ body = body' := by
  obtain ⟨tail,rest,rfl,hf,hd⟩ := h
  obtain ⟨tail',rest',heq,hf',hd'⟩ := h'
  cases heq
  rw [hf,LengthField.complete.injEq] at hf'
  obtain ⟨hl,rfl⟩ := hf'
  exact ⟨rfl,rfl,(List.append_inj (hd.symm.trans hd') hl).1⟩

lemma FrameAt.length_le {bytes : Bytes} {header : UInt8} {k : ℕ} {body : Bytes}
    (h : FrameAt bytes header k body) : 1+k+body.length ≤ bytes.length := by
  obtain ⟨tail,rest,rfl,hf,hd⟩ := h
  have hk := (lengthField_complete hf).2.2
  have hl := congrArg List.length hd
  rw [List.length_drop,List.length_append] at hl
  rw [List.length_cons]
  omega

/-- What the slice holds behind the frame is not part of it. -/
lemma FrameAt.take {bytes : Bytes} {header : UInt8} {k n : ℕ} {body : Bytes}
    (h : FrameAt bytes header k body) (hn : 1+k+body.length ≤ n) :
    FrameAt (bytes.take n) header k body := by
  obtain ⟨tail,rest,rfl,hf,hd⟩ := h
  obtain ⟨m,rfl⟩ : ∃ m, n = m+1 := ⟨n-1,by omega⟩
  refine ⟨tail.take m,rest.take (m-k-body.length),List.take_succ_cons,
    lengthField_take hf (by omega),?_⟩
  rw [List.drop_take,hd,List.take_append,List.take_of_length_le (by omega)]

/-- A proper prefix of a frame does not start with a frame. -/
lemma not_frameAt_take {header header' : UInt8} {k n : ℕ} {body body' : Bytes}
    (h : body.length ≤ maxVariableLength) (hn : n < (frame header body).length) :
    ¬ FrameAt ((frame header body).take n) header' k body' := by
  intro hf
  have hfull := hf.append ((frame header body).drop n)
  rw [List.take_append_drop,← List.append_nil (frame header body)] at hfull
  obtain ⟨-,rfl,rfl⟩ := hfull.unique (frameAt_frame h [])
  have hl := hf.length_le
  rw [List.length_take] at hl
  simp only [frame,List.length_cons,List.length_append] at hl hn
  omega

/-! ### Writing -/

lemma mapState_cons_eq_ok {o : Outcome Bytes ProtocolError ℕ} {b : UInt8} {n : ℕ} {out : Bytes}
    (h : o = .ok n out) : o.mapState (b::·) = .ok n (b::out) := by rw [h]; rfl

lemma writeVariableLengthLoop_eq (size value bytesWritten : ℕ) (buffer : Bytes)
    (h : (variableLengthBytes value).length ≤ buffer.length) :
    writeVariableLengthLoop size buffer value bytesWritten =
      .ok (bytesWritten+(variableLengthBytes value).length)
        (variableLengthBytes value ++ buffer.drop (variableLengthBytes value).length) := by
  have hor : ∀ n : Fin 128, UInt8.ofNat n.val ||| 0x80 = UInt8.ofNat (n.val+128) := by
    decide +kernel
  induction value using variableLengthBytes.induct generalizing buffer bytesWritten with
  | case1 value hv =>
    rw [variableLengthBytes_small hv] at h ⊢
    cases buffer with
    | nil => simp at h
    | cons b buffer =>
      have hs : ¬ value >>> 7 > 0 := by rw [Nat.shiftRight_eq_div_pow]; omega
      have hm : value % 128 = value := Nat.mod_eq_of_lt hv
      simp only [writeVariableLengthLoop,if_neg hs,and_0x7F,hm]
      rfl
  | case2 value hv ih =>
    rw [variableLengthBytes_large (by omega)] at h ⊢
    cases buffer with
    | nil => simp at h
    | cons b buffer =>
      have hd : value >>> 7 = value/128 := Nat.shiftRight_eq_div_pow value 7
      have hs : value/128 > 0 := by omega
      have hl : (variableLengthBytes (value/128)).length ≤ buffer.length := by simpa using h
      have hb := hor ⟨value%128,Nat.mod_lt _ (by decide)⟩
      simp only at hb
      simp only [writeVariableLengthLoop,and_0x7F,hd,if_pos hs,hb]
      rw [mapState_cons_eq_ok (ih (bytesWritten+1) buffer hl)]
      simp [Nat.add_assoc,Nat.add_comm 1]

/-! ### What the writers leave in a buffer, and what they report without room for it -/

def ProtocolError.IsBufferTooSmall (e : ProtocolError) : Prop := ∃ n, e = .bufferTooSmall n

/-- With room for the bytes the call writes them, without it reports that the buffer is too
small. -/
structure Fills (p : Proc Cursor ProtocolError Unit) (enc : Bytes) : Prop where
  writes : Cursor.Writes p enc ()
  reports : Cursor.Checked p enc ProtocolError.IsBufferTooSmall

section Fills
open Rust.Cursor

lemma Fills.bind {p : Proc Cursor ProtocolError Unit} {f : Unit → Proc Cursor ProtocolError Unit}
    {enc enc' : Bytes} (hp : Fills p enc) (hf : Fills (f ()) enc') :
    Fills (p >>= f) (enc ++ enc') where
  writes := hp.writes.bind hf.writes
  reports := Checked.bind hp.writes hp.reports hf.reports

lemma fills_pure : Fills (pure ()) [] := ⟨writes_pure (),checked_pure () _⟩

/-- The checks of the encoders compare the room with the number of bytes that they guard. -/
lemma fills_checked {body : Proc Cursor ProtocolError Unit} {enc : Bytes} {full : Cursor → Prop}
    [DecidablePred full] (hbody : Writes body enc ())
    (hfull : ∀ c, full c ↔ c.buffer.length < c.offset+enc.length) :
    Fills (do
      let c ← Proc.get
      Proc.failIf (full c) (.bufferTooSmall c.buffer.length)
      body) enc where
  writes := by
    refine hbody.of_room (fun c hc => ?_)
    have hroom : ¬ full c := by
      rw [hfull]
      omega
    rw [Proc.bind_apply,Proc.get_apply,Outcome.andThen_ok,Proc.bind_apply,Proc.failIf_neg hroom]
    rfl
  reports := by
    refine checked_of_room (e := fun c => .bufferTooSmall c.buffer.length) (fun _ => ⟨_,rfl⟩) ?_
    intro c hc
    rw [Proc.bind_apply,Proc.get_apply,Outcome.andThen_ok,Proc.bind_apply,
      Proc.failIf_pos ((hfull c).mpr hc)]
    rfl

lemma fills_writeBinary (data : Bytes) : Fills (writeBinary data) (field data) := by
  apply fills_checked ((writes_putSlice _).bind (writes_putSlice data))
  intro c
  rw [List.length_append,toBeBytes_length,← Nat.add_assoc]

lemma fills_writeString (s : Bytes) : Fills (writeString s) (field s) := fills_writeBinary s

/-- The loop stops at the end of a buffer that is too short for all bytes. -/
lemma writeVariableLengthLoop_short (size value bytesWritten : ℕ) (buffer : Bytes)
    (h : buffer.length < (variableLengthBytes value).length) :
    ∃ out, writeVariableLengthLoop size buffer value bytesWritten =
      .err (.bufferTooSmall size) out := by
  induction buffer generalizing value bytesWritten with
  | nil => exact ⟨[],rfl⟩
  | cons b buffer ih =>
    have hd : value >>> 7 = value/128 := Nat.shiftRight_eq_div_pow value 7
    have hv : 128 ≤ value := by
      by_contra hc
      rw [variableLengthBytes_small (Nat.not_le.mp hc)] at h
      simp at h
    rw [variableLengthBytes_large hv,List.length_cons,List.length_cons] at h
    obtain ⟨out,ho⟩ := ih (value/128) (bytesWritten+1) (by omega)
    refine ⟨(UInt8.ofNat (value &&& 0x7F) ||| 0x80)::out,?_⟩
    rw [writeVariableLengthLoop,hd]
    simp only [if_pos (show value/128 > 0 by omega),ho]
    rfl

lemma writeVariableLength_short {value : ℕ} {buffer : Bytes} (hv : value ≤ maxVariableLength)
    (h : buffer.length < (variableLengthBytes value).length) :
    ∃ out, writeVariableLength value buffer = .err (.bufferTooSmall buffer.length) out := by
  obtain ⟨out,ho⟩ := writeVariableLengthLoop_short buffer.length value 0 buffer h
  refine ⟨out,?_⟩
  rw [writeVariableLength,Proc.bind_apply,Proc.failIf_neg (Nat.not_lt.mpr hv),Outcome.andThen_ok]
  exact ho

/-- The length is written into the rest of the buffer, and the error counts only that rest. -/
lemma fills_putVariableLength {value : ℕ} (hv : value ≤ maxVariableLength) :
    Fills (putVariableLength value) (variableLengthBytes value) where
  writes := by
    intro done tail h
    have hmax : ¬ value > maxVariableLength := by omega
    have hroom : done.length ≤ (done ++ tail).length := by simp
    simp [putVariableLength,writeVariableLength,at',Proc.failIf_neg hmax,
      writeVariableLengthLoop_eq _ value 0 tail h]
  reports := by
    intro done tail h
    obtain ⟨out,ho⟩ := writeVariableLength_short hv h
    have hroom : done.length ≤ (done ++ tail).length := by simp
    refine .inr ⟨not_false,.bufferTooSmall tail.length,⟨done ++ out,done.length⟩,?_,tail.length,rfl⟩
    simp only [putVariableLength,at',if_pos hroom,List.drop_left,List.take_left,ho]

end Fills

/-- Run the writes of an encoder from the start of a buffer; the result is the final offset. -/
def encodeWith (p : Proc Cursor ProtocolError Unit) : Proc Bytes ProtocolError ℕ :=
  ⟨fun buffer => match p ⟨buffer,0⟩ with
    | .ok _ c => .ok c.offset c.buffer
    | .err e c => .err e c.buffer
    | .abort w => .abort w⟩

lemma encodeWith_eq {p : Proc Cursor ProtocolError Unit} {enc buffer : Bytes}
    (hp : Cursor.Writes p enc ()) (h : enc.length ≤ buffer.length) :
    encodeWith p buffer = .ok enc.length (enc ++ buffer.drop enc.length) := by
  have hw := hp [] buffer h
  simp only [Cursor.at',List.nil_append,List.length_nil] at hw
  simp only [encodeWith,hw]

end Picobroker
