import Picobroker.Protocol.Utils

/-! The remaining-length integer as a format: what its three functions agree on, and what the reading
loop does to it on a narrow word. -/
namespace Picobroker
open Rust

/-! ### The format -/

/-- The byte announces another one. -/
def Continues (byte : UInt8) : Prop := byte.toNat &&& 0x80 ≠ 0

instance (byte : UInt8) : Decidable (Continues byte) := inferInstanceAs (Decidable (_ ≠ _))

/-- The slice starts with an integer of `n` bytes, at most four: all but the last one announce
another, and the low seven bits are its digits. -/
structure VariableLengthAt (bytes : Bytes) (v n : ℕ) : Prop where
  pos : 0 < n
  within : n ≤ bytes.length
  le : n ≤ 4
  continued : ∀ i, i+1 < n → Continues (bytes.getD i 0)
  last : ¬ Continues (bytes.getD (n-1) 0)
  value : v = ∑ i ∈ Finset.range n, ((bytes.getD i 0).toNat &&& 0x7F)*128^i

section Format

variable {bytes : Bytes} {v n : ℕ}

lemma continues_iff {byte : UInt8} : Continues byte ↔ 128 ≤ byte.toNat := by
  rw [Continues,ne_eq,and_0x80_eq_zero,Nat.not_lt]

/-- The digits behind the first byte. -/
lemma sum_digits_succ (byte : UInt8) (rest : Bytes) (n : ℕ) :
    ∑ i ∈ Finset.range (n+1), (((byte::rest).getD i 0).toNat &&& 0x7F)*128^i =
      byte.toNat%128+128*∑ i ∈ Finset.range n, ((rest.getD i 0).toNat &&& 0x7F)*128^i := by
  rw [Finset.sum_range_succ',Finset.mul_sum,Nat.add_comm]
  congr 1
  · simp [and_0x7F]
  · apply Finset.sum_congr rfl
    intro i _
    rw [List.getD_cons_succ,pow_succ]
    ring

/-- The slice starts with an integer of `n` bytes, however many. -/
structure DigitsAt (bytes : Bytes) (v n : ℕ) : Prop where
  pos : 0 < n
  within : n ≤ bytes.length
  continued : ∀ i, i+1 < n → Continues (bytes.getD i 0)
  last : ¬ Continues (bytes.getD (n-1) 0)
  value : v = ∑ i ∈ Finset.range n, ((bytes.getD i 0).toNat &&& 0x7F)*128^i

lemma variableLengthAt_iff : VariableLengthAt bytes v n ↔ n ≤ 4 ∧ DigitsAt bytes v n :=
  ⟨fun h => ⟨h.le,h.pos,h.within,h.continued,h.last,h.value⟩,
    fun h => ⟨h.2.pos,h.2.within,h.1,h.2.continued,h.2.last,h.2.value⟩⟩

lemma not_digitsAt_nil : ¬ DigitsAt [] v n := by
  intro h
  have hpos := h.pos
  have hle := h.within
  rw [List.length_nil] at hle
  omega

/-- A byte that announces no other is an integer by itself. -/
lemma digitsAt_cons_last {byte : UInt8} (hb : byte.toNat < 128) (rest : Bytes) :
    DigitsAt (byte::rest) v n ↔ v = byte.toNat ∧ n = 1 := by
  constructor
  · intro h
    have hn : n = 1 := by
      by_contra hne
      have hpos := h.pos
      have h₀ := continues_iff.mp (h.continued 0 (by omega))
      exact absurd h₀ (Nat.not_le.mpr hb)
    subst hn
    refine ⟨?_,rfl⟩
    simpa [and_0x7F,Nat.mod_eq_of_lt hb] using h.value
  · rintro ⟨rfl,rfl⟩
    refine ⟨one_pos,by simp,fun i hi => by omega,?_,?_⟩
    · simpa [continues_iff] using hb
    · simp [and_0x7F,Nat.mod_eq_of_lt hb]

/-- Behind any other byte the integer goes on. -/
lemma digitsAt_cons {byte : UInt8} (hb : 128 ≤ byte.toNat) (rest : Bytes) :
    DigitsAt (byte::rest) v n ↔
      ∃ v' n', v = byte.toNat%128+128*v' ∧ n = n'+1 ∧ DigitsAt rest v' n' := by
  constructor
  · intro h
    have hpos := h.pos
    have hn : n ≠ 1 := by
      rintro rfl
      exact h.last (continues_iff.mpr hb)
    obtain ⟨m,rfl⟩ : ∃ m, n = m+2 := ⟨n-2,by omega⟩
    have hrest : DigitsAt rest (∑ i ∈ Finset.range (m+1), ((rest.getD i 0).toNat &&& 0x7F)*128^i)
        (m+1) := ⟨by omega,Nat.le_of_succ_le_succ h.within,
      fun i hi => h.continued (i+1) (by omega),h.last,rfl⟩
    exact ⟨_,m+1,by rw [h.value,sum_digits_succ],rfl,hrest⟩
  · rintro ⟨v',n',rfl,rfl,h⟩
    obtain ⟨m,rfl⟩ : ∃ m, n' = m+1 := Nat.exists_eq_add_one.mpr h.pos
    refine ⟨Nat.succ_pos _,Nat.succ_le_succ h.within,?_,h.last,?_⟩
    · intro i hi
      cases i with
      | zero => exact continues_iff.mpr hb
      | succ i => exact h.continued i (by omega)
    · rw [sum_digits_succ,← h.value]

/-- With `k` bytes allowed: the limit of four is the one of the whole field. -/
lemma lengthFieldWithin_eq_complete {k : ℕ} :
    lengthFieldWithin k bytes = .complete v n ↔ n ≤ k ∧ DigitsAt bytes v n := by
  induction k generalizing bytes v n with
  | zero =>
    constructor
    · intro h
      cases bytes <;> simp [lengthFieldWithin] at h
    · rintro ⟨hle,h⟩
      exact absurd h.pos (by omega)
  | succ k ih =>
    cases bytes with
    | nil =>
      constructor
      · intro h
        simp [lengthFieldWithin] at h
      · rintro ⟨-,h⟩
        exact absurd h not_digitsAt_nil
    | cons byte rest =>
      by_cases hb : byte.toNat < 128
      · rw [lengthFieldWithin,if_pos hb,LengthField.complete.injEq,digitsAt_cons_last hb]
        constructor
        · rintro ⟨rfl,rfl⟩
          exact ⟨by omega,rfl,rfl⟩
        · rintro ⟨-,rfl,rfl⟩
          exact ⟨rfl,rfl⟩
      · rw [lengthFieldWithin,if_neg hb,digitsAt_cons (Nat.not_lt.mp hb)]
        constructor
        · intro h
          cases hf : lengthFieldWithin k rest with
          | complete v' n' =>
            simp only [hf,LengthField.complete.injEq] at h
            obtain ⟨hle,hd⟩ := ih.mp hf
            exact ⟨by omega,v',n',h.1.symm,h.2.symm,hd⟩
          | cut => simp [hf] at h
          | overlong fifth => simp [hf] at h
        · rintro ⟨hle,v',n',rfl,rfl,hd⟩
          rw [ih.mpr ⟨by omega,hd⟩]

theorem lengthField_eq_complete :
    lengthField bytes = .complete v n ↔ VariableLengthAt bytes v n := by
  rw [lengthField,lengthFieldWithin_eq_complete,variableLengthAt_iff]

end Format

/-! ### Writing -/

lemma variableLengthBytes_length {value : ℕ} (h : value ≤ maxVariableLength) :
    (variableLengthBytes value).length = variableLengthLength value := by
  rw [maxVariableLength] at h
  unfold variableLengthLength
  split_ifs with h₁ h₂ h₃
  · rw [variableLengthBytes_small h₁]
    rfl
  · rw [variableLengthBytes_large (by omega),variableLengthBytes_small (by omega)]
    rfl
  · rw [variableLengthBytes_large (by omega),variableLengthBytes_large (by omega),
      variableLengthBytes_small (by omega)]
    rfl
  · rw [variableLengthBytes_large (by omega),variableLengthBytes_large (by omega),
      variableLengthBytes_large (by omega),variableLengthBytes_small (by omega)]
    rfl

section Write

variable {value : ℕ} {buffer : Bytes}

lemma writeVariableLength_eq (hv : value ≤ maxVariableLength)
    (h : (variableLengthBytes value).length ≤ buffer.length) :
    writeVariableLength value buffer = .ok (variableLengthBytes value).length
      (variableLengthBytes value ++ buffer.drop (variableLengthBytes value).length) := by
  rw [writeVariableLength,Proc.bind_apply,Proc.failIf_neg (Nat.not_lt.mpr hv),Outcome.andThen_ok]
  change writeVariableLengthLoop buffer.length buffer value 0 = _
  rw [writeVariableLengthLoop_eq _ value 0 buffer h,Nat.zero_add]

lemma writeVariableLength_large (hv : maxVariableLength < value) :
    writeVariableLength value buffer = .err (.invalidPacketLength maxVariableLength value) buffer := by
  rw [writeVariableLength,Proc.bind_apply,Proc.failIf_pos hv]
  rfl

end Write

/-- Writing and reading agree: what is written has the announced number of bytes and is read back in
front of anything; short buffers and large values are refused; and what is read is exactly what the
format allows, from every slice, without a panic. -/
theorem variableLength_exact :
    (∀ value ≤ maxVariableLength, ∀ buffer : Bytes,
      (variableLengthLength value ≤ buffer.length → ∃ written : Bytes,
        written.length = variableLengthLength value ∧
        writeVariableLength value buffer = .ok (variableLengthLength value)
          (written ++ buffer.drop (variableLengthLength value)) ∧
        ∀ rest, readVariableLength 64 (written ++ rest) = .ok (value,variableLengthLength value) ()) ∧
      (buffer.length < variableLengthLength value → ∃ out,
        writeVariableLength value buffer = .err (.bufferTooSmall buffer.length) out)) ∧
    (∀ value, maxVariableLength < value → ∀ buffer : Bytes,
      writeVariableLength value buffer =
        .err (.invalidPacketLength maxVariableLength value) buffer) ∧
    ∀ bytes : Bytes, (readVariableLength 64 bytes).Returns ∧
      ∀ v n, readVariableLength 64 bytes = .ok (v,n) () ↔ VariableLengthAt bytes v n := by
  refine ⟨fun value hv buffer => ?_,fun value hv buffer => writeVariableLength_large hv,
    fun bytes => ⟨?_,fun v n => ?_⟩⟩
  · rw [← variableLengthBytes_length hv]
    refine ⟨fun h => ⟨variableLengthBytes value,rfl,writeVariableLength_eq hv h,fun rest => ?_⟩,
      writeVariableLength_short hv⟩
    rw [readVariableLength_eq_ok (by decide)]
    exact lengthField_bytes hv rest
  · rw [readVariableLength_returns (by decide)]
    exact fun fifth _ => not_overflowsWord (by decide) fifth
  · rw [readVariableLength_eq_ok (by decide),lengthField_eq_complete]

/-! ### Wrapping arithmetic -/

/-- The loop of `read_variable_length` in a build whose arithmetic wraps at `w` bits instead of
panicking. -/
def readVariableLengthLoopWrapping (w available : ℕ) :
    Bytes → (multiplier value bytesRead : ℕ) → Proc Unit ProtocolError (ℕ × ℕ)
  | [],_,_,_ => Proc.fail (.incompletePacket available)
  | byte::rest,multiplier,value,bytesRead => do
    let product ← wrappingMul w (byte.toNat &&& 0x7F) multiplier
    let value ← wrappingAdd w value product
    Proc.failIf (value > maxVariableLength) (.invalidPacketLength maxVariableLength value)
    let multiplier ← wrappingMul w multiplier 128
    Proc.failIf (multiplier > 128*128*128*128) (.invalidPacketLength maxVariableLength value)
    if byte.toNat &&& 0x80 = 0 then pure (value,bytesRead+1)
    else readVariableLengthLoopWrapping w available rest multiplier value (bytesRead+1)

def readVariableLengthWrapping (w : ℕ) (bytes : Bytes) : Outcome Unit ProtocolError (ℕ × ℕ) :=
  readVariableLengthLoopWrapping w bytes.length bytes 1 0 0 ()

section Wrapping

variable {w : ℕ}

/-- As long as the checked arithmetic does not panic, the wrapping one does the same. -/
lemma readVariableLengthLoopWrapping_replaces (available : ℕ) (bytes : Bytes)
    (multiplier value bytesRead : ℕ) :
    (readVariableLengthLoopWrapping w available bytes multiplier value bytesRead ()).Replaces
      (readVariableLengthLoop w available bytes multiplier value bytesRead ()) := by
  induction bytes generalizing multiplier value bytesRead with
  | nil => exact Outcome.Replaces.refl _
  | cons byte rest ih =>
    rw [readVariableLengthLoop,readVariableLengthLoopWrapping]
    apply Proc.replaces_bind (wrappingMul_replaces w _ _ _)
    intro product _
    apply Proc.replaces_bind (wrappingAdd_replaces w _ _ _)
    intro value _
    apply Proc.replaces_bind (Outcome.Replaces.refl _)
    intro _ _
    apply Proc.replaces_bind (wrappingMul_replaces w _ _ _)
    intro multiplier _
    apply Proc.replaces_bind (Outcome.Replaces.refl _)
    intro _ _
    by_cases hb : byte.toNat &&& 0x80 = 0
    · rw [if_pos hb,if_pos hb]
      exact Outcome.Replaces.refl _
    · rw [if_neg hb,if_neg hb]
      exact ih multiplier value (bytesRead+1)

/-- No overflow, and nothing accepted behind a fourth byte, whether overflow panics or wraps
around. -/
def SafeLength (w : ℕ) (bytes : Bytes) : Prop :=
  (readVariableLength w bytes).Returns ∧
    (∀ v n, readVariableLength w bytes = .ok (v,n) () → n ≤ 4) ∧
    ∀ v n, readVariableLengthWrapping w bytes = .ok (v,n) () → n ≤ 4

/-- Four bytes that announce a next one, and a fifth that brings the arithmetic out of the word. -/
def FifthOverflows (w : ℕ) (bytes : Bytes) : Prop :=
  ∃ init fifth rest, init.length = 4 ∧ bytes = init ++ fifth::rest ∧
    (∀ b ∈ init, Continues b) ∧ OverflowsWord w fifth

lemma lengthFieldWithin_eq_overlong {k : ℕ} {bytes : Bytes} {next : UInt8} :
    lengthFieldWithin k bytes = .overlong next ↔
      ∃ init rest, init.length = k ∧ bytes = init ++ next::rest ∧ ∀ b ∈ init, Continues b := by
  induction k generalizing bytes with
  | zero =>
    constructor
    · intro h
      cases bytes with
      | nil => cases h
      | cons byte rest =>
        cases h
        exact ⟨[],rest,rfl,rfl,by simp⟩
    · rintro ⟨init,rest,hl,rfl,-⟩
      rw [List.length_eq_zero_iff] at hl
      subst hl
      rfl
  | succ k ih =>
    constructor
    · intro h
      cases bytes with
      | nil => cases h
      | cons byte tail =>
        by_cases hb : byte.toNat < 128
        · simp [lengthFieldWithin,hb] at h
        · rw [lengthFieldWithin,if_neg hb] at h
          have ht : lengthFieldWithin k tail = .overlong next := by
            cases hf : lengthFieldWithin k tail <;> simp [hf] at h ⊢
            exact h
          obtain ⟨init,rest,rfl,rfl,hc⟩ := ih.mp ht
          refine ⟨byte::init,rest,rfl,rfl,?_⟩
          rintro b (_ | ⟨_,hmem⟩)
          · exact continues_iff.mpr (Nat.not_lt.mp hb)
          · exact hc b hmem
    · rintro ⟨init,rest,hl,rfl,hc⟩
      cases init with
      | nil => cases hl
      | cons byte init =>
        have hb := continues_iff.mp (hc byte List.mem_cons_self)
        have ht := ih.mpr ⟨init,rest,Nat.succ.inj hl,rfl,
          fun b hmem => hc b (List.mem_cons_of_mem byte hmem)⟩
        rw [List.cons_append,lengthFieldWithin,if_neg (Nat.not_lt.mpr hb),ht]

lemma readVariableLength_returns_iff (hw : 32 ≤ w) (bytes : Bytes) :
    (readVariableLength w bytes).Returns ↔ ¬ FifthOverflows w bytes := by
  rw [readVariableLength_returns hw]
  constructor
  · rintro h ⟨init,fifth,rest,hl,hb,hc,ho⟩
    exact h fifth (lengthFieldWithin_eq_overlong.mpr ⟨init,rest,hl,hb,hc⟩) ho
  · rintro h fifth hf ho
    obtain ⟨init,rest,hl,hb,hc⟩ := lengthFieldWithin_eq_overlong.mp hf
    exact h ⟨init,fifth,rest,hl,hb,hc,ho⟩

/-- Without an overflow the two modes agree, and accept at most four bytes. -/
lemma safeLength_of_returns (hw : 32 ≤ w) {bytes : Bytes}
    (h : (readVariableLength w bytes).Returns) : SafeLength w bytes := by
  have hle : ∀ v n, readVariableLength w bytes = .ok (v,n) () → n ≤ 4 := by
    intro v n hr
    rw [readVariableLength_eq_ok hw] at hr
    exact (lengthFieldWithin_complete hr).2.2.2
  refine ⟨h,hle,fun v n hr => hle v n ?_⟩
  rw [← hr]
  exact (readVariableLengthLoopWrapping_replaces bytes.length bytes 1 0 0 h).symm

/-- Reading a remaining length is safe exactly where no fifth byte overflows the word. -/
theorem safeLength_iff (hw : 32 ≤ w) (bytes : Bytes) :
    SafeLength w bytes ↔ ¬ FifthOverflows w bytes := by
  rw [← readVariableLength_returns_iff hw]
  exact ⟨fun h => h.1,safeLength_of_returns hw⟩

/-- A fifth byte with the digit 1 stays inside 32 bits, and is refused. -/
theorem safeLength_fifth : SafeLength 32 [0x80,0x80,0x80,0x80,0x01] := by
  rw [safeLength_iff (by decide)]
  rintro ⟨init,fifth,rest,hl,hb,-,ho⟩
  match init,hl with
  | [_,_,_,_],_ =>
    cases hb
    revert ho
    decide

/-- On 32 bits a fifth byte without a digit overflows the multiplier, and where that wraps around to
zero the fifth byte is accepted. -/
theorem safeLength_fails :
    ¬ ∀ w, w = 32 ∨ w = 64 → ∀ bytes : Bytes, SafeLength w bytes := by
  intro h
  have hr : readVariableLengthWrapping 32 [0x80,0x80,0x80,0x80,0x00] = .ok (0,5) () := by decide
  have hn := (h 32 (.inl rfl) [0x80,0x80,0x80,0x80,0x00]).2.2 0 5 hr
  omega

/-- From 36 bits on no slice can overflow. -/
theorem safeLength_wide (hw : 36 ≤ w) (bytes : Bytes) : SafeLength w bytes := by
  apply safeLength_of_returns (by omega)
  rw [readVariableLength_returns (by omega)]
  exact fun fifth _ => not_overflowsWord hw fifth

end Wrapping

end Picobroker
