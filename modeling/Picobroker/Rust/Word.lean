import Picobroker.Rust.Outcome

/-! Machine words and text: arithmetic that panics on overflow, big-endian 16-bit fields, and the
UTF-8 check behind `str`. A `&str` is the list of its bytes. -/
namespace Rust

abbrev Bytes := List UInt8

variable {σ ε : Type}

/-- `a + b` on a word of `w` bits. -/
def checkedAdd (w a b : ℕ) : Proc σ ε ℕ := if a+b < 2^w then pure (a+b) else Proc.panic
/-- `a * b` on a word of `w` bits. -/
def checkedMul (w a b : ℕ) : Proc σ ε ℕ := if a*b < 2^w then pure (a*b) else Proc.panic
/-- `a - b` on an unsigned word. -/
def checkedSub (a b : ℕ) : Proc σ ε ℕ := if b ≤ a then pure (a-b) else Proc.panic

lemma checkedAdd_eq {w a b : ℕ} (h : a+b < 2^w) (s : σ) :
    (checkedAdd w a b : Proc σ ε ℕ) s = .ok (a+b) s := by simp [checkedAdd,h]
lemma checkedMul_eq {w a b : ℕ} (h : a*b < 2^w) (s : σ) :
    (checkedMul w a b : Proc σ ε ℕ) s = .ok (a*b) s := by simp [checkedMul,h]
lemma checkedMul_panics {w a b : ℕ} (h : ¬ a*b < 2^w) (s : σ) :
    (checkedMul w a b : Proc σ ε ℕ) s = .abort .panic := by simp [checkedMul,h]
lemma checkedSub_eq {a b : ℕ} (h : b ≤ a) (s : σ) :
    (checkedSub a b : Proc σ ε ℕ) s = .ok (a-b) s := by simp [checkedSub,h]
lemma checkedSub_panics {a b : ℕ} (h : a < b) (s : σ) :
    (checkedSub a b : Proc σ ε ℕ) s = .abort .panic := by simp [checkedSub,Nat.not_le.mpr h]

/-- `a + b` where overflow wraps around. -/
def wrappingAdd (w a b : ℕ) : Proc σ ε ℕ := pure ((a+b)%2^w)
/-- `a * b` where overflow wraps around. -/
def wrappingMul (w a b : ℕ) : Proc σ ε ℕ := pure (a*b%2^w)

section Wrapping

open Outcome

lemma wrappingAdd_replaces (w a b : ℕ) (s : σ) :
    ((wrappingAdd w a b : Proc σ ε ℕ) s).Replaces ((checkedAdd w a b : Proc σ ε ℕ) s) := by
  intro h
  by_cases hw : a+b < 2^w
  · rw [checkedAdd_eq hw,wrappingAdd,Nat.mod_eq_of_lt hw]
    rfl
  · rw [checkedAdd,if_neg hw] at h
    exact absurd h (not_returns_abort _)

lemma wrappingMul_replaces (w a b : ℕ) (s : σ) :
    ((wrappingMul w a b : Proc σ ε ℕ) s).Replaces ((checkedMul w a b : Proc σ ε ℕ) s) := by
  intro h
  by_cases hw : a*b < 2^w
  · rw [checkedMul_eq hw,wrappingMul,Nat.mod_eq_of_lt hw]
    rfl
  · rw [checkedMul_panics hw] at h
    exact absurd h (not_returns_abort _)

end Wrapping

/-- What a build does with a sum that leaves its word: panic, or wrap around. -/
inductive Overflow
  | checked
  | wrapping
  deriving DecidableEq, Repr

namespace Overflow

variable {w a b n : ℕ} {o : Overflow}

/-- `a + b` on a word of `w` bits; nothing when it panics. -/
def add : Overflow → (w a b : ℕ) → Option ℕ
  | .checked,w,a,b => if a+b < 2^w then some (a+b) else none
  | .wrapping,w,a,b => some ((a+b)%2^w)

/-- The same as a call. -/
def sum (o : Overflow) (w a b : ℕ) : Proc σ ε ℕ :=
  match o.add w a b with
  | some n => pure n
  | none => Proc.panic

lemma add_eq (o : Overflow) (h : a+b < 2^w) : o.add w a b = some (a+b) := by
  cases o with
  | checked => exact if_pos h
  | wrapping => rw [add,Nat.mod_eq_of_lt h]

lemma sum_eq (o : Overflow) (h : a+b < 2^w) (s : σ) :
    (o.sum w a b : Proc σ ε ℕ) s = .ok (a+b) s := by
  rw [sum,o.add_eq h]
  rfl

lemma sum_cases (o : Overflow) (w a b : ℕ) (s : σ) :
    (∃ n, (o.sum w a b : Proc σ ε ℕ) s = .ok n s) ∨
      (o.sum w a b : Proc σ ε ℕ) s = .abort .panic := by
  unfold sum
  cases o.add w a b with
  | some n => exact .inl ⟨n,rfl⟩
  | none => exact .inr rfl

lemma add_le (h : o.add w a b = some n) : n ≤ a+b := by
  cases o with
  | checked =>
    rw [add,Option.ite_none_right_eq_some,Option.some.injEq] at h
    exact h.2.ge
  | wrapping =>
    rw [add,Option.some.injEq] at h
    rw [← h]
    exact Nat.mod_le _ _

lemma add_lt (h : o.add w a b = some n) : n < 2^w := by
  cases o with
  | checked =>
    rw [add,Option.ite_none_right_eq_some,Option.some.injEq] at h
    rw [← h.2]
    exact h.1
  | wrapping =>
    rw [add,Option.some.injEq] at h
    rw [← h]
    exact Nat.mod_lt _ (Nat.two_pow_pos w)

/-- The sum panics where the build checks it and it leaves the word. -/
lemma add_isSome_iff : (o.add w a b).isSome = true ↔ (o = .checked → a+b < 2^w) := by
  cases o with
  | checked => simp [add]
  | wrapping => simp [add]

/-- A sum whose second term was cut to the word is the full sum exactly when that fits the word. -/
lemma add_mod_eq_iff (h : o.add w a (b%2^w) = some n) : n = a+b ↔ a+b < 2^w := by
  constructor
  · intro hn
    rw [← hn]
    exact add_lt h
  · intro hlt
    have hb : b%2^w = b := Nat.mod_eq_of_lt (by omega)
    rw [hb,o.add_eq hlt,Option.some.injEq] at h
    exact h.symm

end Overflow

/-- `u16::to_be_bytes`. -/
def toBeBytes (x : UInt16) : Bytes := [UInt8.ofNat (x.toNat/256),UInt8.ofNat (x.toNat%256)]
/-- `u16::from_be_bytes`. -/
def fromBeBytes (hi lo : UInt8) : UInt16 := UInt16.ofNat (hi.toNat*256+lo.toNat)

@[simp] lemma toBeBytes_length (x : UInt16) : (toBeBytes x).length = 2 := rfl

lemma fromBeBytes_toBeBytes (x : UInt16) :
    fromBeBytes (UInt8.ofNat (x.toNat/256)) (UInt8.ofNat (x.toNat%256)) = x := by
  have hx := x.toNat_lt
  apply UInt16.toNat_inj.mp
  simp only [fromBeBytes,UInt16.toNat_ofNat',UInt8.toNat_ofNat']
  omega

lemma toBeBytes_fromBeBytes (hi lo : UInt8) : toBeBytes (fromBeBytes hi lo) = [hi,lo] := by
  have h := hi.toNat_lt
  have l := lo.toNat_lt
  have hx : (fromBeBytes hi lo).toNat = hi.toNat*256+lo.toNat := by
    rw [fromBeBytes,UInt16.toNat_ofNat']
    omega
  rw [toBeBytes,hx,show (hi.toNat*256+lo.toNat)/256 = hi.toNat by omega,
    show (hi.toNat*256+lo.toNat)%256 = lo.toNat by omega,UInt8.ofNat_toNat,UInt8.ofNat_toNat]

/-- `core::str::from_utf8(bytes).is_ok()`. -/
def validUtf8 (bytes : Bytes) : Bool := bytes.toByteArray.validateUTF8

/-- The accepted byte strings are exactly the encodings of sequences of Unicode scalar values. -/
theorem validUtf8_iff (bytes : Bytes) :
    validUtf8 bytes = true ↔ ∃ cs : List Char, bytes = cs.flatMap String.utf8EncodeChar := by
  have hb : bytes.toByteArray.IsValidUTF8 ↔
      ∃ cs : List Char, bytes.toByteArray = cs.utf8Encode :=
    ⟨fun h => h.rec (fun m hm => ⟨m,hm⟩),fun ⟨m,hm⟩ => .intro m hm⟩
  rw [validUtf8,ByteArray.validateUTF8_eq_true_iff,hb]
  simp only [List.utf8Encode,List.toByteArray_inj]

@[simp] lemma validUtf8_nil : validUtf8 [] = true := by decide

end Rust
