import Picobroker.Rust.Word

/-! The ids that the servers give to new connections: the time in the upper bits, a counter in the
lower ones. -/
namespace Picobroker
open Rust

/-- `SessionIdGenerator` and `SessionIdGen`: the next counter. -/
structure IdGenerator where
  counter : UInt64
  deriving DecidableEq, Repr

namespace IdGenerator

def new : IdGenerator := ⟨0⟩

/-- `(base << 32) | counter` on 128 bits. The counter has 64 of them, and reaches into the time. -/
def idOf (base counter : UInt64) : ℕ := base.toNat <<< 32 ||| counter.toNat

/-- `fetch_add(1)` and `wrapping_add(1)` both start again at 0 behind the last counter. -/
def generateAt (base : UInt64) (gen : IdGenerator) : ℕ × IdGenerator :=
  (idOf base gen.counter,⟨gen.counter+1⟩)

/-- The ids of calls at these times. -/
def ids : List UInt64 → IdGenerator → List ℕ
  | [],_ => []
  | base::times,gen => (generateAt base gen).1 :: ids times (generateAt base gen).2

end IdGenerator

/-- `tokio_mqtt_server::state::SessionIdGenerator::generate`, at this many seconds. -/
def TokioServer.generate (secs : UInt64) (gen : IdGenerator) : ℕ × IdGenerator :=
  gen.generateAt secs

/-- `rp2040_mqtt_server::state::SessionIdGen::generate`, at this many ticks. -/
def Rp2040Server.generate (ticks : UInt64) (gen : IdGenerator) : ℕ × IdGenerator :=
  gen.generateAt ticks

namespace IdGenerator

variable {base base' counter counter' : UInt64} {times : List UInt64} {gen : IdGenerator}

/-- The lower half of the counter is all that an id shows for certain. -/
lemma idOf_mod (base counter : UInt64) : idOf base counter % 2^32 = counter.toNat % 2^32 := by
  rw [idOf,Nat.or_mod_two_pow,Nat.shiftLeft_eq,Nat.mul_mod_left,Nat.zero_or]

lemma idOf_ne_zero (h : base ≠ 0) (counter : UInt64) : idOf base counter ≠ 0 := by
  have hbase : base.toNat ≠ 0 := fun he => h (UInt64.toNat_inj.mp he)
  have hle : base.toNat <<< 32 ≤ idOf base counter := Nat.left_le_or
  rw [Nat.shiftLeft_eq] at hle
  omega

/-- At the latest time the upper half of the counter disappears altogether. -/
lemma idOf_latest (h : counter.toNat % 2^32 = counter'.toNat % 2^32) :
    idOf (-1) counter = idOf (-1) counter' := by
  have hlow : ∀ i < 32, counter.toNat.testBit i = counter'.toNat.testBit i := by
    intro i hi
    have hbit := congrArg (fun n => n.testBit i) h
    simpa only [Nat.testBit_mod_two_pow,hi,decide_true,Bool.true_and] using hbit
  have hhigh : ∀ i, 96 ≤ i → counter.toNat.testBit i = counter'.toNat.testBit i := by
    intro i hi
    have hpow : 2^64 ≤ 2^i := Nat.pow_le_pow_right (by decide) (by omega)
    rw [Nat.testBit_lt_two_pow (counter.toNat_lt.trans_le hpow),
      Nat.testBit_lt_two_pow (counter'.toNat_lt.trans_le hpow)]
  have hones : (-1 : UInt64).toNat = 2^64-1 := by decide
  rw [idOf,idOf,hones]
  apply Nat.eq_of_testBit_eq
  intro i
  rw [Nat.testBit_or,Nat.testBit_or,Nat.testBit_shiftLeft,Nat.testBit_two_pow_sub_one]
  by_cases hi : i < 32
  · rw [hlow i hi]
  · by_cases hi' : 96 ≤ i
    · rw [hhigh i hi']
    · have hbit : (decide (i ≥ 32) && decide (i-32 < 64)) = true := by
        simp only [Bool.and_eq_true,decide_eq_true_eq]
        omega
      rw [hbit,Bool.true_or,Bool.true_or]

/-- The counter after `n` more calls. -/
def advance (gen : IdGenerator) (n : ℕ) : IdGenerator := ⟨gen.counter+UInt64.ofNat n⟩

lemma advance_succ (gen : IdGenerator) (n : ℕ) :
    (⟨gen.counter+1⟩ : IdGenerator).advance n = gen.advance (n+1) := by
  rw [advance,advance,IdGenerator.mk.injEq,UInt64.ofNat_add,UInt64.add_assoc,
    UInt64.add_comm (1 : UInt64)]
  rfl

lemma generateAt_advance (base : UInt64) (gen : IdGenerator) (n : ℕ) :
    generateAt base (gen.advance n) = (idOf base (gen.advance n).counter,gen.advance (n+1)) := by
  rw [generateAt,Prod.mk.injEq,IdGenerator.mk.injEq]
  refine ⟨rfl,?_⟩
  change gen.counter+UInt64.ofNat n+1 = gen.counter+UInt64.ofNat (n+1)
  rw [UInt64.ofNat_add,← UInt64.add_assoc]
  rfl

lemma counter_advance (gen : IdGenerator) (n : ℕ) :
    (gen.advance n).counter.toNat % 2^32 = (gen.counter.toNat+n) % 2^32 := by
  rw [advance,UInt64.toNat_add,UInt64.toNat_ofNat']
  omega

@[simp] lemma ids_length (times : List UInt64) (gen : IdGenerator) :
    (gen.ids times).length = times.length := by
  induction times generalizing gen with
  | nil => rfl
  | cons base times ih => rw [ids,List.length_cons,ih,List.length_cons]

lemma ids_getElem? {i : ℕ} (hi : i < times.length) :
    (gen.ids times)[i]? = some (idOf times[i] (gen.advance i).counter) := by
  induction times generalizing gen i with
  | nil => exact absurd hi (Nat.not_lt_zero i)
  | cons base times ih =>
    cases i with
    | zero => simp [ids,generateAt,advance]
    | succ i =>
      have hi' : i < times.length := Nat.lt_of_succ_lt_succ hi
      simp only [ids,generateAt,List.getElem?_cons_succ,List.getElem_cons_succ]
      rw [ih hi',advance_succ]

/-- Whatever the clock shows, so many ids in a row are distinct exactly when the lower half of the
counter tells them apart. -/
theorem ids_nodup_iff (gen : IdGenerator) (n : ℕ) :
    (∀ times : List UInt64, times.length = n → (gen.ids times).Nodup) ↔ n ≤ 2^32 := by
  constructor
  · intro hall
    by_contra hn
    -- the clock stands still at its latest time
    have hlen : (List.replicate n (-1 : UInt64)).length = n := List.length_replicate
    have hnodup := hall _ hlen
    have hfirst : 0 < (List.replicate n (-1 : UInt64)).length := by omega
    have hagain : 2^32 < (List.replicate n (-1 : UInt64)).length := by omega
    have hcounter : (gen.advance 0).counter.toNat % 2^32 =
        (gen.advance (2^32)).counter.toNat % 2^32 := by
      rw [counter_advance,counter_advance]
      omega
    have heq : (gen.ids (List.replicate n (-1)))[0]? = (gen.ids (List.replicate n (-1)))[2^32]? := by
      rw [ids_getElem? hfirst,ids_getElem? hagain,List.getElem_replicate,List.getElem_replicate,
        idOf_latest hcounter]
    rw [← ids_length _ gen] at hagain
    exact List.nodup_iff_getElem?_ne_getElem?.mp hnodup 0 (2^32) (by decide) hagain heq
  · intro hn times hlen
    rw [List.nodup_iff_getElem?_ne_getElem?]
    intro i j hij hj heq
    rw [ids_length] at hj
    rw [ids_getElem? (hij.trans hj),ids_getElem? hj,Option.some.injEq] at heq
    have hmod := congrArg (· % 2^32) heq
    simp only [idOf_mod,counter_advance] at hmod
    omega

end IdGenerator

end Picobroker
