import Mathlib

/-! A channel of bounded capacity between tasks: what is sent is received in order. -/
namespace Rust

variable {α : Type} {n : ℕ}

/-- What was sent and is not received yet, never more than the capacity. -/
structure Channel (α : Type) (n : ℕ) where
  items : List α
  length_le : items.length ≤ n

namespace Channel

def new : Channel α n := ⟨[],Nat.zero_le n⟩

@[simp] lemma items_new : (new : Channel α n).items = [] := rfl

/-- Append the value, or refuse it when there is no room. -/
def trySend (a : α) (c : Channel α n) : Option (Channel α n) :=
  if h : c.items.length < n then some ⟨c.items ++ [a],by
    rw [List.length_append,List.length_singleton]
    omega⟩
  else none

/-- Take the oldest value, if there is one. -/
def recv : Channel α n → Option (α × Channel α n)
  | ⟨[],_⟩ => none
  | ⟨a::items,h⟩ => some (a,⟨items,by
    rw [List.length_cons] at h
    omega⟩)

/-- No value can be sent. -/
def Full (c : Channel α n) : Prop := c.items.length = n

instance (c : Channel α n) : Decidable c.Full := inferInstanceAs (Decidable (_ = _))

variable {a : α} {c c' : Channel α n}

lemma trySend_eq_some (h : c.trySend a = some c') : c'.items = c.items ++ [a] := by
  rw [trySend] at h
  split_ifs at h with hlt
  cases h
  rfl

lemma trySend_eq_none : c.trySend a = none ↔ c.Full := by
  have hle := c.length_le
  rw [trySend,Full]
  split_ifs with hlt
  · simp only [false_iff]
    omega
  · simp only [true_iff]
    omega

lemma recv_eq_some (h : c.recv = some (a,c')) : c.items = a::c'.items := by
  obtain ⟨items,hle⟩ := c
  cases items with
  | nil => cases h
  | cons b items =>
    cases h
    rfl

lemma recv_eq_none : c.recv = none ↔ c.items = [] := by
  obtain ⟨items,hle⟩ := c
  cases items <;> simp [recv]

end Channel

end Rust
