import Picobroker.Rust.Word
import Picobroker.Rust.Lists
import Picobroker.Rust.BoundedList

/-! The fixed-capacity containers. The visible contents are a prefix of a backing array of exactly
`N` slots; the slots behind the length keep whatever was last written to them. Lengths are a `u8`
for strings and a `u16` for vectors, and adding to them panics on overflow. -/
namespace Picobroker
open Rust

inductive PushError
  | pushError
  deriving DecidableEq, Repr

/-- `HeaplessString<N>`. -/
structure HeaplessString (N : ℕ) where
  length : ℕ
  data : Bytes
  data_length : data.length = N
  length_le : length ≤ N
  length_lt : length < 256
  deriving DecidableEq, Repr

namespace HeaplessString

variable {N : ℕ}

def new : HeaplessString N where
  length := 0
  data := List.replicate N 0
  data_length := List.length_replicate
  length_le := Nat.zero_le N
  length_lt := by decide

instance : Inhabited (HeaplessString N) := ⟨new⟩

/-- The copy fails above the capacity; the length is the byte count cast to `u8`. -/
def tryFrom (value : Bytes) : Option (HeaplessString N) :=
  if h : value.length ≤ N then some {
    length := value.length % 256
    data := value ++ List.replicate (N-value.length) 0
    data_length := by rw [List.length_append,List.length_replicate]; omega
    length_le := (Nat.mod_le _ _).trans h
    length_lt := Nat.mod_lt _ (by decide) }
  else none

/-- The stored bytes `data[..length]`. -/
def bytes (s : HeaplessString N) : Bytes := s.data.take s.length

/-- The stored bytes are text, as everything that entered as a `&str` is. -/
def Utf8 (s : HeaplessString N) : Prop := validUtf8 s.bytes = true

instance (s : HeaplessString N) : Decidable s.Utf8 := inferInstanceAs (Decidable (_ = true))

/-- Bytes that are not UTF-8 read as the empty string. -/
def asStr (s : HeaplessString N) : Bytes := if validUtf8 s.bytes then s.bytes else []

def len (s : HeaplessString N) : ℕ := s.length

def isEmpty (s : HeaplessString N) : Bool := s.length == 0

@[simp] lemma bytes_length (s : HeaplessString N) : s.bytes.length = s.length := by
  rw [bytes,List.length_take,s.data_length]
  exact Nat.min_eq_left s.length_le

lemma asStr_eq {s : HeaplessString N} (h : s.Utf8) : s.asStr = s.bytes := if_pos h

/-- Within a capacity that the `u8` can count, a copied string is stored whole. -/
lemma tryFrom_eq_some (hN : N ≤ 255) {value : Bytes} (h : value.length ≤ N) :
    ∃ s : HeaplessString N, tryFrom value = some s ∧ s.bytes = value := by
  have hm : value.length % 256 = value.length := Nat.mod_eq_of_lt (by omega)
  refine ⟨_,by rw [tryFrom,dif_pos h],?_⟩
  simp only [bytes,hm,List.take_left]

lemma bytes_of_tryFrom (hN : N ≤ 255) {value : Bytes} {s : HeaplessString N}
    (h : tryFrom value = some s) : s.bytes = value := by
  by_cases hv : value.length ≤ N
  · obtain ⟨t,ht,hb⟩ := tryFrom_eq_some hN hv
    rw [ht] at h
    exact Option.some.inj h ▸ hb
  · rw [tryFrom,dif_neg hv] at h
    cases h

end HeaplessString

/-- `HeaplessVec<T, N>`. -/
structure HeaplessVec (α : Type) (N : ℕ) where
  length : ℕ
  data : List α
  data_length : data.length = N
  length_le : length ≤ N
  length_lt : length < 65536
  deriving DecidableEq, Repr

/-- Shift `count` slots down by one: `for i in start..start + count { data[i] = data[i + 1] }`. -/
def shiftDown {α : Type} : (data : List α) → (start count : ℕ) → start+count < data.length → List α
  | data,_,0,_ => data
  | data,start,count+1,h =>
    shiftDown (data.set start (data.get ⟨start+1,by omega⟩)) (start+1) count
      (by rw [List.length_set]; omega)

lemma shiftDown_eq {α : Type} (data : List α) (start count : ℕ) (h : start+count < data.length) :
    shiftDown data start count h =
      data.take start ++ ((data.drop (start+1)).take count ++ data.drop (start+count)) := by
  induction count generalizing data start with
  | zero => simp [shiftDown]
  | succ count ih =>
    have hs : start < data.length := by omega
    rw [shiftDown,ih,List.take_set,List.drop_set,List.drop_set]
    have hd : data.drop (start+1) = data[start+1] :: data.drop (start+2) :=
      List.drop_eq_getElem_cons (by omega)
    have ht : (data.take (start+1)).set start (data.get ⟨start+1,by omega⟩) =
        data.take start ++ [data[start+1]] := by
      rw [List.take_add_one,List.getElem?_eq_getElem hs,List.set_append_right _ _ (by simp)]
      simp [Nat.min_eq_left hs.le]
    rw [ht,if_pos (by omega),if_pos (by omega),hd,List.take_succ_cons]
    simp [Nat.add_assoc,Nat.add_comm 1 count]

@[simp] lemma shiftDown_length {α : Type} (data : List α) (start count : ℕ)
    (h : start+count < data.length) : (shiftDown data start count h).length = data.length := by
  rw [shiftDown_eq]
  simp
  omega

/-- `if write != read { data[write] = item }`. -/
def moveDown {α : Type} (data : List α) (write read : ℕ) (item : α) : List α :=
  if write ≠ read then data.set write item else data

@[simp] lemma moveDown_length {α : Type} (data : List α) (write read : ℕ) (item : α) :
    (moveDown data write read item).length = data.length := by
  rw [moveDown]
  split <;> simp

/-- Writing an element back to its own slot changes nothing. -/
lemma moveDown_eq_set {α : Type} (data : List α) (write read : ℕ) (h : read < data.length) :
    moveDown data write read data[read] = data.set write data[read] := by
  by_cases he : write = read
  · subst he
    simp [moveDown]
  · exact if_pos he

section Retain
open BoundedList

variable {α κ : Type}

section Bounds

variable {data : List α} {read count : ℕ} (h : read+(count+1) ≤ data.length)
include h

lemma read_lt : read < data.length := by omega

lemma rest_le : read+1+count ≤ data.length := by omega

lemma rest_le_moveDown (write : ℕ) (item : α) :
    read+1+count ≤ (moveDown data write read item).length := by
  rw [moveDown_length]
  exact rest_le h

end Bounds

/-- The loop of `retain` over a closure with a state `k`. -/
def retainMutLoop (f : κ → α → Bool × κ) : κ → (data : List α) → (read write count : ℕ) →
    read+count ≤ data.length → κ × List α × ℕ
  | k,data,_,write,0,_ => (k,data,write)
  | k,data,read,write,count+1,h =>
    let item := data.get ⟨read,read_lt h⟩
    if (f k item).1 then
      retainMutLoop f (f k item).2 (moveDown data write read item) (read+1) (write+1) count
        (rest_le_moveDown h write item)
    else retainMutLoop f (f k item).2 data (read+1) write count (rest_le h)

/-- What the loop leaves behind: the selected elements from `write` on, and behind them every slot as
it was. -/
structure Retained (f : κ → α → Bool × κ) (k : κ) (data : List α) (read write count : ℕ)
    (r : κ × List α × ℕ) : Prop where
  closure : r.1 = (select f k ((data.drop read).take count)).1
  data_length : r.2.1.length = data.length
  length : r.2.2 = write+(select f k ((data.drop read).take count)).2.length
  contents : r.2.1.take r.2.2 = data.take write ++ (select f k ((data.drop read).take count)).2
  behind : r.2.1.drop r.2.2 = data.drop r.2.2

lemma retainMutLoop_spec (f : κ → α → Bool × κ) (k : κ) (data : List α) (read write count : ℕ)
    (h : read+count ≤ data.length) (hw : write ≤ read) :
    Retained f k data read write count (retainMutLoop f k data read write count h) := by
  induction count generalizing k data read write with
  | zero =>
    constructor <;> simp [retainMutLoop,select]
  | succ count ih =>
    have hr : read < data.length := by omega
    have hd : (data.drop read).take (count+1) = data[read] :: (data.drop (read+1)).take count := by
      rw [List.drop_eq_getElem_cons hr,List.take_succ_cons]
    rw [retainMutLoop]
    simp only [List.get_eq_getElem]
    cases hf : (f k data[read]).1 with
    | true =>
      simp only [if_true,moveDown_eq_set data write read hr]
      have hs := ih (f k data[read]).2 (data.set write data[read]) (read+1) (write+1)
        (by rw [List.length_set]; omega) (by omega)
      have hdrop : (data.set write data[read]).drop (read+1) = data.drop (read+1) := by
        rw [List.drop_set,if_pos (by omega)]
      have htake : (data.set write data[read]).take (write+1) = data.take write ++ [data[read]] := by
        rw [List.take_set,List.take_add_one,List.getElem?_eq_getElem (by omega : write < _),
          List.set_append_right _ _ (by simp)]
        simp [Nat.min_eq_left (by omega : write ≤ data.length)]
      have hsel : select f k ((data.drop read).take (count+1)) =
          ((select f (f k data[read]).2 ((data.drop (read+1)).take count)).1,
            data[read] :: (select f (f k data[read]).2 ((data.drop (read+1)).take count)).2) := by
        rw [hd,select,hf,if_pos rfl]
      obtain ⟨h₁,h₂,h₃,h₄,h₅⟩ := hs
      rw [hdrop] at h₁ h₃ h₄
      refine ⟨?_,?_,?_,?_,?_⟩
      · rw [h₁,hsel]
      · rw [h₂,List.length_set]
      · rw [h₃,hsel,List.length_cons]
        omega
      · rw [h₄,hsel,htake,List.append_assoc,List.singleton_append]
      · rw [h₅,List.drop_set,if_pos (by rw [h₃]; omega)]
    | false =>
      simp only [Bool.false_eq_true,if_false]
      have hsel : select f k ((data.drop read).take (count+1)) =
          select f (f k data[read]).2 ((data.drop (read+1)).take count) := by
        rw [hd,select,hf,if_neg Bool.false_ne_true]
      obtain ⟨h₁,h₂,h₃,h₄,h₅⟩ := ih (f k data[read]).2 data (read+1) write (by omega) (by omega)
      rw [← hsel] at h₁ h₃ h₄
      exact ⟨h₁,h₂,h₃,h₄,h₅⟩

/-- The loop of `retain`: keep the selected elements at `write`, which never passes `read`. -/
def retainLoop {α : Type} (f : α → Bool) : (data : List α) → (read write count : ℕ) →
    read+count ≤ data.length → List α × ℕ
  | data,_,write,0,_ => (data,write)
  | data,read,write,count+1,h =>
    let item := data.get ⟨read,by omega⟩
    if f item then
      retainLoop f (moveDown data write read item) (read+1) (write+1) count
        (by rw [moveDown_length]; omega)
    else retainLoop f data (read+1) write count (by omega)

lemma retainLoop_eq (p : α → Bool) (data : List α) (read write count : ℕ)
    (h : read+count ≤ data.length) : retainLoop p data read write count h =
      (retainMutLoop (fun (_ : Unit) x => (p x,())) () data read write count h).2 := by
  induction count generalizing data read write with
  | zero => rfl
  | succ count ih =>
    simp only [retainLoop,retainMutLoop]
    split_ifs
    · exact ih _ _ _ _
    · exact ih _ _ _ _

/-- What the loop leaves of the slots, for a closure without a state. -/
lemma retainLoop_spec {α : Type} (f : α → Bool) (data : List α) (read write count : ℕ)
    (h : read+count ≤ data.length) (hw : write ≤ read) :
    (retainLoop f data read write count h).1.length = data.length ∧
    (retainLoop f data read write count h).1.take (retainLoop f data read write count h).2 =
      data.take write ++ ((data.drop read).take count).filter f ∧
    (retainLoop f data read write count h).2 =
      write + (((data.drop read).take count).filter f).length := by
  have hs := retainMutLoop_spec (fun (_ : Unit) x => (f x,())) () data read write count h hw
  have hcontents := hs.contents
  have hlength := hs.length
  rw [select_filter] at hcontents hlength
  rw [retainLoop_eq]
  exact ⟨hs.data_length,hcontents,hlength⟩

end Retain

namespace HeaplessVec

variable {α β : Type} {N : ℕ}

def new [Inhabited α] : HeaplessVec α N where
  length := 0
  data := List.replicate N default
  data_length := List.length_replicate
  length_le := Nat.zero_le N
  length_lt := by decide

instance [Inhabited α] : Inhabited (HeaplessVec α N) := ⟨new⟩

def len (v : HeaplessVec α N) : ℕ := v.length

def isEmpty (v : HeaplessVec α N) : Bool := v.length == 0

/-- The visible contents `&data[..length]`. -/
def asSlice (v : HeaplessVec α N) : List α := v.data.take v.length

def clear (v : HeaplessVec α N) : HeaplessVec α N :=
  { v with length := 0, length_le := Nat.zero_le N, length_lt := by decide }

def push (item : α) : Proc (HeaplessVec α N) PushError Unit := ⟨fun v =>
  if h : v.length < N then
    if h' : v.length+1 < 65536 then .ok () {
      length := v.length+1
      data := v.data.set v.length item
      data_length := by rw [List.length_set,v.data_length]
      length_le := h
      length_lt := h' }
    else .abort .panic
  else .err .pushError v⟩

/-- Overwrite the slots from `start` on: `data[start + i] = items[i]`. -/
def writeFrom : List α → ℕ → List α → List α
  | data,_,[] => data
  | data,start,item::items => writeFrom (data.set start item) (start+1) items

@[simp] lemma writeFrom_length (data : List α) (start : ℕ) (items : List α) :
    (writeFrom data start items).length = data.length := by
  induction items generalizing data start with
  | nil => rfl
  | cons item items ih => rw [writeFrom,ih,List.length_set]

/-- The capacity test counts in `usize`; the new length is cast to `u16` before it is added. -/
def extendFromSlice (items : List α) : Proc (HeaplessVec α N) PushError Unit := ⟨fun v =>
  if h : v.length+items.length ≤ N then
    if h' : v.length+items.length%65536 < 65536 then .ok () {
      length := v.length+items.length%65536
      data := writeFrom v.data v.length items
      data_length := by rw [writeFrom_length,v.data_length]
      length_le := (Nat.add_le_add_left (Nat.mod_le _ _) _).trans h
      length_lt := h' }
    else .abort .panic
  else .err .pushError v⟩

def retain (f : α → Bool) (v : HeaplessVec α N) : HeaplessVec α N :=
  have hl : 0+v.length ≤ v.data.length := by rw [v.data_length,Nat.zero_add]; exact v.length_le
  have hs := retainLoop_spec f v.data 0 0 v.length hl le_rfl
  have hle : (retainLoop f v.data 0 0 v.length hl).2 ≤ v.length := by
    rw [hs.2.2,Nat.zero_add]
    exact (List.length_filter_le _ _).trans (List.length_take_le _ _)
  { length := (retainLoop f v.data 0 0 v.length hl).2
    data := (retainLoop f v.data 0 0 v.length hl).1
    data_length := by rw [hs.1,v.data_length]
    length_le := hle.trans v.length_le
    length_lt := hle.trans_lt v.length_lt }

/-- The caller found `index` by searching the slice, so it is below the length. -/
def remove (v : HeaplessVec α N) (index : ℕ) (h : index < v.length) : HeaplessVec α N :=
  have hl : index+(v.length-1-index) < v.data.length := by
    have := v.length_le
    rw [v.data_length]
    omega
  { length := v.length-1
    data := shiftDown v.data index (v.length-1-index) hl
    data_length := by rw [shiftDown_length,v.data_length]
    length_le := (Nat.sub_le _ _).trans v.length_le
    length_lt := (Nat.sub_le _ _).trans_lt v.length_lt }

def dequeueFront (v : HeaplessVec α N) : Option α × HeaplessVec α N :=
  if h : 0 < v.length then
    have hN : 0 < v.data.length := by rw [v.data_length]; exact h.trans_le v.length_le
    (some (v.data.get ⟨0,hN⟩),v.remove 0 h)
  else (none,v)

/-- Write through a mutable reference to the visible element `i`. -/
def store (v : HeaplessVec α N) (i : ℕ) (item : α) : HeaplessVec α N :=
  { v with data := v.data.set i item, data_length := by rw [List.length_set,v.data_length] }

/-- `for x in &mut v { .. }`: the results of the body in order, and the updated vector. -/
def iterMut (body : α → β × α) (v : HeaplessVec α N) : List β × HeaplessVec α N :=
  (v.asSlice.map (fun x => (body x).1),
    { v with
      data := v.asSlice.map (fun x => (body x).2) ++ v.data.drop v.length
      data_length := by
        have := v.length_le
        simp only [asSlice,List.length_append,List.length_map,List.length_take,List.length_drop,
          v.data_length]
        omega })

@[simp] lemma asSlice_length (v : HeaplessVec α N) : v.asSlice.length = v.length := by
  rw [asSlice,List.length_take,v.data_length]
  exact Nat.min_eq_left v.length_le

@[simp] lemma length_new [Inhabited α] : (new : HeaplessVec α N).length = 0 := rfl

@[simp] lemma asSlice_new [Inhabited α] : (new : HeaplessVec α N).asSlice = [] := rfl

@[simp] lemma asSlice_clear (v : HeaplessVec α N) : v.clear.asSlice = [] := by
  simp [asSlice,clear]

/-- A push succeeds: a slot is free and the length does not overflow. -/
def HasRoom (v : HeaplessVec α N) : Prop := v.length < N ∧ v.length < 65535

instance (v : HeaplessVec α N) : Decidable v.HasRoom := inferInstanceAs (Decidable (_ ∧ _))

/-- What a push can do. -/
lemma push_cases (v : HeaplessVec α N) (item : α) :
    (N ≤ v.length ∧ push item v = .err .pushError v) ∨
    (v.length < N ∧ v.length = 65535 ∧ push item v = .abort .panic) ∨
    (v.length < N ∧ v.length < 65535 ∧
      ∃ w, push item v = .ok () w ∧ w.asSlice = v.asSlice ++ [item]) := by
  have hlt := v.length_lt
  by_cases h : v.length < N
  · by_cases h' : v.length+1 < 65536
    · refine .inr (.inr ⟨h,by omega,_,by simp only [push,dif_pos h,dif_pos h']; rfl,?_⟩)
      have hd : v.length < v.data.length := by rw [v.data_length]; exact h
      simp only [asSlice]
      rw [List.take_set,List.take_add_one,List.getElem?_eq_getElem hd,
        List.set_append_right _ _ (by simp)]
      simp [Nat.min_eq_left hd.le]
    · exact .inr (.inl ⟨h,by omega,by simp only [push,dif_pos h,dif_neg h']⟩)
  · exact .inl ⟨by omega,by simp only [push,dif_neg h]⟩

lemma writeFrom_eq (data : List α) (start : ℕ) (items : List α)
    (h : start+items.length ≤ data.length) :
    writeFrom data start items = data.take start ++ (items ++ data.drop (start+items.length)) := by
  induction items generalizing data start with
  | nil => simp [writeFrom]
  | cons item items ih =>
    rw [List.length_cons] at h
    have hs : start < data.length := by omega
    rw [writeFrom,ih _ _ (by rw [List.length_set]; omega),List.take_set,List.drop_set,
      if_pos (by omega),List.take_add_one,List.getElem?_eq_getElem hs,
      List.set_append_right _ _ (by simp)]
    simp [Nat.min_eq_left hs.le,Nat.add_assoc,Nat.add_comm 1]

lemma take_writeFrom {data items : List α} {start : ℕ} (h : start+items.length ≤ data.length) :
    (writeFrom data start items).take (start+items.length) = data.take start ++ items := by
  have hs : start ≤ data.length := by omega
  rw [writeFrom_eq _ _ _ h,← List.append_assoc]
  apply List.take_left'
  rw [List.length_append,List.length_take,Nat.min_eq_left hs]

lemma extendFromSlice_eq_ok {v w : HeaplessVec α N} {items : List α} (hN : N ≤ 65535) {u : Unit}
    (h : extendFromSlice items v = .ok u w) : w.asSlice = v.asSlice ++ items := by
  by_cases hi : v.length+items.length ≤ N
  · have hm : items.length % 65536 = items.length := Nat.mod_eq_of_lt (by omega)
    have hl := v.length_lt
    simp only [extendFromSlice,dif_pos hi,dif_pos (show v.length+items.length%65536 < 65536 by omega)] at h
    cases h
    simp only [asSlice,hm]
    exact take_writeFrom (by rwa [v.data_length])
  · simp only [extendFromSlice,dif_neg hi] at h
    cases h

lemma extendFromSlice_fits {v : HeaplessVec α N} {items : List α} (hN : N ≤ 65535)
    (h : v.length+items.length ≤ N) : ∃ w, extendFromSlice items v = .ok () w := by
  have hm : items.length % 65536 = items.length := Nat.mod_eq_of_lt (by omega)
  have h' : v.length+items.length%65536 < 65536 := by omega
  exact ⟨_,by simp only [extendFromSlice,dif_pos h,dif_pos h']; rfl⟩

/-- A new vector filled from a slice: `let mut v = HeaplessVec::new(); v.extend_from_slice(items)`. -/
def collect [Inhabited α] (items : List α) : Option (HeaplessVec α N) :=
  match extendFromSlice items (new : HeaplessVec α N) with
  | .ok _ v => some v
  | _ => none

/-- Filling a new vector cannot overflow its length. -/
lemma extendFromSlice_new [Inhabited α] (items : List α) :
    (extendFromSlice items (new : HeaplessVec α N)).Returns := by
  have hlt : items.length%65536 < 65536 := Nat.mod_lt _ (by decide)
  by_cases h : (new : HeaplessVec α N).length+items.length ≤ N
  · have h' : (new : HeaplessVec α N).length+items.length%65536 < 65536 := by
      rwa [length_new,Nat.zero_add]
    simp only [extendFromSlice,dif_pos h,dif_pos h',Outcome.returns_ok]
  · simp only [extendFromSlice,dif_neg h,Outcome.returns_err]

lemma collect_eq_some [Inhabited α] {items : List α} (hN : N ≤ 65535) (h : items.length ≤ N) :
    ∃ v : HeaplessVec α N, collect items = some v ∧ v.asSlice = items := by
  obtain ⟨v,hv⟩ := extendFromSlice_fits (v := (new : HeaplessVec α N)) hN
    (by rwa [length_new,Nat.zero_add])
  exact ⟨v,by rw [collect,hv],by simpa using extendFromSlice_eq_ok hN hv⟩

lemma length_le_of_collect [Inhabited α] {items : List α} {v : HeaplessVec α N}
    (h : collect items = some v) : items.length ≤ N := by
  by_contra hN
  have hn : ¬ (new : HeaplessVec α N).length+items.length ≤ N := by rwa [length_new,Nat.zero_add]
  simp only [collect,extendFromSlice,dif_neg hn,reduceCtorEq] at h

lemma asSlice_of_collect [Inhabited α] {items : List α} {v : HeaplessVec α N} (hN : N ≤ 65535)
    (h : collect items = some v) : v.asSlice = items := by
  rw [collect] at h
  split at h
  · rename_i hv
    cases h
    simpa using extendFromSlice_eq_ok hN hv
  · cases h

@[simp] lemma asSlice_retain (f : α → Bool) (v : HeaplessVec α N) :
    (v.retain f).asSlice = v.asSlice.filter f := by
  have hl : 0+v.length ≤ v.data.length := by rw [v.data_length,Nat.zero_add]; exact v.length_le
  have h := (retainLoop_spec f v.data 0 0 v.length hl le_rfl).2.1
  simpa [asSlice,retain] using h

@[simp] lemma asSlice_remove (v : HeaplessVec α N) (index : ℕ) (h : index < v.length) :
    (v.remove index h).asSlice = v.asSlice.eraseIdx index := by
  have hN := v.length_le
  have hd := v.data_length
  simp only [asSlice,remove]
  rw [shiftDown_eq,List.eraseIdx_eq_take_drop_succ,List.take_take,List.drop_take,
    Nat.min_eq_left h.le,← List.append_assoc,List.take_left']
  · rw [show v.length-(index+1) = v.length-1-index by omega]
  · simp only [List.length_append,List.length_take,List.length_drop]
    omega

@[simp] lemma dequeueFront_fst (v : HeaplessVec α N) : v.dequeueFront.1 = v.asSlice.head? := by
  by_cases h : 0 < v.length
  · rw [dequeueFront,dif_pos h,asSlice,List.head?_take,if_neg (by omega),List.head?_eq_getElem?]
    simp
  · have hv : v.asSlice = [] := List.eq_nil_of_length_eq_zero (by rw [asSlice_length]; omega)
    rw [dequeueFront,dif_neg h,hv]
    rfl

@[simp] lemma asSlice_dequeueFront (v : HeaplessVec α N) :
    v.dequeueFront.2.asSlice = v.asSlice.tail := by
  by_cases h : 0 < v.length
  · rw [dequeueFront,dif_pos h]
    simp
  · have hv : v.asSlice = [] := List.eq_nil_of_length_eq_zero (by rw [asSlice_length]; omega)
    rw [dequeueFront,dif_neg h,hv]
    rfl

@[simp] lemma asSlice_store (v : HeaplessVec α N) (i : ℕ) (item : α) :
    (v.store i item).asSlice = v.asSlice.set i item := by
  simp [asSlice,store,List.take_set]

@[simp] lemma iterMut_fst (body : α → β × α) (v : HeaplessVec α N) :
    (v.iterMut body).1 = v.asSlice.map (fun x => (body x).1) := rfl

@[simp] lemma asSlice_iterMut (body : α → β × α) (v : HeaplessVec α N) :
    (v.iterMut body).2.asSlice = v.asSlice.map (fun x => (body x).2) := by
  rw [asSlice,iterMut]
  exact List.take_left' (by simp)

/-- `if let Some(x) = v.iter_mut().find(p) { found } else { missing }`. -/
def findMut {ε : Type} (p : α → Bool) (found : Proc α ε β) (missing : Proc (HeaplessVec α N) ε β) :
    Proc (HeaplessVec α N) ε β := ⟨fun v =>
  match v.asSlice.findFinIdx? p with
  | some i => (found v.asSlice[i]).mapState (v.store i)
  | none => missing v⟩

/-- `if let Some(pos) = v.iter().position(p) { v.remove(pos); true } else { false }`. -/
def removeFirst (p : α → Bool) (v : HeaplessVec α N) : Bool × HeaplessVec α N :=
  match v.asSlice.findFinIdx? p with
  | some pos => (true,v.remove pos (pos.isLt.trans_eq v.asSlice_length))
  | none => (false,v)

/-- Writing an element back changes nothing. -/
lemma store_eq_self {v : HeaplessVec α N} {i : ℕ} {x : α} (h : v.asSlice[i]? = some x) :
    v.store i x = v := by
  obtain ⟨hi,hx⟩ := List.getElem?_eq_some_iff.mp h
  have hd : i < v.data.length := by
    rw [asSlice_length] at hi
    rw [v.data_length]
    exact hi.trans_le v.length_le
  have hx' : v.data[i] = x := by
    rw [← hx]
    simp [asSlice]
  cases v
  simp only [store,mk.injEq,true_and]
  rw [← hx']
  exact List.set_getElem_self hd

/-- The search takes the first match and leaves the rest of the vector alone. -/
lemma findMut_cases {ε : Type} (p : α → Bool) (found : Proc α ε β)
    (missing : Proc (HeaplessVec α N) ε β) (v : HeaplessVec α N) :
    ((∀ x ∈ v.asSlice, p x = false) ∧ findMut p found missing v = missing v) ∨
    ∃ pre x post, v.asSlice = pre ++ x::post ∧ (∀ y ∈ pre, p y = false) ∧ p x = true ∧
      v.store pre.length x = v ∧
      (∀ y, (v.store pre.length y).asSlice = pre ++ y::post) ∧
      findMut p found missing v = (found x).mapState (v.store pre.length) := by
  obtain ⟨hn,hall⟩ | ⟨i,pre,post,hs,hv,hi,hp,hpre⟩ := findFinIdx?_cases p v.asSlice
  · exact .inl ⟨hall,by simp only [findMut,hn]⟩
  · refine .inr ⟨pre,v.asSlice[i],post,hv,hpre,hp,?_,?_,?_⟩
    · apply store_eq_self
      rw [← hi]
      exact List.getElem?_eq_getElem i.isLt
    · intro y
      rw [asSlice_store,hv,List.set_append_right _ _ le_rfl]
      simp
    · simp only [findMut,hs,hi]

@[simp] lemma removeFirst_fst (p : α → Bool) (v : HeaplessVec α N) :
    (v.removeFirst p).1 = v.asSlice.any p := by
  obtain ⟨hn,hall⟩ | ⟨i,pre,post,hs,hv,-,hp,-⟩ := findFinIdx?_cases p v.asSlice
  · rw [removeFirst,hn]
    symm
    rw [List.any_eq_false]
    intro x hx
    simp [hall x hx]
  · rw [removeFirst,hs]
    symm
    rw [List.any_eq_true]
    exact ⟨v.asSlice[i],List.getElem_mem i.isLt,hp⟩

@[simp] lemma asSlice_removeFirst (p : α → Bool) (v : HeaplessVec α N) :
    (v.removeFirst p).2.asSlice = v.asSlice.eraseP p := by
  rw [List.eraseP_eq_eraseIdx,List.findIdx?_eq_map_findFinIdx?_val,removeFirst]
  cases v.asSlice.findFinIdx? p with
  | none => rfl
  | some i => exact asSlice_remove v i (i.isLt.trans_eq v.asSlice_length)

end HeaplessVec

/-- `TopicName` and `ClientId` wrap a string and dereference to it. -/
abbrev TopicName (T : ℕ) : Type := HeaplessString T
abbrev ClientId : Type := HeaplessString 23

end Picobroker
